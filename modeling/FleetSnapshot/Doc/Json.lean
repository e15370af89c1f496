import FleetSnapshot.Doc
import FleetSnapshot.Text.Digits
import FleetSnapshot.Text.Search
/-!
JSON texts, read and written. A name may occur twice in an object: both entries are kept, and the
reader of a record decides. Written texts have no blanks and escape only what they must.
-/

namespace FleetSnapshot.Doc.Json

def isSpace (c : Char) : Bool := c == ' ' || c == '\n' || c == '\t' || c == '\r'

def skipSpace (cs : List Char) : List Char := cs.dropWhile isSpace

def hex4? : List Char → Option (Nat × List Char)
  | a :: b :: c :: d :: rest => (Text.numeral? 16 [a, b, c, d]).map (·, rest)
  | _ => none

/-- The rest of a text after its opening quote: code points, `none` standing for a lone half of a
surrogate pair, and what follows the closing quote. -/
def stringBody : Nat → List Char → Option (List (Option Char) × List Char)
  | 0, _ => none
  | _ + 1, [] => none
  | n + 1, c :: cs =>
    if c = '"' then some ([], cs)
    else if c = '\\' then
      match cs with
      | 'u' :: rest =>
        match hex4? rest with
        | none => none
        | some (hi, rest) =>
          if 0xD800 ≤ hi && hi < 0xDC00 then
            match rest with
            | '\\' :: 'u' :: rest' =>
              match hex4? rest' with
              | none => none
              | some (lo, rest'') =>
                if 0xDC00 ≤ lo && lo < 0xE000 then
                  let ch := Char.ofNat (0x10000 + (hi - 0xD800) * 0x400 + (lo - 0xDC00))
                  (stringBody n rest'').map fun (cs, r) => (some ch :: cs, r)
                else (stringBody n rest).map fun (cs, r) => (none :: cs, r)
            | _ => (stringBody n rest).map fun (cs, r) => (none :: cs, r)
          else if 0xDC00 ≤ hi && hi < 0xE000 then
            (stringBody n rest).map fun (cs, r) => (none :: cs, r)
          else (stringBody n rest).map fun (cs, r) => (some (Char.ofNat hi) :: cs, r)
      | e :: rest =>
        let plain : Option Char := match e with
          | '"' => some '"'
          | '\\' => some '\\'
          | '/' => some '/'
          | 'b' => some '\x08'
          | 'f' => some '\x0c'
          | 'n' => some '\n'
          | 'r' => some '\r'
          | 't' => some '\t'
          | _ => none
        match plain with
        | none => none
        | some ch => (stringBody n rest).map fun (cs, r) => (some ch :: cs, r)
      | [] => none
    else if c.toNat < 0x20 then none
    else (stringBody n cs).map fun (cs, r) => (some c :: cs, r)

def string? (cs : List Char) : Option (Option String × List Char) :=
  (stringBody (cs.length + 1) cs).map fun (body, rest) =>
    ((body.mapM id).map String.ofList, rest)

def digitRun (cs : List Char) : List Char × List Char := cs.span Char.isDigit

def number? (cs : List Char) : Option (Doc × List Char) := do
  let (negative, cs) := match cs with
    | '-' :: rest => (true, rest)
    | cs => (false, cs)
  let (whole, cs) := digitRun cs
  guard (!whole.isEmpty && (whole.length == 1 || whole.head? != some '0'))
  let (fraction, cs) ← match cs with
    | '.' :: rest =>
      let (f, rest) := digitRun rest
      if f.isEmpty then none else some (f, rest)
    | cs => some ([], cs)
  let (expNegative, exponent, cs) ← match cs with
    | e :: rest =>
      if e = 'e' || e = 'E' then
        let (neg, rest) := match rest with
          | '-' :: r => (true, r)
          | '+' :: r => (false, r)
          | r => (false, r)
        let (x, rest) := digitRun rest
        if x.isEmpty then none else some (neg, x, rest)
      else some (false, [], cs)
    | [] => some (false, [], [])
  let magnitude ← Text.numeral? 10 whole
  if fraction.isEmpty && exponent.isEmpty && !(negative && magnitude == 0) then
    let n : Int := if negative then -(magnitude : Int) else magnitude
    if -(Text.signBound : Int) ≤ n && n < UInt64.size then return (.int n, cs)
    return (.real (Text.inReach magnitude 0 0), cs)
  let digits := (Text.numeral? 10 (whole ++ fraction)).getD 0
  let shift := (Text.numeral? 10 exponent).getD 0
  let up := if expNegative then 0 else shift
  let down := fraction.length + (if expNegative then shift else 0)
  return (.real (Text.inReach digits up down), cs)

mutual

/-- A value at the front of the text. The number bounds the calls. -/
def value? : Nat → List Char → Option (Doc × List Char)
  | 0, _ => none
  | n + 1, cs =>
    match skipSpace cs with
    | '[' :: rest =>
      match skipSpace rest with
      | ']' :: rest => some (.list [], rest)
      | rest => (items? n rest).map fun (ds, r) => (.list ds, r)
    | '{' :: rest =>
      match skipSpace rest with
      | '}' :: rest => some (.table [], rest)
      | rest => (entries? n rest).map fun (es, r) => (.table es, r)
    | '"' :: rest => (string? rest).map fun (s, r) => (s.elim .broken .text, r)
    | 'n' :: 'u' :: 'l' :: 'l' :: rest => some (.null, rest)
    | 't' :: 'r' :: 'u' :: 'e' :: rest => some (.bool true, rest)
    | 'f' :: 'a' :: 'l' :: 's' :: 'e' :: rest => some (.bool false, rest)
    | cs => number? cs

/-- The items of a list, up to and with its closing bracket. -/
def items? : Nat → List Char → Option (List Doc × List Char)
  | 0, _ => none
  | n + 1, cs =>
    match value? n cs with
    | none => none
    | some (d, rest) =>
      match skipSpace rest with
      | ']' :: rest => some ([d], rest)
      | ',' :: rest => (items? n rest).map fun (ds, r) => (d :: ds, r)
      | _ => none

/-- The entries of a table, up to and with its closing brace. -/
def entries? : Nat → List Char → Option (List (String × Doc) × List Char)
  | 0, _ => none
  | n + 1, cs =>
    match skipSpace cs with
    | '"' :: rest =>
      match string? rest with
      | some (some key, rest) =>
        match skipSpace rest with
        | ':' :: rest =>
          match value? n rest with
          | none => none
          | some (d, rest) =>
            match skipSpace rest with
            | '}' :: rest => some ([(key, d)], rest)
            | ',' :: rest => (entries? n rest).map fun (es, r) => ((key, d) :: es, r)
            | _ => none
        | _ => none
      | _ => none
    | _ => none

end

/-- The value that a whole text holds, blanks around it aside. -/
def read? (s : String) : Option Doc :=
  let cs := s.toList
  match value? (2 * cs.length + 2) cs with
  | some (d, rest) => if (skipSpace rest).isEmpty then some d else none
  | none => none

/-- A text that any JSON value may stand in: nothing broken or out of range, and lists and tables
nested less than 128 deep. -/
def readAny? (s : String) : Option Doc := (read? s).filter fun d => d.sound && d.depth < 128

def hexDigit (n : Nat) : Char := (Nat.toDigits 16 n).headD '0'

def escapeChar (c : Char) : List Char :=
  match c with
  | '"' => ['\\', '"']
  | '\\' => ['\\', '\\']
  | '\n' => ['\\', 'n']
  | '\r' => ['\\', 'r']
  | '\t' => ['\\', 't']
  | '\x08' => ['\\', 'b']
  | '\x0c' => ['\\', 'f']
  | c =>
    if c.toNat < 0x20 then ['\\', 'u', '0', '0', hexDigit (c.toNat / 16), hexDigit (c.toNat % 16)]
    else [c]

def writeText (s : String) : String :=
  "\"" ++ String.ofList (s.toList.flatMap escapeChar) ++ "\""

mutual

def write : Doc → String
  | .null => "null"
  | .bool true => "true"
  | .bool false => "false"
  | .int n => toString n
  | .real _ => "null"
  | .text s => writeText s
  | .broken => "null"
  | .time => "null"
  | .list [] => "[]"
  | .list (d :: ds) => "[" ++ write d ++ writeItems ds
  | .table [] => "\x7b\x7d"
  | .table ((k, d) :: es) => "\x7b" ++ writeText k ++ ":" ++ write d ++ writeEntries es

def writeItems : List Doc → String
  | [] => "]"
  | d :: ds => "," ++ write d ++ writeItems ds

def writeEntries : List (String × Doc) → String
  | [] => "\x7d"
  | (k, d) :: es => "," ++ writeText k ++ ":" ++ write d ++ writeEntries es

end

end FleetSnapshot.Doc.Json
