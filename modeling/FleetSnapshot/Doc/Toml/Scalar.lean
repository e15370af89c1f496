import FleetSnapshot.Doc
import FleetSnapshot.Instant
import FleetSnapshot.Text.Digits
import FleetSnapshot.Text.Search
/-!
Texts, numbers, truth values and dates as they stand in a TOML file.
-/

namespace FleetSnapshot.Doc.Toml

/-- A character that may stand in a text or a comment as it is. -/
def isPlain (c : Char) : Bool := c == '\t' || (0x20 ≤ c.toNat && c.toNat != 0x7F)

def scalar? (n : Nat) : Option Char :=
  if n < 0xD800 || (0xE000 ≤ n && n < 0x110000) then some (Char.ofNat n) else none

/-- A character by its code point in so many digits. -/
def codePoint? (width : Nat) (cs : List Char) : Option (Char × List Char) := do
  guard (width ≤ cs.length)
  let n ← Text.numeral? 16 (cs.take width)
  return (← scalar? n, cs.drop width)

def escape? : List Char → Option (Char × List Char)
  | 'b' :: r => some ('\x08', r)
  | 't' :: r => some ('\t', r)
  | 'n' :: r => some ('\n', r)
  | 'f' :: r => some ('\x0c', r)
  | 'r' :: r => some ('\r', r)
  | 'e' :: r => some ('\x1b', r)
  | '"' :: r => some ('"', r)
  | '\\' :: r => some ('\\', r)
  | 'x' :: r => codePoint? 2 r
  | 'u' :: r => codePoint? 4 r
  | 'U' :: r => codePoint? 8 r
  | _ => none

def cons (c : Char) : Option (List Char × List Char) → Option (List Char × List Char) :=
  Option.map fun (cs, r) => (c :: cs, r)

/-- A text in quotes after the opening one. The number bounds the steps. -/
def basic? : Nat → List Char → Option (List Char × List Char)
  | 0, _ | _, [] => none
  | n + 1, c :: cs =>
    if c = '"' then some ([], cs)
    else if c = '\\' then
      match escape? cs with
      | some (e, r) => cons e (basic? n r)
      | none => none
    else if isPlain c then cons c (basic? n cs)
    else none

def literal? : List Char → Option (List Char × List Char)
  | [] => none
  | c :: cs =>
    if c = '\'' then some ([], cs)
    else if isPlain c then cons c (literal? cs)
    else none

def isBlank (c : Char) : Bool := c == ' ' || c == '\t'

def skipBlanks (cs : List Char) : List Char := cs.dropWhile isBlank

def newline? : List Char → Option (List Char)
  | '\n' :: r => some r
  | '\r' :: '\n' :: r => some r
  | _ => none

/-- Blanks and line ends. A lone carriage return ends them. -/
def skipLines : List Char → List Char
  | '\r' :: '\n' :: cs => skipLines cs
  | c :: cs => if isBlank c || c == '\n' then skipLines cs else c :: cs
  | [] => []

/-- What follows a backslash that joins two lines. -/
def joined? (cs : List Char) : Option (List Char) := (newline? (skipBlanks cs)).map skipLines

/-- The quotes at the end of a text of several lines: up to two of five belong to the text. -/
def closing? (q : Char) (cs : List Char) : Option (List Char × List Char) :=
  let run := (cs.takeWhile (· == q)).length
  if 3 ≤ run then
    let inner := min run 5 - 3
    some (List.replicate inner q, cs.drop (inner + 3))
  else none

def carriesOn (c : Char) (cs : List Char) : Bool :=
  isPlain c || c == '\n' || (c == '\r' && cs.head? == some '\n')

/-- A text of several lines after its opening quotes. -/
def basicLines? : Nat → List Char → Option (List Char × List Char)
  | 0, _ | _, [] => none
  | n + 1, c :: cs =>
    match closing? '"' (c :: cs) with
    | some closed => some closed
    | none =>
      if c = '\\' then
        match joined? cs with
        | some r => basicLines? n r
        | none =>
          match escape? cs with
          | some (e, r) => cons e (basicLines? n r)
          | none => none
      else if carriesOn c cs then cons c (basicLines? n cs)
      else none

def literalLines? : List Char → Option (List Char × List Char)
  | [] => none
  | c :: cs =>
    match closing? '\'' (c :: cs) with
    | some closed => some closed
    | none => if carriesOn c cs then cons c (literalLines? cs) else none

/-- A line end right behind the opening quotes does not count. -/
def dropFirstNewline (cs : List Char) : List Char := (newline? cs).getD cs

def text? (cs : List Char) : Option (String × List Char) :=
  let found := match cs with
    | '"' :: '"' :: '"' :: r => basicLines? cs.length (dropFirstNewline r)
    | '\'' :: '\'' :: '\'' :: r => literalLines? (dropFirstNewline r)
    | '"' :: r => basic? cs.length r
    | '\'' :: r => literal? r
    | _ => none
  found.map fun (s, r) => (String.ofList s, r)

/-- Digits with single underscores between them, and those taken out. -/
def digitGroups? (base : Nat) (cs : List Char) : Option Nat :=
  if (Text.fields '_' cs).all (!·.isEmpty) then Text.numeral? base (cs.filter (· != '_')) else none

def splitSign : List Char → Option Bool × List Char
  | '-' :: r => (some true, r)
  | '+' :: r => (some false, r)
  | cs => (none, cs)

/-- No zero in front of other digits. -/
def wholeDigits? (cs : List Char) : Option Nat :=
  match cs with
  | '0' :: _ :: _ => none
  | cs => digitGroups? 10 cs

/-- The first number that takes more than two words. -/
def wideBound : Nat := UInt64.size * UInt64.size

def integer? (cs : List Char) : Option Int :=
  let (sign, digits) := splitSign cs
  let value : Option Nat := match sign, digits with
    | none, '0' :: 'x' :: r => digitGroups? 16 r
    | none, '0' :: 'o' :: r => digitGroups? 8 r
    | none, '0' :: 'b' :: r => digitGroups? 2 r
    | _, r => wholeDigits? r
  (value.map fun n => if sign = some true then -(n : Int) else (n : Int)).filter
    fun n => -(wideBound / 2 : Int) ≤ n && n < wideBound

/-- Whether a double can hold `digits` with the point moved. -/
def scaled (digits : Nat) (places : Int) : Bool :=
  Text.inReach digits places.toNat (-places).toNat

def exponent? (cs : List Char) : Option Int :=
  let (sign, digits) := splitSign cs
  (digitGroups? 10 digits).map fun n => if sign = some true then -(n : Int) else n

def isExponentMark (c : Char) : Bool := c == 'e' || c == 'E'

/-- A number with a point or an exponent, or one of the names of no such number. -/
def real? (cs : List Char) : Option Doc := do
  let (_, body) := splitSign cs
  if body = ['i', 'n', 'f'] || body = ['n', 'a', 'n'] then return .real true
  let (mantissa, rest) := body.span (!isExponentMark ·)
  let exponent ← match rest with
    | [] => some 0
    | _ :: r => exponent? r
  match Text.cut? ['.'] mantissa with
  | some (whole, fraction) => do
    let _ ← wholeDigits? whole
    let _ ← digitGroups? 10 fraction
    let n ← Text.numeral? 10 ((whole ++ fraction).filter (· != '_'))
    let places := (fraction.filter (· != '_')).length
    guard (scaled n (exponent - places))
    return .real true
  | none => do
    guard (!rest.isEmpty)
    let n ← wholeDigits? mantissa
    guard (scaled n exponent)
    return .real true

def two? : List Char → Option (Nat × List Char)
  | a :: b :: r => (Text.numeral? 10 [a, b]).map (·, r)
  | _ => none

def four? : List Char → Option (Nat × List Char)
  | a :: b :: c :: d :: r => (Text.numeral? 10 [a, b, c, d]).map (·, r)
  | _ => none

def day? (cs : List Char) : Option (List Char) := do
  let (year, cs) ← four? cs
  let cs ← Text.strip? ['-'] cs
  let (month, cs) ← two? cs
  let cs ← Text.strip? ['-'] cs
  let (day, cs) ← two? cs
  guard (1 ≤ month && month ≤ 12 && 1 ≤ day && day ≤ Instant.daysInMonth year month)
  return cs

def fraction? : List Char → Option (List Char)
  | '.' :: r => if (r.takeWhile Char.isDigit).isEmpty then none else some (r.dropWhile Char.isDigit)
  | cs => some cs

def seconds? : List Char → Option (List Char)
  | ':' :: r => do
    let (second, r) ← two? r
    guard (second ≤ 60)
    fraction? r
  | cs => some cs

def clock? (cs : List Char) : Option (List Char) := do
  let (hour, cs) ← two? cs
  let cs ← Text.strip? [':'] cs
  let (minute, cs) ← two? cs
  guard (hour ≤ 23 && minute ≤ 59)
  seconds? cs

def isZone : List Char → Bool
  | [] => true
  | [c] => c == 'Z' || c == 'z'
  | c :: r =>
    (c == '+' || c == '-') &&
      match two? r with
      | some (hour, ':' :: m) => hour ≤ 23 && (two? m).any fun (minute, r) => minute ≤ 59 && r.isEmpty
      | _ => false

def isTimeMark (c : Char) : Bool := c == 'T' || c == 't' || c == ' '

/-- A date, a time, or both. -/
def isTime (cs : List Char) : Bool :=
  match day? cs with
  | some [] => true
  | some (c :: r) => isTimeMark c && (clock? r).any isZone
  | none => clock? cs == some []

/-- A value that is not in quotes or brackets. -/
def bare? (cs : List Char) : Option Doc :=
  if cs = "true".toList then some (.bool true)
  else if cs = "false".toList then some (.bool false)
  else
    match integer? cs with
    | some n => some (.int n)
    | none => if isTime cs then some .time else real? cs

end FleetSnapshot.Doc.Toml
