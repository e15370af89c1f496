import FleetSnapshot.Doc.Toml.Scalar
import FleetSnapshot.Doc.Toml.Tree
/-!
TOML files: lines that set the value of a key, under headers that name the table it goes to.
-/

namespace FleetSnapshot.Doc.Toml

def isKeyChar (c : Char) : Bool := c.isAlphanum || c == '_' || c == '-'

/-- One part of a key, bare or in quotes. -/
def keyPart? (cs : List Char) : Option (String × List Char) :=
  match cs with
  | '"' :: r => (basic? cs.length r).map fun (s, r) => (String.ofList s, r)
  | '\'' :: r => (literal? r).map fun (s, r) => (String.ofList s, r)
  | cs =>
    let name := cs.takeWhile isKeyChar
    if name.isEmpty then none else some (String.ofList name, cs.drop name.length)

/-- The parts of a key between its dots. The number bounds them. -/
def keyPath? : Nat → List Char → Option (List String × List Char)
  | 0, _ => none
  | n + 1, cs =>
    match keyPart? (skipBlanks cs) with
    | none => none
    | some (part, r) =>
      match skipBlanks r with
      | '.' :: r => (keyPath? n r).map fun (path, r) => (part :: path, r)
      | r => some ([part], r)

/-- A line end, the end of the file, or a comment up to one of them. -/
def lineEnd? (cs : List Char) : Option (List Char) :=
  let r := match skipBlanks cs with
    | '#' :: r => r.dropWhile isPlain
    | r => r
  if r.isEmpty then some [] else newline? r

/-- Blanks, line ends and comments. The number bounds the lines. -/
def skipFiller : Nat → List Char → List Char
  | 0, cs => cs
  | n + 1, cs =>
    match skipBlanks cs with
    | [] => []
    | c :: r =>
      match lineEnd? (c :: r) with
      | some r => skipFiller n r
      | none => c :: r

def isBareChar (c : Char) : Bool :=
  c.isAlphanum || c == '+' || c == '-' || c == '_' || c == '.' || c == ':'

/-- Whether a date is followed by a time behind one blank. -/
def goesOn (token rest : List Char) : Bool :=
  (day? token == some []) &&
    match rest with
    | ' ' :: a :: b :: ':' :: _ => a.isDigit && b.isDigit
    | _ => false

def bareValue? (cs : List Char) : Option (Doc × List Char) :=
  let token := cs.takeWhile isBareChar
  let rest := cs.drop token.length
  if goesOn token rest then
    let more := (rest.drop 1).takeWhile isBareChar
    (bare? (token ++ ' ' :: more)).map (·, rest.drop (more.length + 1))
  else (bare? token).map (·, rest)

def splitLast : List String → Option (List String × String)
  | [] => none
  | [k] => some ([], k)
  | k :: ks => (splitLast ks).map fun (path, last) => (k :: path, last)

def addAt (path : List String) (d : Doc) (es : Entries) : Option Entries :=
  (splitLast path).bind fun (front, key) => es.addValue front key d

def equals? (cs : List Char) : Option (List Char) :=
  match skipBlanks cs with
  | '=' :: r => some (skipBlanks r)
  | _ => none

mutual

/-- A value at the front. The number bounds the calls. -/
def value? : Nat → List Char → Option (Doc × List Char)
  | 0, _ | _, [] => none
  | n + 1, c :: cs =>
    if c = '"' || c = '\'' then (text? (c :: cs)).map fun (s, r) => (.text s, r)
    else if c = '[' then (items? n (skipFiller cs.length cs)).map fun (ds, r) => (.list ds, r)
    else if c = '{' then
      (fields? n [] (skipFiller cs.length cs)).map fun (es, r) => ((Tree.table .header es).toDoc, r)
    else bareValue? (c :: cs)

def items? : Nat → List Char → Option (List Doc × List Char)
  | 0, _ => none
  | n + 1, cs =>
    match cs with
    | ']' :: r => some ([], r)
    | cs =>
      match value? n cs with
      | none => none
      | some (d, r) =>
        match skipFiller r.length r with
        | ']' :: r => some ([d], r)
        | ',' :: r => (items? n (skipFiller r.length r)).map fun (ds, r) => (d :: ds, r)
        | _ => none

/-- The fields of a table in braces, up to and with its closing brace. -/
def fields? : Nat → Entries → List Char → Option (Entries × List Char)
  | 0, _, _ => none
  | n + 1, es, cs =>
    match cs with
    | '}' :: r => some (es, r)
    | cs =>
      match keyPath? cs.length cs with
      | none => none
      | some (path, r) =>
        match equals? r with
        | none => none
        | some r =>
          match value? n r with
          | none => none
          | some (d, r) =>
            match addAt path d es with
            | none => none
            | some es =>
              match skipFiller r.length r with
              | '}' :: r => some (es, r)
              | ',' :: r => fields? n es (skipFiller r.length r)
              | _ => none

end

/-- A file as far as it has been read: its tables and the path of the header in force. -/
structure File where
  root : Entries := []
  header : List String := []

def File.setHeader (f : File) (path : List String) (open? : String → Entries → Option Entries) :
    Option File := do
  let (front, key) ← splitLast path
  let root ← f.root.update .between (open? key) front
  return { root, header := path }

def File.add (f : File) (path : List String) (d : Doc) : Option File :=
  (f.root.update .between (addAt path d) f.header).map ({ f with root := · })

def header? (f : File) (cs : List Char) : Option (File × List Char) :=
  match cs with
  | '[' :: '[' :: r => do
    let (path, r) ← keyPath? r.length r
    let r ← Text.strip? [']', ']'] r
    return (← f.setHeader path Entries.openNext, r)
  | '[' :: r => do
    let (path, r) ← keyPath? r.length r
    let r ← Text.strip? [']'] r
    return (← f.setHeader path Entries.openTable, r)
  | _ => none

def assignment? (f : File) (cs : List Char) : Option (File × List Char) := do
  let (path, r) ← keyPath? cs.length cs
  let r ← equals? r
  let (d, r) ← value? (2 * r.length + 1) r
  return (← f.add path d, r)

def statement? (f : File) (cs : List Char) : Option (File × List Char) :=
  if cs.head? = some '[' then header? f cs else assignment? f cs

/-- The rest of a file, line by line. The number bounds the lines. -/
def lines? : Nat → File → List Char → Option File
  | 0, _, _ => none
  | n + 1, f, cs =>
    match skipFiller cs.length cs with
    | [] => some f
    | cs =>
      match statement? f cs with
      | none => none
      | some (f, r) =>
        match lineEnd? r with
        | none => none
        | some r => lines? n f r

/-- The tables of a file. A byte order mark in front of it is let go. -/
def read? (s : String) : Option Doc :=
  let cs := s.toList
  let cs := (Text.strip? ['\uFEFF'] cs).getD cs
  (lines? (cs.length + 1) {} cs).map fun f => (Tree.table .header f.root).toDoc

end FleetSnapshot.Doc.Toml
