import FleetSnapshot.Text.Alphanumeric
import FleetSnapshot.Text.Search
/-!
Variable references in a text: `$NAME`, `${NAME}` and `${NAME:-fallback}`. A doubled dollar
stands for one; a reference to a variable that is not set stays as it was written.
-/

namespace FleetSnapshot.Text

abbrev Env := String → Option String

def isNameChar (c : Char) : Bool := c == '_' || isAlphanumeric c

/-- The name and the fallback between braces. A fallback needs a name in front of it. -/
def splitReference (inner : List Char) : List Char × Option (List Char) :=
  match cut? [':', '-'] inner with
  | some (c :: name, fallback) => (c :: name, some fallback)
  | _ => (inner, none)

def lookUp (env : Env) (name : List Char) (fallback : Option (List Char)) (asWritten : List Char) :
    List Char :=
  match env (String.ofList name) with
  | some value => value.toList
  | none => fallback.getD asWritten

/-- One reference at the front of the text after a dollar: what it becomes and how many characters
it takes. -/
def reference (env : Env) (cs : List Char) : List Char × Nat :=
  match cs with
  | '$' :: _ => (['$'], 1)
  | '{' :: rest =>
    match cut? ['}'] rest with
    | some (inner, _) =>
      let (name, fallback) := splitReference inner
      (lookUp env name fallback ('$' :: '{' :: (inner ++ ['}'])), inner.length + 2)
    | none => (['$', '{'], 1)
  | _ =>
    let name := cs.takeWhile isNameChar
    if name.isEmpty then (['$'], 0) else (lookUp env name none ('$' :: name), name.length)

/-- The number counts the characters left of a reference that has been taken care of. -/
def expandFrom (env : Env) : Nat → List Char → List Char
  | _, [] => []
  | n + 1, _ :: cs => expandFrom env n cs
  | 0, c :: cs =>
    if c = '$' then
      let (value, taken) := reference env cs
      value ++ expandFrom env taken cs
    else c :: expandFrom env 0 cs

def expand (env : Env) (s : String) : String := String.ofList (expandFrom env 0 s.toList)

end FleetSnapshot.Text
