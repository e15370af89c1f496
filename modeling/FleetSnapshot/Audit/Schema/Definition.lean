import FleetSnapshot.Audit.Schema
import FleetSnapshot.Text.Blank
/-!
The definition of a column as a database keeps it: a name, maybe in quotes, and then what its
values have to be.
-/

namespace FleetSnapshot.Audit.Schema

/-- The quote that ends a name which begins with this one. -/
def closing? (c : Char) : Option Char :=
  if c == '"' || c == '\x60' || c == '\'' then some c else if c == '[' then some ']' else none

/-- The name at the front of a definition, and what follows it. -/
def splitName (cs : List Char) : List Char × List Char :=
  match cs with
  | [] => ([], [])
  | c :: rest =>
    match closing? c with
    | some q => (rest.takeWhile (· != q), (rest.dropWhile (· != q)).drop 1)
    | none => cs.span fun c => !Text.isBlank c && c != '('

/-- Whether one word directly follows another. -/
def together (first second : String) (words : List String) : Bool :=
  (words.zip words.tail).any fun p => p.1 == first && p.2 == second

/-- The words that a condition on the whole table begins with. -/
def tableConditions : List String := ["CONSTRAINT", "PRIMARY", "UNIQUE", "CHECK", "FOREIGN"]

/-- The column that is defined. None for a condition on the whole table. -/
def Column.ofDefinition? (definition : String) : Option Column :=
  let (name, rest) := splitName (Text.trimStart definition.toList)
  let name := String.ofList name
  if tableConditions.contains name.toUpper then none
  else
    let words := (Text.words rest).map fun w => (String.ofList w).toUpper
    let numbered := words.head? == some "INTEGER" && together "PRIMARY" "KEY" words
    some {
      name
      required := together "NOT" "NULL" words && !words.contains "DEFAULT" && !numbered
      unique := words.contains "UNIQUE" || together "PRIMARY" "KEY" words }

end FleetSnapshot.Audit.Schema
