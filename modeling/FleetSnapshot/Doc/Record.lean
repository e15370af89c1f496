import FleetSnapshot.Doc
import FleetSnapshot.Text.Digits
/-!
Records read from documents. A table names its fields and may hold others; a list gives them by
position and may stop early where the fields left have defaults. A field given twice and a value of
another type are refused, and so is a list that is too long, except where the record takes only the
list's beginning.
-/

namespace FleetSnapshot.Doc

def text? : Doc → Option String
  | .text s => some s
  | _ => none

def bool? : Doc → Option Bool
  | .bool b => some b
  | _ => none

/-- A whole number from 0 up to, and without, the bound. -/
def below? (bound : Nat) : Doc → Option Nat
  | .int n => if 0 ≤ n && n < bound then some n.toNat else none
  | _ => none

def word? (d : Doc) : Option UInt64 := (d.below? UInt64.size).map UInt64.ofNat

def signed? : Doc → Option Int
  | .int n => if -(Text.signBound : Int) ≤ n && n < Text.signBound then some n else none
  | _ => none

def list? : Doc → Option (List Doc)
  | .list ds => some ds
  | _ => none

/-- Texts by name; of two entries of one name the later holds. -/
def texts? : Doc → Option (List (String × String))
  | .table es => es.mapM fun (k, d) => d.text?.map (k, ·)
  | _ => none

inductive Slot where
  | given (d : Doc)
  | absent
  /-- The list ended before the field. -/
  | beyond

def Slot.required {α : Type} (read : Doc → Option α) : Slot → Option α
  | .given d => read d
  | _ => none

def Slot.withDefault {α : Type} (read : Doc → Option α) (fallback : α) : Slot → Option α
  | .given d => read d
  | _ => some fallback

/-- A field that may be null or left out. A list has to reach it. -/
def Slot.optional {α : Type} (read : Doc → Option α) : Slot → Option (Option α)
  | .given .null => some none
  | .given d => (read d).map some
  | .absent => some none
  | .beyond => none

def pick (es : List (String × Doc)) (name : String) : Slot :=
  match es.find? (·.1 == name) with
  | some (_, d) => .given d
  | none => .absent

def noTwice (names : List String) (es : List (String × Doc)) : Bool :=
  names.all fun name => (es.filter (·.1 == name)).length ≤ 1

/-- The fields of a record of these names. A time is a record that has none of them. -/
def record? (names : List String) : Doc → Option (String → Slot)
  | .table es => if noTwice names es then some (pick es) else none
  | .list ds =>
    if ds.length ≤ names.length then
      some fun name => match (names.zip ds).find? (·.1 == name) with
        | some (_, d) => .given d
        | none => .beyond
    else none
  | .time => some fun _ => .absent
  | _ => none

/-- The fields of a record of these names, of a list the beginning. -/
def leading? (names : List String) : Doc → Option (String → Slot)
  | .list ds => (Doc.list (ds.take names.length)).record? names
  | d => d.record? names

end FleetSnapshot.Doc
