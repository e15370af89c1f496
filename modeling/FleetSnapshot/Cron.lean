import FleetSnapshot.Text.Blank
import FleetSnapshot.Text.Digits
import FleetSnapshot.Text.Search
/-!
Schedules of six fields, from seconds to the day of the week. A field is a star, a question mark, a
star with a step, or a list of numbers and ranges within the bounds of the field.
-/

namespace FleetSnapshot.Cron

structure Field where
  name : String
  low : Nat
  high : Nat
  deriving DecidableEq, Repr

def fields : List Field :=
  [⟨"second", 0, 59⟩, ⟨"minute", 0, 59⟩, ⟨"hour", 0, 23⟩, ⟨"day", 1, 31⟩, ⟨"month", 1, 12⟩,
   ⟨"dayofweek", 0, 7⟩]

inductive Fault where
  | fieldCount (count : Nat) (schedule : String)
  | stepInvalid (field : String) (text : List Char)
  | stepZero (field : String)
  | valueInvalid (field : String) (text : List Char)
  | outOfBounds (field : Field) (value : Nat)
  | reversed (field : String) (first last : Nat)
  deriving DecidableEq, Repr

def Fault.message : Fault → String
  | .fieldCount n s =>
    "tokio-cron-scheduler requires exactly 6 fields: second minute hour day month dayofweek. " ++
      s!"Got {n} fields: '{s}'"
  | .stepInvalid name cs => s!"Invalid {name} step value: {String.ofList cs}"
  | .stepZero name => s!"{name} step value cannot be 0"
  | .valueInvalid name cs => s!"Invalid {name} value: {String.ofList cs}"
  | .outOfBounds f n => s!"{f.name} value {n} is outside valid range {f.low}-{f.high}"
  | .reversed name a b => s!"{name} range {a}-{b} is reversed"

def Field.value (f : Field) (cs : List Char) : Except Fault Nat :=
  match Text.word? 10 UInt32.size cs with
  | none => .error (.valueInvalid f.name cs)
  | some n => if f.low ≤ n && n ≤ f.high then .ok n else .error (.outOfBounds f n)

/-- An item of a list: a number, or two of them around the first dash. -/
def Field.item (f : Field) (cs : List Char) : Except Fault Unit :=
  match Text.cut? ['-'] cs with
  | none => do
    let _ ← f.value cs
  | some (first, last) => do
    let a ← f.value first
    let b ← f.value last
    if a > b then throw (.reversed f.name a b)

def Field.items (f : Field) : List (List Char) → Except Fault Unit
  | [] => .ok ()
  | cs :: rest => do
    f.item cs
    f.items rest

def Field.check (f : Field) (cs : List Char) : Except Fault Unit :=
  if cs = ['*'] || cs = ['?'] then .ok ()
  else
    match Text.strip? ['*', '/'] cs with
    | some step =>
      match Text.word? 10 UInt32.size step with
      | none => .error (.stepInvalid f.name step)
      | some 0 => .error (.stepZero f.name)
      | some (_ + 1) => .ok ()
    | none => f.items (Text.fields ',' cs)

def checkAll : List Field → List (List Char) → Except Fault Unit
  | f :: fs, w :: ws => do
    f.check w
    checkAll fs ws
  | _, _ => .ok ()

def validate (schedule : String) : Except Fault Unit :=
  let ws := Text.words schedule.toList
  if ws.length = fields.length then checkAll fields ws
  else .error (.fieldCount ws.length schedule)

/-- Whether the runner of schedules takes a field that has been validated: no signs, question marks
for days only, and steps below 256. -/
def Field.runs (f : Field) (cs : List Char) : Bool :=
  !cs.contains '+' && (cs != ['?'] || f.name == "day" || f.name == "dayofweek") &&
    match Text.strip? ['*', '/'] cs with
    | some step => (Text.numeral? 10 step).any (· < 256)
    | none => true

def runs (schedule : String) : Bool :=
  (fields.zip (Text.words schedule.toList)).all fun (f, w) => f.runs w

end FleetSnapshot.Cron
