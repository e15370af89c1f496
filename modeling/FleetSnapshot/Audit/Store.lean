import FleetSnapshot.Audit.Table
/-!
The audit store and single statements on it. A statement may be refused, and then it changes
nothing; a transaction that does not reach its end leaves the tables as they were.
-/

namespace FleetSnapshot.Audit

structure Tables where
  /-- None once the table has been dropped. -/
  attempts : Option (List AttemptRow) := some []
  uploads : Option (List UploadRow) := some []
  /-- The greatest numbers that were ever given. -/
  lastAttempt : Int := 0
  lastUpload : Int := 0
  deriving DecidableEq, Repr, Inhabited

structure Store where
  tables : Tables := {}
  /-- The number of the row inserted last, in any table. A fresh store has recorded three steps of
  its schema. -/
  lastRow : Int := 3
  /-- The newest first. -/
  triggers : List Trigger := []
  /-- What the coming statements are refused with, if they are. -/
  refusals : List (Option StoreFault) := []
  clock : Nat → Instant
  /-- How often the clock has been read. -/
  ticks : Nat := 0

abbrev Query := ExceptT Error (StateM Store)

namespace Query

def raise {α : Type} (f : StoreFault) : Query α := throw (.store f)

def ofRead {α : Type} : Except StoreFault α → Query α
  | .ok a => pure a
  | .error f => raise f

/-- Takes the next refusal off the list. -/
def due? : Query (Option StoreFault) := do
  match (← get).refusals with
  | [] => return none
  | r :: rest => do
    modify fun s => { s with refusals := rest }
    return r

/-- One statement: refused if a refusal is due. -/
def statement {α : Type} (body : Query α) : Query α := do
  match ← due? with
  | some f => raise f
  | none => body

def now : Query Instant := do
  let s ← get
  set { s with ticks := s.ticks + 1 }
  return s.clock s.ticks

def missingTable {α : Type} (table : TableName) : Query α :=
  raise (.engine 1 s!"no such table: {table.text}")

def attemptRows : Query (List AttemptRow) := do
  match (← get).tables.attempts with
  | some rows => return rows
  | none => missingTable .attempts

def uploadRows : Query (List UploadRow) := do
  match (← get).tables.uploads with
  | some rows => return rows
  | none => missingTable .uploads

def setAttempts (rows : List AttemptRow) : Query Unit :=
  modify fun s => { s with tables := { s.tables with attempts := some rows } }

def setUploads (rows : List UploadRow) : Query Unit :=
  modify fun s => { s with tables := { s.tables with uploads := some rows } }

def selectAttempts : Query (List AttemptRow) := statement attemptRows

def selectUploads : Query (List UploadRow) := statement uploadRows

/-- Updates these columns and gives the number of rows changed. -/
def updateAttempts (columns : List String) (selects : AttemptRow → Bool)
    (change : AttemptRow → AttemptRow) : Query Nat := statement do
  let rows ← attemptRows
  let triggers := (← get).triggers
  let (rows, n) ← ofRead
    (updateRows (fun r => judge triggers .attempts (.update columns) r.shows) selects change rows)
  setAttempts rows
  return n

def updateUploads (columns : List String) (selects : UploadRow → Bool)
    (change : UploadRow → UploadRow) : Query Nat := statement do
  let rows ← uploadRows
  let triggers := (← get).triggers
  let (rows, n) ← ofRead
    (updateRows (fun r => judge triggers .uploads (.update columns) r.shows) selects change rows)
  setUploads rows
  return n

/-- Inserts a row under the next number. Gives the number of the row inserted last, which is another
one if a trigger passes over this row. -/
def insertAttempt (row : AttemptRow) : Query Int := statement do
  let rows ← attemptRows
  match judge (← get).triggers .attempts .insertion { row with id := -1 }.shows with
  | .abort message => raise (.engine 1811 message)
  | .skip => return (← get).lastRow
  | .pass => do
    let id := (← get).tables.lastAttempt + 1
    setAttempts (rows ++ [{ row with id }])
    modify fun s => { s with lastRow := id, tables := { s.tables with lastAttempt := id } }
    return id

/-- As for attempts, but the attempt it belongs to has to be there. -/
def insertUpload (row : UploadRow) : Query Int := statement do
  let rows ← uploadRows
  let some attempts := (← get).tables.attempts
    | raise (.engine 1 s!"no such table: main.{TableName.attempts.text}")
  match judge (← get).triggers .uploads .insertion { row with id := -1 }.shows with
  | .abort message => raise (.engine 1811 message)
  | .skip => return (← get).lastRow
  | .pass => do
    let id := (← get).tables.lastUpload + 1
    modify fun s => { s with lastRow := id }
    if attempts.any (·.id == row.attemptId) then
      setUploads (rows ++ [{ row with id }])
      modify fun s => { s with tables := { s.tables with lastUpload := id } }
      return id
    else raise (.engine 787 "FOREIGN KEY constraint failed")

/-- What a transaction comes to: its result, and whether its changes are to stay. -/
inductive Ending (α : Type) where
  | commit (a : α)
  | rollback (a : α)

def restore (before : Tables) : Query Unit := modify fun s => { s with tables := before }

/-- The changes of all the statements or of none: a failure of any of them brings the tables back. -/
def transaction {α : Type} (body : Query (Ending α)) : Query α := do
  statement (pure ())
  let before := (← get).tables
  try
    match ← body with
    | .commit a => do
      statement (pure ())
      return a
    | .rollback a => do
      restore before
      return a
  catch e =>
    restore before
    throw e

end Query

end FleetSnapshot.Audit
