import FleetSnapshot.Audit.Table
import FleetSnapshot.Order
/-!
The tables of the audit store as a database may have them: without some of the columns, or with
columns and rows of its own. Tables are made where there are none. Then columns are added in steps,
and each step either takes place and is entered in a ledger or leaves no trace.
-/

namespace FleetSnapshot.Audit

namespace Schema

inductive Cell where
  | null
  | int (n : Int)
  | text (s : String)
  deriving DecidableEq, Repr, Inhabited

structure Column where
  name : String
  /-- Whether a row has to bring a value of its own. -/
  required : Bool := false
  /-- Whether no two rows may show the same value. -/
  unique : Bool := false
  deriving DecidableEq, Repr, Inhabited

structure Table where
  columns : List Column
  rows : List (List Cell) := []
  deriving DecidableEq, Repr, Inhabited

/-- The numbers and names of the steps taken, in a table that may have more columns. -/
structure Ledger where
  columns : List Column
  entries : List (Int × String) := []
  deriving DecidableEq, Repr, Inhabited

inductive Fault where
  | refused (f : StoreFault)
  | step (name table column : String) (f : StoreFault)
  deriving DecidableEq, Repr

def Fault.message : Fault → String
  | .refused f => f.message
  | .step name table column f => s!"migration {name} failed adding {table}.{column}: {f.message}"

end Schema

structure Schema where
  attempts : Option Schema.Table := none
  uploads : Option Schema.Table := none
  ledger : Option Schema.Ledger := none
  /-- What the coming statements are refused with, if they are. -/
  refusals : List (Option StoreFault) := []
  deriving DecidableEq, Repr, Inhabited

namespace Schema

def table? (s : Schema) : TableName → Option Table
  | .attempts => s.attempts
  | .uploads => s.uploads

def setTable (table : TableName) (t : Table) (s : Schema) : Schema :=
  match table with
  | .attempts => { s with attempts := some t }
  | .uploads => { s with uploads := some t }

/-- Names that differ in case only name the same column. -/
def names (name : String) (c : Column) : Bool := c.name.toLower == name.toLower

abbrev Change := ExceptT StoreFault (StateM Schema)

def due? : Change (Option StoreFault) := do
  match (← get).refusals with
  | [] => return none
  | r :: rest => do
    modify fun s => { s with refusals := rest }
    return r

/-- One statement: refused if a refusal is due. -/
def statement {α : Type} (body : Change α) : Change α := do
  match ← due? with
  | some f => throw f
  | none => body

def engine {α : Type} (text : String) : Change α := throw (.engine 1 text)

/-! ### Tables and indexes -/

def plain (name : String) : Column := { name }

def needed (name : String) : Column := { name, required := true }

def baseColumns : TableName → List Column
  | .attempts =>
    [plain "id", needed "block_height", needed "start_time", plain "end_time", needed "status",
      plain "error_message", plain "dry_run"]
  | .uploads =>
    [plain "id", needed "attempt_id", needed "alias", needed "upload_prefix", needed "start_time",
      plain "end_time", needed "status", plain "error_message", plain "dry_run"]

def ledgerColumns : List Column := [plain "id", needed "name", plain "applied_at"]

def createTable (table : TableName) : Change Unit := statement do
  match (← get).table? table with
  | some _ => return ()
  | none => modify (setTable table { columns := baseColumns table })

def createLedger : Change Unit := statement do
  match (← get).ledger with
  | some _ => return ()
  | none => modify fun s => { s with ledger := some { columns := ledgerColumns } }

/-- An index is only possible on columns that are there. -/
def createIndex (table : TableName) (columns : List String) : Change Unit := statement do
  match (← get).table? table with
  | none => engine s!"no such table: main.{table.text}"
  | some t =>
    match columns.find? fun name => !t.columns.any (names name) with
    | some name => engine s!"no such column: {name}"
    | none => return ()

/-- The tables every database has to have, with their indexes. -/
def prepare : Change Unit := do
  createTable .attempts
  createTable .uploads
  createIndex .attempts ["block_height"]
  createIndex .uploads ["attempt_id"]
  createIndex .uploads ["alias", "start_time"]

/-! ### Steps -/

structure Step where
  id : Int
  name : String
  /-- The flags it adds, all of them unset in the rows that are there. -/
  flags : List (TableName × String)
  deriving DecidableEq, Repr

def steps : List Step := [
  ⟨1, "add_deleted_flags", [(.attempts, "deleted"), (.uploads, "deleted")]⟩,
  ⟨2, "add_attempt_persisted_flag", [(.attempts, "persisted")]⟩,
  ⟨3, "add_target_persisted_flag", [(.uploads, "persisted")]⟩]

/-- Whether the table has a column of exactly this name. -/
def hasColumn (table : TableName) (name : String) : Change Bool := statement do
  return ((← get).table? table).any fun t => t.columns.any (·.name == name)

def Table.addFlag (name : String) (t : Table) : Table where
  columns := t.columns ++ [plain name]
  rows := t.rows.map (· ++ [.int 0])

def addColumn (table : TableName) (name : String) : Change Unit := statement do
  match (← get).table? table with
  | none => engine s!"no such table: {table.text}"
  | some t =>
    if t.columns.any (names name) then engine s!"duplicate column name: {name}"
    else modify (setTable table (t.addFlag name))

/-- Why the ledger takes no entry of this number and name, if it does not. -/
def Ledger.refusal? (id : Int) (name : String) (l : Ledger) : Option StoreFault :=
  match ["id", "name"].find? fun column => !l.columns.any (names column) with
  | some column => some (.engine 1 s!"table migrations has no column named {column}")
  | none =>
    match l.columns.find? fun c => c.required && !names "id" c && !names "name" c with
    | some c => some (.engine 1299 s!"NOT NULL constraint failed: migrations.{c.name}")
    | none =>
      match l.columns.find? fun c => c.unique &&
          (names "id" c && l.entries.any (·.1 == id) || names "name" c && l.entries.any (·.2 == name)) with
      | some c => some (.engine 2067 s!"UNIQUE constraint failed: migrations.{c.name}")
      | none => none

def record (id : Int) (name : String) : Change Unit := statement do
  match (← get).ledger with
  | none => engine "no such table: migrations"
  | some l =>
    match l.refusal? id name with
    | some f => throw f
    | none => modify fun s => { s with ledger := some { l with entries := l.entries ++ [(id, name)] } }

/-- The numbers of the steps taken, in order. -/
def applied : Change (List Int) := statement do
  match (← get).ledger with
  | none => engine "no such table: migrations"
  | some l =>
    if l.columns.any (names "id") then
      return Order.sort (fun a b => decide (a ≤ b)) (l.entries.map (·.1))
    else engine "no such column: id"

/-- The entries of the ledger by their numbers, if it can be read. -/
def entries? (s : Schema) : Option (List (Int × String)) :=
  match s.ledger with
  | none => none
  | some l =>
    if l.columns.any (names "id") && l.columns.any (names "name") then
      some (Order.sort (fun a b => decide (a.1 ≤ b.1)) l.entries)
    else none

abbrev Upgrade := ExceptT Fault (StateM Schema)

def lift {α : Type} (c : Change α) : Upgrade α := fun s =>
  match c s with
  | (.ok a, s) => (.ok a, s)
  | (.error f, s) => (.error (.refused f), s)

def addFlag (step : Step) (table : TableName) (name : String) : Upgrade Unit := do
  if ← lift (hasColumn table name) then return ()
  else fun s =>
    match addColumn table name s with
    | (.ok (), s) => (.ok (), s)
    | (.error f, s) => (.error (.step step.name table.text name f), s)

/-- The tables as they were, whatever statements have been made since. -/
def restore (before s : Schema) : Schema := { before with refusals := s.refusals }

/-- All that belongs to a step, or nothing of it. -/
def Step.take (step : Step) : Upgrade Unit := do
  lift (statement (pure ()))
  let before ← get
  try
    step.flags.forM fun (table, name) => addFlag step table name
    lift (record step.id step.name)
    lift (statement (pure ()))
  catch f =>
    modify (restore before)
    throw f

/-- Takes every step that the ledger does not have, in order, up to the first that fails. -/
def upgrade : Upgrade Unit := do
  lift createLedger
  let done ← lift applied
  (steps.filter fun step => step.id ∉ done).forM Step.take

/-- Brings whatever is found up to what the audit store needs. -/
def settle : Upgrade Unit := do
  lift prepare
  upgrade

end Schema

end FleetSnapshot.Audit
