import FleetSnapshot.Audit
/-!
What others do to the database of the audit store, below its operations.
-/

namespace FleetSnapshot.Audit

open Query

def setStartTime (table : TableName) (id : Int) (text : String) : Query Unit := do
  let stamp := Stamp.ofText text
  let _ ← match table with
    | .attempts => updateAttempts ["start_time"] (·.id == id) ({ · with startTime := stamp })
    | .uploads => updateUploads ["start_time"] (·.id == id) ({ · with startTime := stamp })

def setStatus (table : TableName) (id : Int) (text : String) : Query Unit := do
  let _ ← match table with
    | .attempts => updateAttempts ["status"] (·.id == id) ({ · with status := text })
    | .uploads => updateUploads ["status"] (·.id == id) ({ · with status := text })

/-- Takes a row away and leaves alone what belongs to it. -/
def removeRow (table : TableName) (id : Int) : Query Unit := statement do
  match table with
  | .attempts => setAttempts ((← attemptRows).filter (·.id != id))
  | .uploads => setUploads ((← uploadRows).filter (·.id != id))

def dropTable (table : TableName) : Query Unit := modify fun s =>
  { s with
    tables := match table with
      | .attempts => { s.tables with attempts := none }
      | .uploads => { s.tables with uploads := none }
    triggers := s.triggers.filter (·.table != table) }

def addTrigger (t : Trigger) : Query Unit := modify fun s => { s with triggers := t :: s.triggers }

def dropTrigger (name : String) : Query Unit :=
  modify fun s => { s with triggers := s.triggers.filter (·.name != name) }

/-- An attempt as it would stand after a snapshot: it and its uploads end alike. Gives its number
and theirs. -/
def seed (height : UInt64) (aliases : List String) (status : Progress) (message : Option String)
    (dryRun : Bool) : Query (Int × List Int) := do
  let a ← createAttempt height dryRun
  let ids ← aliases.mapM fun target => do
    let u ← createUpload a.id target s!"p/{target}/{height.toNat}" dryRun
    finishUpload u.id status message
    return u.id
  finishAttempt a.id status message
  return (a.id, ids)

end FleetSnapshot.Audit
