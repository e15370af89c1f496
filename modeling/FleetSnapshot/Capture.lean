import FleetSnapshot.Agreement
import FleetSnapshot.Bucket
/-!
One snapshot of the whole fleet. The nodes are brought to rest at one height, every node uploads its
data, and the nodes are started again, whatever became of the uploads. A rehearsal only writes the
records.
-/

namespace FleetSnapshot.Capture

structure Plant where
  fleet : List Node
  dryRun : Bool
  /-- In front of the keys of the whole deployment. -/
  rootPrefix : String
  deriving DecidableEq, Repr, Inhabited

/-- The object that names the height of the last complete snapshot. -/
def markerKey (p : Plant) : String := p.rootPrefix ++ "latest"

def uploadPrefix (n : Node) (height : UInt64) : String :=
  n.target.uploadPrefix ++ "/" ++ toString height.toNat

/-- A step of every node, over at the first that fails. -/
def across (fleet : List Node) (call : Node → Job Unit) : Job Unit := do
  let _ ← Job.upToFailure (fleet.map call)

def dumpAll (n : Node) : Job Unit := do
  n.dump Node.latestBlockRequest (n.target.dataDir ++ "/" ++ Node.latestBlockFile)
  n.dump Node.clientVersionRequest (n.target.dataDir ++ "/" ++ Node.clientVersionFile)

def prepare (fleet : List Node) : Job Unit := do
  across fleet fun n => n.stop n.target.containers.sidecar true
  let _ ← Agreement.verifyHeights fleet
  across fleet dumpAll
  across fleet fun n => n.stop n.target.containers.execution false

def restartConsensus (n : Node) : Job Unit := do
  n.stop n.target.containers.consensus false
  n.start n.target.containers.consensus

def restore (fleet : List Node) : Job Unit := do
  across fleet fun n => n.start n.target.containers.sidecar
  across fleet fun n => n.start n.target.containers.execution
  across fleet restartConsensus

def statusOf : Except Error Unit → Audit.Progress × Option String
  | .ok () => (.success, none)
  | .error e => (.failed, some e.message)

/-- Uploads the data of a node and keeps a record of it. Gives the alias if it failed. -/
def uploadOne (dryRun : Bool) (attemptId : Int) (height : UInt64) (n : Node) : Job (Option String) := do
  match ← Job.act (.audit (.createUpload attemptId n.target.name (uploadPrefix n height) dryRun)) with
  | .error _ => return some n.target.name
  | .ok record => do
    let outcome ←
      if dryRun then pure (.ok ())
      else (n.upload n.target.dataDir n.target.uploadPrefix height).outcome
    let (status, message) := statusOf outcome
    let _ ← Job.act (.audit (.finishUpload record.id status message))
    match outcome with
    | .ok () => return none
    | .error _ => return some n.target.name

/-- The aliases of the nodes whose upload failed. -/
def uploadAll (p : Plant) (attemptId : Int) (height : UInt64) : Job (List String) := do
  return (← Job.all (p.fleet.map (uploadOne p.dryRun attemptId height))).filterMap id

def writeMarker (p : Plant) (height : UInt64) : Job Unit := do
  Job.ofExcept (← Job.act (.put (markerKey p) (toString height.toNat)))

/-- The marker moves only when every upload of a real attempt is complete. -/
def drive (p : Plant) (attemptId : Int) (height : UInt64) : Job Unit := do
  if !p.dryRun then
    Job.act (.phase .preparing)
    prepare p.fleet
  Job.act (.phase .uploading)
  let failed ← uploadAll p attemptId height
  let marker ←
    if failed.isEmpty && !p.dryRun then (writeMarker p height).outcome else pure (.ok ())
  if !p.dryRun then
    Job.act (.phase .restoring)
    restore p.fleet
  if !failed.isEmpty then Job.fail (.uploadsFailed failed)
  Job.ofExcept marker

/-- Drives an attempt that is on record and records what came of it. -/
def record (p : Plant) (attemptId : Int) (height : UInt64) : Job Audit.Attempt := do
  let outcome ← Job.outcome do
    drive p attemptId height
    Job.audit (.finishAttempt attemptId .success none)
  match outcome with
  | .ok () => do
    Job.act (.phase .success)
    match ← Job.audit (.getAttempt attemptId) with
    | some a => return a
    | none => Job.fail (.store .rowMissing)
  | .error e => do
    Job.act (.phase .failed)
    let _ ← Job.act (.audit (.finishAttempt attemptId .failed (some e.message)))
    Job.fail e

/-- Leaves the gate however the job ends. -/
def leaving {α : Type} (j : Job α) : Job α := ExceptT.mk do
  let r ← j.run
  Plan.act .leave
  return r

/-- One attempt at a height, if no other is under way. -/
def run (p : Plant) (height : UInt64) : Job Audit.Attempt := do
  Job.ofExcept (← Job.act .enter)
  leaving do
    let a ← Job.audit (.createAttempt height p.dryRun)
    record p a.id height

end FleetSnapshot.Capture
