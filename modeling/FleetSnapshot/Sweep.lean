import FleetSnapshot.Bucket
import FleetSnapshot.Config
import FleetSnapshot.Cron
import FleetSnapshot.Plan
/-!
Cleaning up. The newest attempts are spared and so is all that is protected; of the others the data
is removed upload by upload, and an attempt with no data left is marked deleted. A row is claimed
before its data is touched.
-/

namespace FleetSnapshot.Sweep

structure Report where
  attemptsDeleted : Nat := 0
  uploadsDeleted : Nat := 0
  firstError : Option Error := none
  deriving DecidableEq, Repr, Inhabited

def Report.remember (r : Report) (e : Error) : Report :=
  { r with firstError := r.firstError.or (some e) }

inductive Removal where
  | deleted
  | skipped
  | rehearsed
  deriving DecidableEq, Repr

structure Broom where
  dryRun : Bool
  bucketName : String
  deriving DecidableEq, Repr, Inhabited

/-- Only successful uploads without protection may lose their data. -/
def ensureDeletable (u : Audit.Upload) : Except Error Unit :=
  if u.persisted then .error (.kept s!"target {u.id} ({u.target})")
  else if u.status ≠ .success then
    .error (.storage s!"target {u.id} has status {u.status.text}, only successful uploads are deleted")
  else .ok ()

def current (id : Int) : Job Audit.Upload := do
  match ← Job.audit (.getUpload id) with
  | some u => return u
  | none => Job.fail (.store .rowMissing)

/-- Removes the data of a claimed upload. A failure takes the claim back. -/
def removeClaimed (u : Audit.Upload) : Job Removal := do
  Job.act (.openRemoval u.id u.uploadPrefix)
  match ← Job.act (.closeRemoval u.id u.uploadPrefix) with
  | .ok () => return .deleted
  | .error e => do
    let _ ← Job.act (.audit (.release u.id))
    Job.fail e

def removeUpload (b : Broom) (u : Audit.Upload) : Job Removal := do
  if b.bucketName.isEmpty then Job.fail (.storage "bucket name not configured in S3 settings")
  if b.dryRun then
    let now ← current u.id
    if now.persisted || now.deleted then return .skipped
    Job.ofExcept (ensureDeletable now)
    return .rehearsed
  if ← Job.audit (.claim u.id) then removeClaimed u
  else
    let now ← current u.id
    if now.persisted || now.deleted then return .skipped
    Job.ofExcept (ensureDeletable now)
    Job.fail (.storage s!"could not claim target {u.id} for deletion")

/-- The uploads one after the other. Gives the number of those that failed. -/
def removeUploads (b : Broom) : List Audit.Upload → Report → Job (Report × Nat)
  | [], r => return (r, 0)
  | u :: us, r => do
    match ← (removeUpload b u).outcome with
    | .ok .deleted => removeUploads b us { r with uploadsDeleted := r.uploadsDeleted + 1 }
    | .ok _ => removeUploads b us r
    | .error e => do
      let (r, failures) ← removeUploads b us (r.remember e)
      return (r, failures + 1)

/-- Marks an attempt without data as deleted, unless it has been protected since. -/
def markAttempt (id : Int) (r : Report) : Job Report := do
  match ← Job.act (.audit (.getAttempt id)) with
  | .error e => return r.remember e
  | .ok now =>
    if now.any (·.persisted) then return r
    match ← Job.act (.audit (.markDeleted id)) with
    | .error e => return r.remember e
    | .ok () => return { r with attemptsDeleted := r.attemptsDeleted + 1 }

def sweepAttempt (b : Broom) (a : Audit.Attempt) (r : Report) : Job Report := do
  let (r, failures) ← removeUploads b (a.uploads.filter (·.eligible)) r
  if failures > 0 || b.dryRun then return r
  markAttempt a.id r

def sweepAll (b : Broom) : List Audit.Attempt → Report → Job Report
  | [], r => return r
  | a :: as, r => do sweepAll b as (← sweepAttempt b a r)

/-- The attempts that may go: unprotected, and not among the first `keep` of those. -/
def surplus (keep : Nat) (as : List Audit.Attempt) : List Audit.Attempt :=
  (as.filter (!·.persisted)).drop keep

/-- One cleanup. Nothing comes out if there are not more attempts than are spared. -/
def cycle (b : Broom) (keep : Nat) : Job (Option Report) := do
  match surplus keep (← Job.audit .successful) with
  | [] => return none
  | as => return some (← sweepAll b as {})

def lastWords : Except Error (Option Report) → String
  | .ok (some r) =>
    s!"Snapshot cleanup finished: {r.attemptsDeleted} attempts and {r.uploadsDeleted} targets deleted"
  | .ok none => "Not enough non-persisted snapshots to clean up"
  | .error e => s!"Failed to cleanup snapshots: {e.message}"

inductive Rhythm where
  | never
  | interval (seconds : Nat)
  | schedule (cron : String)
  deriving DecidableEq, Repr

def rhythm (c : Config.Cleanup) : Except String Rhythm :=
  if !c.enabled then .ok .never
  else
    match c.schedule with
    | none => .ok (.interval c.interval)
    | some s =>
      match Cron.validate s with
      | .error f => .error s!"Invalid 6-field cron schedule '{s}': {f.message}"
      | .ok () =>
        if Cron.runs s then .ok (.schedule s)
        else .error s!"Failed to create cleanup job for '{s}': ParseSchedule"

end FleetSnapshot.Sweep
