import FleetSnapshot.Audit.Store
import FleetSnapshot.Order
/-!
The operations of the audit store. Rows are never taken away: cleanup sets a flag, and a record that
is protected never gets it.
-/

namespace FleetSnapshot.Audit

structure Filter where
  includeDeleted : Bool := false
  onlyPersisted : Bool := false
  deriving DecidableEq, Repr, Inhabited

def Filter.admits (f : Filter) (deleted persisted : Bool) : Bool :=
  (f.includeDeleted || !deleted) && (!f.onlyPersisted || persisted)

def maxPage : Nat := 20

/-- How many rows stand before a page, and how many may stand on it. -/
def window (page limit : Nat) : Nat × Nat :=
  let limit := max 1 (min limit maxPage)
  ((max page 1 - 1) * limit, limit)

def pageOf {α : Type} (page limit : Nat) (rows : List α) : List α :=
  let (offset, limit) := window page limit
  (rows.drop offset).take limit

/-- Stamps and then numbers, the latest first. -/
def latestFirst (s : Stamp) (id : Int) (s' : Stamp) (id' : Int) : Bool :=
  if s = s' then decide (id' ≤ id) else Stamp.le s' s

def AttemptRow.latestFirst (r r' : AttemptRow) : Bool :=
  Audit.latestFirst r.startTime r.id r'.startTime r'.id

def UploadRow.latestFirst (r r' : UploadRow) : Bool :=
  Audit.latestFirst r.startTime r.id r'.startTime r'.id

/-- The greatest height first, of equal ones the latest attempt. -/
def AttemptRow.highestFirst (r r' : AttemptRow) : Bool :=
  if r.height = r'.height then decide (r'.id ≤ r.id) else decide (r'.height ≤ r.height)

open Query

def createAttempt (height : UInt64) (dryRun : Bool) : Query Attempt := do
  let startTime ← now
  let id ← insertAttempt {
    id := 0, height := height.toInt64, startTime := .ofInstant startTime, endTime := none
    status := Progress.running.text, errorMessage := none, dryRun, deleted := false
    persisted := false }
  return {
    id, height, startTime, endTime := none, status := .running, errorMessage := none, dryRun
    deleted := false, persisted := false, uploads := [] }

/-- Ends an attempt that is still running; of any other nothing changes. -/
def finishAttempt (id : Int) (status : Progress) (message : Option String) : Query Unit := do
  let endTime ← now
  let _ ← updateAttempts ["status", "end_time", "error_message"]
    (fun r => r.id == id && r.status == Progress.running.text)
    fun r => { r with
      status := status.text, endTime := some (.ofInstant endTime), errorMessage := message }

def createUpload (attemptId : Int) (target uploadPrefix : String) (dryRun : Bool) : Query Upload := do
  let startTime ← now
  let id ← insertUpload {
    id := 0, attemptId, target, uploadPrefix, startTime := .ofInstant startTime, endTime := none
    status := Progress.running.text, errorMessage := none, dryRun, deleted := false
    persisted := false }
  return {
    id, attemptId, target, uploadPrefix, startTime, endTime := none, status := .running
    errorMessage := none, dryRun, deleted := false, persisted := false }

def finishUpload (id : Int) (status : Progress) (message : Option String) : Query Unit := do
  let endTime ← now
  let _ ← updateUploads ["status", "end_time", "error_message"]
    (fun r => r.id == id && r.status == Progress.running.text)
    fun r => { r with
      status := status.text, endTime := some (.ofInstant endTime), errorMessage := message }

def getUpload (id : Int) : Query (Option Upload) := do
  match (← selectUploads).find? (·.id == id) with
  | some r => return some (← ofRead r.read)
  | none => return none

/-- The uploads of an attempt, the earliest first. -/
def uploadsOf (attemptId : Int) : Query (List Upload) := do
  let rows ← selectUploads
  let rows := Order.sort (fun r r' => r'.latestFirst r) (rows.filter (·.attemptId == attemptId))
  ofRead (rows.mapM UploadRow.read)

def attemptWithUploads (r : AttemptRow) : Query Attempt := do
  let a ← ofRead r.read
  return { a with uploads := ← uploadsOf a.id }

def getAttempt (id : Int) : Query (Option Attempt) := do
  match (← selectAttempts).find? (·.id == id) with
  | some r => return some (← attemptWithUploads r)
  | none => return none

def mostRecent : Query (Option Attempt) := do
  match Order.sort AttemptRow.latestFirst (← selectAttempts) with
  | r :: _ => return some (← attemptWithUploads r)
  | [] => return none

def listAttempts (page limit : Nat) (filter : Filter) : Query (List Attempt) := do
  let rows ← selectAttempts
  let rows := rows.filter fun r => filter.admits r.deleted r.persisted
  (pageOf page limit (Order.sort AttemptRow.latestFirst rows)).mapM attemptWithUploads

def uploadsByTarget (target : String) (page limit : Nat) (filter : Filter) : Query (List Upload) := do
  let rows ← selectUploads
  let rows := rows.filter fun r => r.target == target && filter.admits r.deleted r.persisted
  ofRead ((pageOf page limit (Order.sort UploadRow.latestFirst rows)).mapM UploadRow.read)

/-- The successful attempts that have not been deleted, the highest first. -/
def successful : Query (List Attempt) := do
  let rows ← selectAttempts
  let rows := rows.filter fun r => r.status == Progress.success.text && !r.deleted
  (Order.sort AttemptRow.highestFirst rows).mapM attemptWithUploads

/-- Sets the deleted flag of an upload whose data is about to be removed. False, and no change, if
its data has to be left alone. -/
def claim (id : Int) : Query Bool := do
  let n ← updateUploads ["deleted"]
    (fun r => r.id == id && !r.persisted && !r.deleted && r.status == Progress.success.text)
    fun r => { r with deleted := true }
  return n == 1

/-- Takes a claim back. -/
def release (id : Int) : Query Unit := do
  let _ ← updateUploads ["deleted"] (fun r => r.id == id) fun r => { r with deleted := false }

def markDeleted (id : Int) : Query Unit := transaction do
  let n ← updateAttempts ["deleted"] (fun r => r.id == id && !r.persisted)
    fun r => { r with deleted := true }
  if n == 0 then
    match (← selectAttempts).find? (·.id == id) with
    | some r => if r.persisted then throw (.kept s!"attempt {id}") else return .rollback ()
    | none => return .rollback ()
  else
    let _ ← updateUploads ["deleted"] (fun r => r.attemptId == id && !r.persisted)
      fun r => { r with deleted := true }
    return .commit ()

/-- Sets or clears the protection of an attempt and of its uploads. False if there is no such
attempt. What has been deleted is not protected any more. -/
def persistAttempt (id : Int) (value : Bool) : Query Bool := transaction do
  let n ← updateAttempts ["persisted"] (fun r => r.id == id && (!r.deleted || !value))
    fun r => { r with persisted := value }
  if n == 0 then
    return .rollback ((← selectAttempts).any (·.id == id))
  else
    let _ ← updateUploads ["persisted"] (fun r => r.attemptId == id && (!r.deleted || !value))
      fun r => { r with persisted := value }
    return .commit true

def persistUpload (id : Int) (value : Bool) : Query Bool := do
  let n ← updateUploads ["persisted"] (fun r => r.id == id && (!r.deleted || !value))
    fun r => { r with persisted := value }
  if n > 0 then return true
  return (← getUpload id).isSome

/-- A call on the audit store, with the type of its result. -/
inductive Op : Type → Type where
  | createAttempt (height : UInt64) (dryRun : Bool) : Op Attempt
  | finishAttempt (id : Int) (status : Progress) (message : Option String) : Op Unit
  | createUpload (attemptId : Int) (target uploadPrefix : String) (dryRun : Bool) : Op Upload
  | finishUpload (id : Int) (status : Progress) (message : Option String) : Op Unit
  | getAttempt (id : Int) : Op (Option Attempt)
  | getUpload (id : Int) : Op (Option Upload)
  | uploadsOf (attemptId : Int) : Op (List Upload)
  | mostRecent : Op (Option Attempt)
  | listAttempts (page limit : Nat) (filter : Filter) : Op (List Attempt)
  | uploadsByTarget (target : String) (page limit : Nat) (filter : Filter) : Op (List Upload)
  | successful : Op (List Attempt)
  | claim (id : Int) : Op Bool
  | release (id : Int) : Op Unit
  | markDeleted (id : Int) : Op Unit
  | persistAttempt (id : Int) (value : Bool) : Op Bool
  | persistUpload (id : Int) (value : Bool) : Op Bool

def Op.query {α : Type} : Op α → Query α
  | .createAttempt height dryRun => Audit.createAttempt height dryRun
  | .finishAttempt id status message => Audit.finishAttempt id status message
  | .createUpload attemptId target pre dryRun => Audit.createUpload attemptId target pre dryRun
  | .finishUpload id status message => Audit.finishUpload id status message
  | .getAttempt id => Audit.getAttempt id
  | .getUpload id => Audit.getUpload id
  | .uploadsOf attemptId => Audit.uploadsOf attemptId
  | .mostRecent => Audit.mostRecent
  | .listAttempts page limit filter => Audit.listAttempts page limit filter
  | .uploadsByTarget target page limit filter => Audit.uploadsByTarget target page limit filter
  | .successful => Audit.successful
  | .claim id => Audit.claim id
  | .release id => Audit.release id
  | .markDeleted id => Audit.markDeleted id
  | .persistAttempt id value => Audit.persistAttempt id value
  | .persistUpload id value => Audit.persistUpload id value

def Op.run {α : Type} (op : Op α) (s : Store) : Except Error α × Store := op.query s

end FleetSnapshot.Audit
