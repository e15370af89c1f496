import FleetSnapshot.Instant
/-!
What is on record about snapshots: attempts over the whole fleet, and the upload of each node in
them.
-/

namespace FleetSnapshot.Audit

inductive Progress where
  | running
  | success
  | failed
  deriving DecidableEq, Repr, Inhabited

namespace Progress

def text : Progress → String
  | .running => "running"
  | .success => "success"
  | .failed => "failed"

def ofText? : String → Option Progress
  | "running" => some .running
  | "success" => some .success
  | "failed" => some .failed
  | _ => none

theorem ofText?_text (p : Progress) : ofText? p.text = some p := by cases p <;> rfl

end Progress

structure Upload where
  id : Int
  attemptId : Int
  target : String
  /-- The directory of the bucket that holds the data. -/
  uploadPrefix : String
  startTime : Instant
  endTime : Option Instant
  status : Progress
  errorMessage : Option String
  dryRun : Bool
  deleted : Bool
  persisted : Bool
  deriving DecidableEq, Repr, Inhabited

/-- Complete, unprotected and still there: its data may be removed. -/
def Upload.eligible (u : Upload) : Bool := u.status == .success && !u.persisted && !u.deleted

structure Attempt where
  id : Int
  height : UInt64
  startTime : Instant
  endTime : Option Instant
  status : Progress
  errorMessage : Option String
  dryRun : Bool
  deleted : Bool
  persisted : Bool
  uploads : List Upload
  deriving DecidableEq, Repr, Inhabited

end FleetSnapshot.Audit
