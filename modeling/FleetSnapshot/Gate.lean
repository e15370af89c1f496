import FleetSnapshot.Doc
import FleetSnapshot.Error
import FleetSnapshot.Instant
/-!
The status of the fleet that everybody sees, and the gate that lets one attempt in at a time.
-/

namespace FleetSnapshot

inductive Phase where
  | idle
  | preparing
  | uploading
  | restoring
  | success
  | failed
  deriving DecidableEq, Repr, Inhabited

namespace Phase

def text : Phase → String
  | .idle => "idle"
  | .preparing => "preparing"
  | .uploading => "uploading"
  | .restoring => "restoring"
  | .success => "success"
  | .failed => "failed"

def all : List Phase := [.idle, .preparing, .uploading, .restoring, .success, .failed]

def ofText? (s : String) : Option Phase := all.find? (·.text == s)

/-- What is left of a phase when its attempt is over: one that was not finished has failed. -/
def settled : Phase → Phase
  | .preparing | .uploading | .restoring => .failed
  | p => p

end Phase

structure Gate where
  blockInterval : UInt64
  /-- The last height that the whole fleet agreed on. -/
  processedHeight : UInt64 := 0
  nextHeight : UInt64 := 0
  inProgress : Bool := false
  phase : Phase := .idle
  startedAt : Option Instant := none
  deriving DecidableEq, Repr, Inhabited

namespace Gate

def enter (g : Gate) (now : Instant) : Except Error Gate :=
  if g.inProgress then .error .busy
  else .ok { g with inProgress := true, phase := .idle, startedAt := some now }

/-- The outcome stays visible until the next attempt comes in. -/
def leave (g : Gate) : Gate :=
  { g with inProgress := false, startedAt := none, phase := g.phase.settled }

def agreed (g : Gate) (height next : UInt64) : Gate :=
  { g with processedHeight := height, nextHeight := next }

def toDoc (g : Gate) : Doc :=
  .table [
    ("blockInterval", .int g.blockInterval.toNat),
    ("processedBlockHeight", .int g.processedHeight.toNat),
    ("nextPeriodSnapshotBlockHeight", .int g.nextHeight.toNat),
    ("snapshotInProgress", .bool g.inProgress),
    ("phase", .text g.phase.text),
    ("attemptStartedAt", g.startedAt.elim .null fun t => .text t.toText)]

end Gate

end FleetSnapshot
