import FleetSnapshot.Capture
/-!
Watching the fleet. Whenever it is in step at a multiple of the block interval, or the last attempt
is too far behind, a snapshot is taken.
-/

namespace FleetSnapshot.Watch

/-- How far it is to the next multiple of the interval, from a multiple zero. -/
def blocksLeft (height interval : UInt64) : UInt64 :=
  if interval = 0 || height % interval = 0 then 0 else interval - height % interval

def greatestWord : UInt64 := UInt64.ofNat (UInt64.size - 1)

/-- Addition up to the greatest word. -/
def addUpTo (a b : UInt64) : UInt64 := if a > greatestWord - b then greatestWord else a + b

def isStale (interval height : UInt64) : Except Error (Option Audit.Attempt) → Bool
  | .ok (some last) => height > addUpTo last.height interval
  | _ => false

inductive Tick where
  | notSynced
  | waiting (height left : UInt64)
  | triggered (height : UInt64) (result : Except Error Audit.Attempt)

def tick (p : Capture.Plant) (interval : UInt64) : Job Tick := do
  match ← Agreement.check p.fleet with
  | none => return .notSynced
  | some height => do
    let left := blocksLeft height interval
    Job.act (.agreed height (height + left))
    let stale := isStale interval height (← Job.act (.audit .mostRecent))
    if left ≠ 0 && !stale then return .waiting height left
    return .triggered height (← (Capture.run p height).outcome)

/-- Ticks until the first attempt if only one is wanted. False if that has not come within the
bound. -/
def poll (p : Capture.Plant) (interval : UInt64) (runOnce : Bool) : (bound : Nat) → Job Bool
  | 0 => return false
  | bound + 1 => do
    match ← tick p interval with
    | .triggered .. => if runOnce then return true else poll p interval runOnce bound
    | _ => poll p interval runOnce bound

end FleetSnapshot.Watch
