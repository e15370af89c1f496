import FleetSnapshot.Node
/-!
Whether the nodes of a fleet are healthy, follow the right chain and stand at one height.
-/

namespace FleetSnapshot

structure Probe where
  target : String
  healthy : Bool
  height : Option UInt64
  deriving DecidableEq, Repr

namespace Agreement

def unanimous (heights : List UInt64) : Option UInt64 :=
  match heights with
  | [] => none
  | h :: hs => if hs.all (· == h) then some h else none

/-- The height of the fleet if all nodes are healthy and at it. -/
def verdict (probes : List Probe) : Option UInt64 :=
  if probes.all (·.healthy) then (probes.mapM Probe.height).bind unanimous else none

def probeOf (target : String) (report : Except Error SyncReport) (syncing : Except Error Bool)
    (height : Except Error UInt64) : Probe :=
  let consensus := match report with
    | .ok r => r.ready
    | .error _ => false
  let execution := match syncing with
    | .ok b => !b
    | .error _ => false
  { target, healthy := consensus && execution, height := height.toOption }

def probe (n : Node) : Job Probe := do
  let (report, syncing, height) ←
    Job.both n.syncReport.outcome (Job.both n.executionSyncing.outcome n.height.outcome)
  return probeOf n.target.name report syncing height

/-- The height of the fleet if it is in step. -/
def check (fleet : List Node) : Job (Option UInt64) := do
  return verdict (← Job.all (fleet.map probe))

def disagreement (heights : List (String × UInt64)) : Error :=
  .disagreement (", ".intercalate (heights.map fun (target, h) => s!"{target}={h.toNat}"))

def verifyHeights (fleet : List Node) : Job UInt64 := do
  let heights ← Job.upToFailure (fleet.map fun n => do return (n.target.name, ← n.height))
  match unanimous (heights.map (·.2)) with
  | some h => return h
  | none => Job.fail (disagreement heights)

def otherChain? (expected : String) (reported : List (String × String)) : Option Error :=
  (reported.find? fun (_, actual) => !ChainId.agree expected actual).map
    fun (target, actual) => .otherChain target expected actual

def verifyChains (fleet : List Node) (expected : String) : Job Unit := do
  let reported ← Job.upToFailure (fleet.map fun n => do return (n.target.name, ← n.chainId))
  match otherChain? expected reported with
  | some e => Job.fail e
  | none => return ()

end Agreement

end FleetSnapshot
