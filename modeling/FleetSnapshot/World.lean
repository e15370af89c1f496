import FleetSnapshot.Api
import FleetSnapshot.Audit.Edit
import FleetSnapshot.Deployment
import FleetSnapshot.Script
import FleetSnapshot.Sweep
import FleetSnapshot.Watch
/-!
A deployment together with the program that runs it: its settings, its token, and the hands that
hold the gate from outside.
-/

namespace FleetSnapshot

structure World where
  deployment : Deployment
  plant : Capture.Plant
  bucketName : String
  blockInterval : UInt64
  runOnce : Bool
  token : String
  /-- The names under which the gate is held. -/
  hands : List String := []

namespace World

def fleetOf (targets : List Config.Target) (rclone : Config.Rclone) (bucketName : String) :
    List Node :=
  targets.zipIdx.map fun (target, index) => { index, target, rclone, bucketName }

def clearJournal (w : World) : World :=
  { w with deployment := { w.deployment with journal := [] } }

/-- What reached one host, by phase. -/
def commandsOf (node : Nat) (journal : List Event) : List (Phase × String) :=
  journal.filterMap fun
    | .command i phase text _ => if i = node then some (phase, text) else none
    | _ => none

def job {α : Type} (j : Job α) (w : World) : Except Stop α × World :=
  let (r, deployment) := j.run.run w.deployment
  (r, { w with deployment })

def query {α : Type} (q : Audit.Query α) (w : World) : Except Error α × World :=
  let (r, store) := q w.deployment.store
  (r, { w with deployment := { w.deployment with store } })

/-- The changes that a query makes, whatever it gives. -/
def changes {α : Type} (q : Audit.Query α) (s : Audit.Store) : Audit.Store := (q s).2

def withGate (change : Gate → Gate) (w : World) : World :=
  { w with deployment := { w.deployment with gate := change w.deployment.gate } }

def take (hand : String) (w : World) : Except Error Unit × World :=
  match w.deployment.enter with
  | (.ok (), deployment) => (.ok (), { w with deployment, hands := hand :: w.hands })
  | (.error e, _) => (.error e, w)

/-- Lets go of the gate. False if it was not held under this name. -/
def drop (hand : String) (w : World) : Bool × World :=
  if hand ∈ w.hands then (true, { withGate Gate.leave w with hands := w.hands.erase hand })
  else (false, w)

def broom (w : World) : Sweep.Broom := ⟨w.plant.dryRun, w.bucketName⟩

def attempt (height : UInt64) (w : World) : Except Stop Audit.Attempt × World :=
  w.job (Capture.run w.plant height)

def twoAttempts (height : UInt64) (w : World) :
    (Except Stop Audit.Attempt × Except Stop Audit.Attempt) × World :=
  let (r, deployment) :=
    Job.race (Capture.run w.plant height) (Capture.run w.plant height) w.deployment
  (r, { w with deployment })

def tick (w : World) : Except Stop Watch.Tick × World := w.job (Watch.tick w.plant w.blockInterval)

def poll (bound : Nat) (w : World) : Except Stop Bool × World :=
  w.job (Watch.poll w.plant w.blockInterval w.runOnce bound)

def sweep (keep : Nat) (w : World) : Except Error (Option Sweep.Report) × World :=
  match w.job (Sweep.cycle w.broom keep).outcome with
  | (.ok r, w) => (r, w)
  | (.error _, w) => (.ok none, w)

/-- The first cleanup after a start, unless there are to be none. -/
def startSweeping (c : Config.Cleanup) (w : World) :
    Except String (Sweep.Rhythm × Option String) × World :=
  match Sweep.rhythm c with
  | .error message => (.error message, w)
  | .ok .never => (.ok (.never, none), w)
  | .ok r =>
    let (outcome, w) := w.sweep c.keep
    (.ok (r, some (Sweep.lastWords outcome)), w)

/-- Starts the program again: nobody holds the gate, and only what is stored is still there. -/
def restart (blockInterval : UInt64) (dryRun runOnce : Bool) (w : World) : World :=
  { w with
    deployment := { w.deployment with gate := { blockInterval } }
    plant := { w.plant with dryRun }, blockInterval, runOnce, hands := [] }

def setRules (node : Nat) (rules : List Script.Rule) (w : World) : World :=
  { w with deployment := { w.deployment with
      hosts := w.deployment.hosts.set node { answer := Script.answer rules } } }

def respond (q : Api.Request) (w : World) : Api.Response × World :=
  let (r, store) := Api.respond w.token w.deployment.gate q w.deployment.store
  (r, { w with deployment := { w.deployment with store } })

end World

end FleetSnapshot
