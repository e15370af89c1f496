import FleetSnapshot.Bucket
import FleetSnapshot.Plan
/-!
A whole deployment as a value: the hosts, the audit store, the gate and the bucket. Acts are carried
out on it, and it keeps a journal of what reached the hosts and the bucket.
-/

namespace FleetSnapshot

structure Host where
  /-- The reply to a command, given the commands before it, the latest first. -/
  answer : List String → String → Reply
  asked : List String := []

inductive Event where
  | command (node : Nat) (phase : Phase) (text : String) (reply : Reply)
  | put (phase : Phase) (key text : String) (accepted : Bool)
  | removalOpened (upload : Int) (pre : String)
  | removalClosed (upload : Int) (pre : String) (accepted : Bool)
  deriving DecidableEq, Repr

structure Deployment where
  hosts : List Host
  store : Audit.Store
  gate : Gate
  objects : Bucket.Objects := []
  refusesPut : Bool := false
  /-- The prefixes whose removal is refused. -/
  refusesRemoval : List String := []
  /-- What others do to the audit store, once, while the directory of a prefix is being removed. -/
  meanwhile : List (String × (Audit.Store → Audit.Store)) := []
  journal : List Event := []

def takeEntry {α : Type} (pre : String) : List (String × α) → Option (α × List (String × α))
  | [] => none
  | (p, a) :: es =>
    if p = pre then some (a, es) else (takeEntry pre es).map fun (b, es) => (b, (p, a) :: es)

namespace Deployment

def note (e : Event) (d : Deployment) : Deployment := { d with journal := d.journal ++ [e] }

def command (node : Nat) (text : String) (d : Deployment) : Reply × Deployment :=
  match d.hosts[node]? with
  | none => (.output "", d)
  | some h =>
    let reply := h.answer h.asked text
    let d := { d with hosts := d.hosts.set node { h with asked := text :: h.asked } }
    (reply, d.note (.command node d.gate.phase text reply))

def put (key text : String) (d : Deployment) : Except Error Unit × Deployment :=
  let d' := d.note (.put d.gate.phase key text (!d.refusesPut))
  if d.refusesPut then (.error (.storage s!"failed to put {key}"), d')
  else (.ok (), { d' with objects := d.objects.put key text })

def openRemoval (upload : Int) (pre : String) (d : Deployment) : Deployment :=
  let d := d.note (.removalOpened upload pre)
  match takeEntry pre d.meanwhile with
  | none => d
  | some (change, rest) => { d with store := change d.store, meanwhile := rest }

def closeRemoval (upload : Int) (pre : String) (d : Deployment) :
    Except Error Unit × Deployment :=
  let accepted := !d.refusesRemoval.contains pre
  let d' := d.note (.removalClosed upload pre accepted)
  if accepted then (.ok (), { d' with objects := d.objects.remove pre })
  else (.error (.storage s!"failed to delete objects under {pre}"), d')

def enter (d : Deployment) : Except Error Unit × Deployment :=
  match d.gate.enter (d.store.clock d.store.ticks) with
  | .error e => (.error e, d)
  | .ok gate => (.ok (), { d with gate, store := { d.store with ticks := d.store.ticks + 1 } })

def perform {β : Type} : Act β → Deployment → β × Deployment
  | .command node text, d => d.command node text
  | .audit op, d =>
    let (r, store) := op.run d.store
    (r, { d with store })
  | .put key text, d => d.put key text
  | .openRemoval upload pre, d => ((), d.openRemoval upload pre)
  | .closeRemoval upload pre, d => d.closeRemoval upload pre
  | .enter, d => d.enter
  | .leave, d => ((), { d with gate := d.gate.leave })
  | .phase p, d => ((), { d with gate := { d.gate with phase := p } })
  | .agreed height next, d => ((), { d with gate := d.gate.agreed height next })

end Deployment

namespace Plan

def run {α : Type} : Plan α → Deployment → α × Deployment
  | .done a, d => (a, d)
  | .step act next, d =>
    let (r, d) := d.perform act
    (next r).run d

/-- Carries out the next act only. -/
def advance {α : Type} : Plan α → Deployment → Plan α × Deployment
  | .done a, d => (.done a, d)
  | .step act next, d =>
    let (r, d) := d.perform act
    (next r, d)

end Plan

/-- Carries out two jobs that begin together: the first act of the one, then all of the other. -/
def Job.race {α β : Type} (j : Job α) (k : Job β) (d : Deployment) :
    (Except Stop α × Except Stop β) × Deployment :=
  let (j, d) := Plan.advance j.run d
  let (b, d) := Plan.run k.run d
  let (a, d) := j.run d
  ((a, b), d)

end FleetSnapshot
