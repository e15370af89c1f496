import FleetSnapshot.Proofs.Course
import FleetSnapshot.Proofs.Downtime
import FleetSnapshot.Proofs.Ready

/-! The preparations of a snapshot and the return to service, told by the commands. Both are made of
steps that the whole fleet takes together: a step tells each node its commands in the order of the
fleet, and the next step begins only when every node has replied. -/

namespace FleetSnapshot

namespace Node

variable (n : Node)

def heightCommand : String := n.rpcCommand (requestOf "eth_blockNumber")

/-- What the node is blamed for after a reply. -/
def blame? : Reply → Option Error
  | .unreachable reason => some (.unreachable n.target.name reason)
  | .failed reason => some (.commandFailed n.target.name reason)
  | _ => none

def misread (out : String) : Error :=
  .commandFailed n.target.name s!"invalid eth_blockNumber result '{Text.trim out}'"

/-- As above, where a height that cannot be read is held against the node as well. -/
def fault? (text : String) : Reply → Option Error
  | .output out =>
    if text = n.heightCommand ∧ Quantity.read? out = none then some (n.misread out) else none
  | reply => n.blame? reply

/-- The node is sent these commands one by one, up to the first that has no output. -/
inductive Obeys (φ : Phase) : List String → List Event → Except Stop Unit → Prop
  | nil : Obeys φ [] [] (.ok ())
  | stops {c cs reply s} (h : n.heard reply = .error s) :
      Obeys φ (c :: cs) [.command n.index φ c reply] (.error s)
  | goes {c cs out es r} (rest : Obeys φ cs es r) :
      Obeys φ (c :: cs) (.command n.index φ c (.output out) :: es) r

def heightIn (out : String) : Except Stop UInt64 :=
  match Quantity.read? out with
  | some h => .ok h
  | none => .error (.failed (n.misread out))

def Reports (φ : Phase) (es : List Event) (r : Except Stop (String × UInt64)) : Prop :=
  ∃ reply, es = [.command n.index φ n.heightCommand reply] ∧
    r = ((n.heard reply).bind n.heightIn).map (n.target.name, ·)

variable {n} {φ : Phase} {cs cs' : List String} {es es' : List Event} {r : Except Stop Unit}

theorem Obeys.append (h : n.Obeys φ cs es (.ok ())) (h' : n.Obeys φ cs' es' r) :
    n.Obeys φ (cs ++ cs') (es ++ es') r := by
  generalize hr : (Except.ok () : Except Stop Unit) = r₀ at h
  induction h with
  | nil => exact h'
  | stops => cases hr
  | goes _ ih => exact .goes (ih hr)

theorem Obeys.append_stop {s : Stop} (h : n.Obeys φ cs es (.error s)) (cs' : List String) :
    n.Obeys φ (cs ++ cs') es (.error s) := by
  generalize hr : (Except.error s : Except Stop Unit) = r₀ at h
  induction h with
  | nil => cases hr
  | stops h =>
    cases hr
    exact .stops h
  | goes _ ih => exact .goes (ih hr)

section Says

open Job

variable {hosts : Nat} (hn : n.index < hosts)

include hn

/-- The call that sends one command and makes nothing of the output. -/
theorem says_command (c : String) :
    (do let _ ← n.run c : Job Unit).Says hosts fun φ => n.Obeys φ [c] := by
  refine Says.bind (says_run hn c) (R := fun _ _ es r => es = [] ∧ r = .ok ())
    (fun _ => says_pure fun _ => ⟨rfl, rfl⟩) ?_ ?_
  · rintro φ es s ⟨reply, rfl, hs⟩
    exact .stops hs.symm
  · rintro φ es out es' r ⟨reply, rfl, hout⟩ ⟨rfl, rfl⟩
    cases reply <;> cases hout
    exact .goes .nil

theorem says_stop (container : String) (force : Bool) :
    (n.stop container force).Says hosts fun φ => n.Obeys φ [stopCommand container force] :=
  says_command hn _

theorem says_start (container : String) :
    (n.start container).Says hosts fun φ => n.Obeys φ [startCommand container] :=
  says_command hn _

theorem says_dump (request path : String) :
    (n.dump request path).Says hosts fun φ => n.Obeys φ [n.dumpCommand request path] :=
  says_command hn _

theorem says_height : (do return (n.target.name, ← n.height)).Says hosts n.Reports := by
  have hheight : n.height.Says hosts fun φ es r => ∃ reply,
      es = [.command n.index φ n.heightCommand reply] ∧ r = (n.heard reply).bind n.heightIn := by
    refine Says.bind (says_run hn _) (R := fun out _ es r => es = [] ∧ r = n.heightIn out)
      (fun out => ?_) ?_ ?_
    · unfold heightIn
      cases Quantity.read? out with
      | some h => exact says_pure fun _ => ⟨rfl, rfl⟩
      | none => exact says_fail fun _ => ⟨rfl, rfl⟩
    · rintro φ es s ⟨reply, rfl, hs⟩
      exact ⟨reply, rfl, by rw [← hs]; rfl⟩
    · rintro φ es out es' r ⟨reply, rfl, hout⟩ ⟨rfl, rfl⟩
      exact ⟨reply, rfl, by rw [← hout]; rfl⟩
  refine Says.bind hheight (R := fun h _ es r => es = [] ∧ r = .ok (n.target.name, h))
    (fun h => says_pure fun _ => ⟨rfl, rfl⟩) ?_ ?_
  · rintro φ es s ⟨reply, rfl, hs⟩
    exact ⟨reply, rfl, by rw [← hs]; rfl⟩
  · rintro φ es h es' r ⟨reply, rfl, hh⟩ ⟨rfl, rfl⟩
    exact ⟨reply, rfl, by rw [← hh]; rfl⟩

end Says

end Node

namespace Capture

open Job Node

/-- A step of the whole fleet: the nodes are sent their commands, one node after the other. -/
def Step (calls : Node → List String) (fleet : List Node) (φ : Phase) (es : List Event)
    (r : Except Stop Unit) : Prop :=
  ∃ rs, FailFast (fun n => n.Obeys φ (calls n)) fleet es rs ∧ r = rs.map fun _ => ()

def agreed (heights : List (String × UInt64)) : Except Stop Unit :=
  match Agreement.unanimous (heights.map (·.2)) with
  | some _ => .ok ()
  | none => .error (.failed (Agreement.disagreement heights))

def Recheck (fleet : List Node) (φ : Phase) (es : List Event) (r : Except Stop Unit) : Prop :=
  ∃ rs, FailFast (fun n => n.Reports φ) fleet es rs ∧ r = rs.bind agreed

/-- Steps one after the other. The first that does not succeed is the last. -/
inductive Series (φ : Phase) :
    List (Phase → List Event → Except Stop Unit → Prop) → List Event → Except Stop Unit → Prop
  | nil : Series φ [] [] (.ok ())
  | stops {P Ps es s} (h : P φ es (.error s)) : Series φ (P :: Ps) es (.error s)
  | goes {P Ps es es' r} (h : P φ es (.ok ())) (rest : Series φ Ps es' r) :
      Series φ (P :: Ps) (es ++ es') r

def stopSidecar (n : Node) : List String := [stopCommand n.target.containers.sidecar true]

def dumpCalls (n : Node) : List String :=
  [n.dumpCommand latestBlockRequest (n.target.dataDir ++ "/" ++ latestBlockFile),
    n.dumpCommand clientVersionRequest (n.target.dataDir ++ "/" ++ clientVersionFile)]

def stopExecution (n : Node) : List String := [stopCommand n.target.containers.execution false]

def startSidecar (n : Node) : List String := [startCommand n.target.containers.sidecar]

def startExecution (n : Node) : List String := [startCommand n.target.containers.execution]

def cycleConsensus (n : Node) : List String :=
  [stopCommand n.target.containers.consensus false, startCommand n.target.containers.consensus]

def preparation (fleet : List Node) : List (Phase → List Event → Except Stop Unit → Prop) :=
  [Step stopSidecar fleet, Recheck fleet, Step dumpCalls fleet, Step stopExecution fleet]

def restoration (fleet : List Node) : List (Phase → List Event → Except Stop Unit → Prop) :=
  [Step startSidecar fleet, Step startExecution fleet, Step cycleConsensus fleet]

section Says

variable {hosts : Nat} {fleet : List Node}

theorem says_across {call : Node → Job Unit} {calls : Node → List String}
    (h : ∀ n ∈ fleet, (call n).Says hosts fun φ => n.Obeys φ (calls n)) :
    (across fleet call).Says hosts (Step calls fleet) := by
  refine Says.bind (says_upToFailure h) (R := fun _ _ es r => es = [] ∧ r = .ok ())
    (fun _ => says_pure fun _ => ⟨rfl, rfl⟩) ?_ ?_
  · intro φ es s hs
    exact ⟨_, hs, rfl⟩
  · rintro φ es as es' r hok ⟨rfl, rfl⟩
    exact ⟨_, by rwa [List.append_nil], rfl⟩

theorem says_verifyHeights (h : ∀ n ∈ fleet, n.index < hosts) :
    (Agreement.verifyHeights fleet).Says hosts fun φ es r =>
      Recheck fleet φ es (r.map fun _ => ()) := by
  have hheights := says_upToFailure fun n hn => says_height (h n hn)
  refine Says.bind hheights (R := fun heights _ es r =>
    es = [] ∧ r.map (fun _ => ()) = agreed heights) (fun heights => ?_) ?_ ?_
  · unfold agreed
    cases Agreement.unanimous (heights.map (·.2)) with
    | some h => exact says_pure fun _ => ⟨rfl, rfl⟩
    | none => exact says_fail fun _ => ⟨rfl, rfl⟩
  · intro φ es s hs
    exact ⟨_, hs, rfl⟩
  · rintro φ es heights es' r hok ⟨rfl, hr⟩
    exact ⟨.ok heights, by rwa [List.append_nil], hr⟩

theorem says_series {α : Type} {j : Job α} {k : Job Unit}
    {P : Phase → List Event → Except Stop Unit → Prop}
    {Ps : List (Phase → List Event → Except Stop Unit → Prop)}
    (hj : j.Says hosts fun φ es r => P φ es (r.map fun _ => ()))
    (hk : k.Says hosts fun φ => Series φ Ps) :
    (do let _ ← j; k).Says hosts fun φ => Series φ (P :: Ps) :=
  Says.bind hj (fun _ => hk) (fun _ _ _ h => .stops h) fun _ _ _ _ _ h hrest => .goes h hrest

theorem says_last {j : Job Unit} {P : Phase → List Event → Except Stop Unit → Prop}
    (hj : j.Says hosts P) : j.Says hosts fun φ => Series φ [P] := by
  refine hj.mono fun φ es r h => ?_
  rcases r with s | ⟨⟩
  · exact .stops h
  · rw [← List.append_nil es]
    exact .goes h .nil

theorem says_unit {j : Job Unit} {P : Phase → List Event → Except Stop Unit → Prop}
    (hj : j.Says hosts P) : j.Says hosts fun φ es r => P φ es (r.map fun _ => ()) := by
  refine hj.mono fun φ es r h => ?_
  rcases r with s | ⟨⟩ <;> exact h

theorem says_prepare (h : ∀ n ∈ fleet, n.index < hosts) :
    (prepare fleet).Says hosts fun φ => Series φ (preparation fleet) := by
  have hdump : ∀ n ∈ fleet, (dumpAll n).Says hosts fun φ => n.Obeys φ (dumpCalls n) := by
    intro n hn
    refine Says.bind (says_dump (h n hn) _ _) (fun _ => says_dump (h n hn) _ _) ?_ ?_
    · intro φ es s hs
      exact hs.append_stop _
    · intro φ es a es' r ha hr
      exact ha.append hr
  refine says_series (says_unit (says_across fun n hn => says_stop (h n hn) _ _)) ?_
  refine says_series (says_verifyHeights h) ?_
  refine says_series (says_unit (says_across hdump)) ?_
  exact says_last (says_across fun n hn => says_stop (h n hn) _ _)

theorem says_restore (h : ∀ n ∈ fleet, n.index < hosts) :
    (restore fleet).Says hosts fun φ => Series φ (restoration fleet) := by
  have hcycle : ∀ n ∈ fleet, (restartConsensus n).Says hosts fun φ =>
      n.Obeys φ (cycleConsensus n) := by
    intro n hn
    refine Says.bind (says_stop (h n hn) _ _) (fun _ => says_start (h n hn) _) ?_ ?_
    · intro φ es s hs
      exact hs.append_stop _
    · intro φ es a es' r ha hr
      exact ha.append hr
  refine says_series (says_unit (says_across fun n hn => says_start (h n hn) _)) ?_
  refine says_series (says_unit (says_across fun n hn => says_start (h n hn) _)) ?_
  exact says_last (says_across hcycle)

end Says

end Capture

end FleetSnapshot
