import FleetSnapshot.Proofs.Commands
import FleetSnapshot.Proofs.Downtime

/-! Whether an attempt starts again what it stops. One that has got through its preparations starts
everything, whatever becomes of the uploads. One that a node fails while it prepares is over at
once, and what it has stopped by then stays down. -/

namespace FleetSnapshot

open Node

/-- Errors that the nodes of a fleet are the cause of. -/
def Error.ofFleet : Error → Prop
  | .unreachable .. | .commandFailed .. | .disagreement _ => True
  | _ => False

theorem Error.ofAudit.not_ofFleet {e : Error} (h : e.ofAudit) : ¬ e.ofFleet := by
  cases e <;> first | exact h.elim | exact id

/-- A start that fails, or the stop of a consensus client while the fleet is restored. -/
def Fault (fleet : List Node) : Event → Prop
  | .command node phase text reply => (∀ out, reply ≠ .output out) ∧
    ((∃ container, text = startCommand container) ∨
      phase = .restoring ∧ ∃ n ∈ fleet, node = n.index ∧
        text = stopCommand n.target.containers.consensus false)
  | _ => False

namespace Capture

open Job

def sidecars (fleet : List Node) : List (Nat × String) :=
  fleet.map fun n => (n.index, n.target.containers.sidecar)

def executions (fleet : List Node) : List (Nat × String) :=
  fleet.map fun n => (n.index, n.target.containers.execution)

variable {hosts : Nat} {bad : Event → Prop} {fleet : List Node} {owed : List (Nat × String)}
  {t : Trace}

/-- How a job ends that the nodes have failed, or that waits for one of them. -/
def Halted (hosts : Nat) (owed : List (Nat × String)) (t : Trace) (s : Stop) : Prop :=
  Quiet hosts owed t ∧ ∀ e, s = .failed e → e.ofFleet

theorem run_quiet (n : Node) {command : String} (h : Quiet hosts owed t)
    (hstart : ∀ container, command ≠ startCommand container)
    (hstop : ∀ container force, command = stopCommand container force →
      (n.index, container) ∈ owed) :
    (n.run command).Keeps (recorded hosts bad) t (fun t _ => Quiet hosts owed t)
      (Halted hosts owed) := by
  rw [keeps_run]
  intro reply _ _
  have hq : Quiet hosts owed (t.after hosts (.command n.index command) reply) := by
    refine ⟨fun e he node container hs => ?_, h.owes.command hstop⟩
    simp only [Trace.after] at he
    split at he
    · rw [Trace.note_events] at he
      rcases List.mem_append.1 he with he | he
      · exact h.unstarted e he node container hs
      · rw [List.mem_singleton.1 he] at hs
        cases reply with
        | output out => exact hstart container hs.2
        | _ => exact hs.elim
    · exact h.unstarted e he node container hs
  cases reply with
  | output out => exact hq
  | unreachable reason => exact ⟨hq, fun e he => Stop.failed.inj he ▸ trivial⟩
  | failed reason => exact ⟨hq, fun e he => Stop.failed.inj he ▸ trivial⟩
  | silent => exact ⟨hq, fun e he => Stop.noConfusion he⟩

theorem run_idle (n : Node) {command : String} (h : Quiet hosts owed t) (hi : Idle command) :
    (n.run command).Keeps (recorded hosts bad) t (fun t _ => Quiet hosts owed t)
      (Halted hosts owed) :=
  run_quiet n h (fun c => (hi c).1) fun c f hc => absurd hc ((hi c).2 f)

theorem stop_quiet (n : Node) {container : String} (force : Bool) (h : Quiet hosts owed t)
    (hmem : (n.index, container) ∈ owed) :
    (n.stop container force).Keeps (recorded hosts bad) t (fun t _ => Quiet hosts owed t)
      (Halted hosts owed) := by
  rw [Node.stop, keeps_bind]
  refine run_quiet n h (fun c hc => start_ne_stop c container force hc.symm) fun c f hc => ?_
  rwa [← stopCommand_inj hc]

theorem dump_quiet (n : Node) (request path : String) (h : Quiet hosts owed t) :
    (n.dump request path).Keeps (recorded hosts bad) t (fun t _ => Quiet hosts owed t)
      (Halted hosts owed) := by
  rw [Node.dump, keeps_bind]
  exact run_idle n h (foreign_dumpCommand n request path).idle

theorem height_quiet (n : Node) (h : Quiet hosts owed t) :
    n.height.Keeps (recorded hosts bad) t (fun t _ => Quiet hosts owed t) (Halted hosts owed) := by
  rw [Node.height, keeps_bind]
  refine (run_idle n h (foreign_rpcCommand n _).idle).mono (fun t out ht => ?_) fun _ _ h => h
  split
  · exact ht
  · exact ⟨ht, fun e he => Stop.failed.inj he ▸ trivial⟩

theorem upload_quiet (n : Node) (dir pre : String) (height : UInt64) (h : Quiet hosts owed t) :
    (n.upload dir pre height).Keeps (recorded hosts bad) t (fun t _ => Quiet hosts owed t)
      (Halted hosts owed) := by
  simp only [Node.upload, keeps_bind]
  refine (run_idle n h (foreign_inspectCommand n).idle).mono (fun t image ht => ?_) fun _ _ h => h
  refine (run_idle n ht (foreign_metadataCommand n dir image height).idle).mono (fun t _ ht => ?_)
    fun _ _ h => h
  exact run_idle n ht (foreign_uploadCommand n dir pre height).idle

theorem upToFailure_quiet {α : Type} {call : Node → Job α} (fleet : List Node)
    (step : ∀ n ∈ fleet, ∀ t, Quiet hosts owed t →
      (call n).Keeps (recorded hosts bad) t (fun t _ => Quiet hosts owed t) (Halted hosts owed))
    (h : Quiet hosts owed t) :
    (upToFailure (fleet.map call)).Keeps (recorded hosts bad) t (fun t _ => Quiet hosts owed t)
      (Halted hosts owed) := by
  refine Keeps.mono (keeps_upToFailure (fun ns t => ns ⊆ fleet ∧ Quiet hosts owed t)
    (fun t e => Quiet hosts owed t ∧ e.ofFleet) (fun n ns t ⟨hsub, ht⟩ => ?_) fleet
    ⟨List.Subset.refl _, h⟩) (fun t _ ht => ht.2) fun t s hs => ?_
  · rw [List.cons_subset] at hsub
    refine (step n hsub.1 t ht).mono (fun t _ ht => ⟨hsub.2, ht⟩) fun t s hs => ?_
    cases s with
    | failed e => exact ⟨hs.1, hs.2 e rfl⟩
    | hung => exact ⟨hsub.2, hs.1⟩
  · cases s with
    | failed e => exact ⟨hs.1, fun e' he => Stop.failed.inj he ▸ hs.2⟩
    | hung => exact ⟨hs.2, fun e he => Stop.noConfusion he⟩

theorem across_quiet {call : Node → Job Unit} (fleet : List Node)
    (step : ∀ n ∈ fleet, ∀ t, Quiet hosts owed t →
      (call n).Keeps (recorded hosts bad) t (fun t _ => Quiet hosts owed t) (Halted hosts owed))
    (h : Quiet hosts owed t) :
    (across fleet call).Keeps (recorded hosts bad) t (fun t _ => Quiet hosts owed t)
      (Halted hosts owed) := by
  rw [across, keeps_bind]
  exact upToFailure_quiet fleet step h

theorem verifyHeights_quiet (fleet : List Node) (h : Quiet hosts owed t) :
    (Agreement.verifyHeights fleet).Keeps (recorded hosts bad) t (fun t _ => Quiet hosts owed t)
      (Halted hosts owed) := by
  rw [Agreement.verifyHeights, keeps_bind]
  refine (upToFailure_quiet fleet (fun n _ t ht => ?_) h).mono (fun t heights ht => ?_)
    fun _ _ h => h
  · rw [keeps_bind]
    exact height_quiet n ht
  · split
    · exact ht
    · exact ⟨ht, fun e he => Stop.failed.inj he ▸ trivial⟩

/-- No more than commands of one phase. -/
def Commanded (φ : Phase) (es : List Event) : Prop :=
  ∀ e ∈ es, ∃ node text reply, e = .command node φ text reply

def speaking : Discipline Unit where
  allows _ act := match act with
    | .command _ _ => True
    | _ => False
  after _ _ _ := ()

theorem speaking_unmoved : speaking.Unmoved := fun _ _ _ => ⟨trivial, fun _ => rfl⟩

theorem phase_command (hosts node : Nat) (text : String) (reply : Reply) :
    (t.after hosts (.command node text) reply).phase = t.phase := by
  simp only [Trace.after]
  split <;> rfl

/-- The phase does not change, and all that happens is commands of this phase. -/
structure Steady (φ : Phase) (t : Trace) : Prop where
  phase : t.phase = φ
  commanded : Commanded φ t.events

theorem Steady.command {φ : Phase} (h : Steady φ t) (node : Nat) (text : String) (reply : Reply) :
    Steady φ (t.after hosts (.command node text) reply) := by
  refine ⟨(phase_command ..).trans h.phase, ?_⟩
  simp only [Trace.after]
  split
  · intro e he
    rw [Trace.note_events] at he
    rcases List.mem_append.1 he with he | he
    · exact h.commanded e he
    · rw [List.mem_singleton.1 he, h.phase]
      exact ⟨node, text, reply, rfl⟩
  · exact h.commanded

/-- A plan of commands alone stays within its phase. -/
theorem keeps_steady {α : Type} {p : Plan α} {φ : Phase} (hp : p.Keeps speaking () fun _ _ => True)
    (h : Steady φ t) : p.Keeps (recorded hosts bad) t fun t _ => Steady φ t := by
  induction p generalizing t with
  | done a => exact h
  | step act next ih =>
    cases act with
    | command node text =>
      exact ⟨trivial, fun reply _ => ih reply (hp.2 reply trivial) (h.command node text reply)⟩
    | _ => exact hp.1.elim

theorem prepare_steady {φ : Phase} (fleet : List Node) (h : Steady φ t) :
    (prepare fleet).Keeps (recorded hosts bad) t (fun t _ => Steady φ t) fun t _ => Steady φ t := by
  have hspeaks : (prepare fleet).run.Keeps speaking () fun _ _ => True :=
    Plan.Keeps.mono (prepare_stays speaking_unmoved () fleet) fun _ _ _ => trivial
  refine (keeps_steady hspeaks h).mono fun t r ht => ?_
  cases r <;> exact ht

def quieted (fleet : List Node) : List (Nat × String) := sidecars fleet ++ executions fleet

theorem prepare_quiet (fleet : List Node) (h : Quiet hosts (quieted fleet) t) :
    (prepare fleet).Keeps (recorded hosts bad) t (fun t _ => Quiet hosts (quieted fleet) t)
      (Halted hosts (quieted fleet)) := by
  simp only [prepare, keeps_bind]
  refine (across_quiet fleet (fun n hn t ht => stop_quiet n true ht ?_) h).mono (fun t _ ht => ?_)
    fun _ _ h => h
  · exact List.mem_append_left _ (List.mem_map_of_mem hn)
  refine (verifyHeights_quiet fleet ht).mono (fun t _ ht => ?_) fun _ _ h => h
  refine (across_quiet fleet (fun n _ t ht => ?_) ht).mono (fun t _ ht => ?_) fun _ _ h => h
  · rw [dumpAll, keeps_bind]
    exact (dump_quiet n _ _ ht).mono (fun t _ ht => dump_quiet n _ _ ht) fun _ _ h => h
  refine across_quiet fleet (fun n hn t ht => stop_quiet n false ht ?_) ht
  exact List.mem_append_right _ (List.mem_map_of_mem hn)

theorem uploadEnd_quiet (n : Node) (id : Int) (outcome : Except Error Unit)
    (h : Quiet hosts owed t) :
    (uploadEnd n id outcome).Keeps (recorded hosts bad) t (fun t _ => Quiet hosts owed t)
      fun t s => s = .hung ∧ Quiet hosts owed t := by
  refine (keeps_bind _ _).2 ((keeps_act _).2 ⟨trivial, fun _ _ => ?_⟩)
  cases outcome <;> exact h

theorem uploadOne_quiet (dryRun : Bool) (attemptId : Int) (height : UInt64) (n : Node)
    (h : Quiet hosts owed t) :
    (uploadOne dryRun attemptId height n).Keeps (recorded hosts bad) t
      (fun t _ => Quiet hosts owed t) fun t s => s = .hung ∧ Quiet hosts owed t := by
  rw [uploadOne_eq, keeps_bind, keeps_act]
  refine ⟨trivial, fun r _ => ?_⟩
  rcases r with e | record
  · exact h
  · cases dryRun with
    | true => exact uploadEnd_quiet n record.id (.ok ()) h
    | false =>
      simp only [Bool.false_eq_true, if_false, keeps_bind, keeps_outcome]
      refine (upload_quiet n _ _ height h).mono (fun t _ ht => uploadEnd_quiet n _ _ ht)
        fun t s hs => ?_
      cases s with
      | failed e => exact uploadEnd_quiet n _ _ hs.1
      | hung => exact ⟨trivial, hs.1⟩

theorem uploadAll_quiet (p : Plant) (attemptId : Int) (height : UInt64) (h : Quiet hosts owed t) :
    (uploadAll p attemptId height).Keeps (recorded hosts bad) t (fun t _ => Quiet hosts owed t)
      fun _ s => s = .hung := by
  rw [uploadAll, keeps_bind]
  refine Keeps.mono (keeps_all (fun _ t => Quiet hosts owed t) (· = .hung)
    (fun n _ t ht => uploadOne_quiet p.dryRun attemptId height n ht) p.fleet h) (fun _ _ h => h)
    fun _ _ h => h.1

/-- Commands that may not fail are replied to. -/
theorem answered {node : Nat} {text : String} {reply : Reply}
    (htext : (∃ container, text = startCommand container) ∨
      t.phase = .restoring ∧ ∃ n ∈ fleet, node = n.index ∧
        text = stopCommand n.target.containers.consensus false)
    (hhost : hosts ≤ node → reply = .output "")
    (hgood : ∀ e ∈ (t.after hosts (.command node text) reply).events, ¬ Fault fleet e) :
    ∃ out, reply = .output out := by
  by_cases hlt : node < hosts
  · by_cases hout : ∃ out, reply = .output out
    · exact hout
    · refine absurd ?_ (hgood (.command node t.phase text reply) ?_)
      · exact ⟨fun out ho => hout ⟨out, ho⟩, htext⟩
      · simp [Trace.after, hlt]
  · exact ⟨"", hhost (by omega)⟩

theorem start_restores (n : Node) (container : String) :
    (n.start container).Keeps (recorded hosts (Fault fleet)) t
      (fun t' _ => ∃ out,
        t' = t.after hosts (.command n.index (startCommand container)) (.output out))
      fun _ _ => False := by
  rw [Node.start, keeps_bind, keeps_run]
  intro reply hhost hgood
  obtain ⟨out, rfl⟩ := answered (Or.inl ⟨container, rfl⟩) hhost hgood
  exact ⟨out, rfl⟩

theorem stop_restores (n : Node) (hn : n ∈ fleet) (hphase : t.phase = .restoring) :
    (n.stop n.target.containers.consensus false).Keeps (recorded hosts (Fault fleet)) t
      (fun t' _ => ∃ out, t' = t.after hosts
        (.command n.index (stopCommand n.target.containers.consensus false)) (.output out))
      fun _ _ => False := by
  rw [Node.stop, keeps_bind, keeps_run]
  intro reply hhost hgood
  obtain ⟨out, rfl⟩ := answered (Or.inr ⟨hphase, n, hn, rfl, rfl⟩) hhost hgood
  exact ⟨out, rfl⟩

/-- The fleet is being restored, and the list says what is left to start. -/
structure Restoring (hosts : Nat) (owed : List (Nat × String)) (t : Trace) : Prop where
  phase : t.phase = .restoring
  owes : Owes hosts owed t.events

theorem start_owed (n : Node) (container : String)
    (h : Restoring hosts ((n.index, container) :: owed) t) :
    (n.start container).Keeps (recorded hosts (Fault fleet)) t
      (fun t _ => Restoring hosts owed t) fun _ _ => False := by
  refine (start_restores n container).mono ?_ fun _ _ h => h
  rintro _ _ ⟨out, rfl⟩
  exact ⟨(phase_command ..).trans h.phase, h.owes.start⟩

theorem restartConsensus_owed (n : Node) (hn : n ∈ fleet) (h : Restoring hosts [] t) :
    (restartConsensus n).Keeps (recorded hosts (Fault fleet)) t
      (fun t _ => Restoring hosts [] t) fun _ _ => False := by
  rw [restartConsensus, keeps_bind]
  refine (stop_restores n hn h.phase).mono ?_ fun _ _ h => h
  rintro t _ ⟨out, rfl⟩
  refine start_owed n _ ⟨(phase_command ..).trans h.phase, ?_⟩
  refine (h.owes.mono (List.nil_subset _)).command fun c f hc => ?_
  rw [stopCommand_inj hc]
  exact List.mem_singleton.2 rfl

/-- A step in which no node fails, and each takes what it owes off the list. -/
theorem across_restores {call : Node → Job Unit} (owed : List Node → List (Nat × String))
    (step : ∀ n ∈ fleet, ∀ ns t, Restoring hosts (owed (n :: ns)) t →
      (call n).Keeps (recorded hosts (Fault fleet)) t (fun t _ => Restoring hosts (owed ns) t)
        fun _ _ => False)
    (h : Restoring hosts (owed fleet) t) :
    (across fleet call).Keeps (recorded hosts (Fault fleet)) t
      (fun t _ => Restoring hosts (owed []) t) fun _ s => s = .hung := by
  rw [across, keeps_bind]
  refine Keeps.mono (keeps_upToFailure (fun ns t => ns ⊆ fleet ∧ Restoring hosts (owed ns) t)
    (fun _ _ => False) (fun n ns t ⟨hsub, ht⟩ => ?_) fleet ⟨List.Subset.refl _, h⟩)
    (fun t _ ht => ht.2) fun t s hs => ?_
  · rw [List.cons_subset] at hsub
    refine (step n hsub.1 ns t ht).mono (fun t _ ht => ⟨hsub.2, ht⟩) fun t s hs => hs.elim
  · cases s with
    | failed e => exact hs.elim
    | hung => rfl

theorem restore_owed (h : Restoring hosts (quieted fleet) t) :
    (restore fleet).Keeps (recorded hosts (Fault fleet)) t (fun t _ => Restoring hosts [] t)
      fun _ s => s = .hung := by
  simp only [restore, keeps_bind]
  refine (across_restores (fun ns => sidecars ns ++ executions fleet)
    (fun n _ ns t ht => start_owed n _ ht) h).mono (fun t _ ht => ?_) fun _ _ h => h
  refine (across_restores executions (fun n _ ns t ht => start_owed n _ ht) ht).mono
    (fun t _ ht => ?_) fun _ _ h => h
  exact across_restores (fun _ => []) (fun n hn ns t ht => restartConsensus_owed n hn ht) ht

/-- How an attempt ends without a record of success. -/
def Ended (hosts : Nat) (t : Trace) (s : Stop) : Prop :=
  ∀ e, s = .failed e →
    (e.ofFleet → Commanded .preparing t.events ∧
      ∀ e' ∈ t.events, ∀ node container, ¬ e'.Starts node container) ∧
      (¬ e.ofFleet → Owes hosts [] t.events)

theorem ended_of_owes {e : Error} (he : ¬ e.ofFleet) (h : Owes hosts [] t.events) :
    Ended hosts t (.failed e) := by
  rintro e' ⟨⟩
  exact ⟨fun h => absurd h he, fun _ => h⟩

theorem Halted.ended {s : Stop} (h : Halted hosts owed t s) (hw : Steady .preparing t) :
    Ended hosts t s :=
  fun e he => ⟨fun _ => ⟨hw.commanded, h.1.unstarted⟩, fun hno => absurd (h.2 e he) hno⟩

theorem ended_hung : Ended hosts t .hung := nofun

theorem writeMarker_quiet (p : Plant) (height : UInt64) (h : Quiet hosts owed t) :
    (writeMarker p height).Keeps (recorded hosts bad) t (fun t _ => Quiet hosts owed t)
      fun t s => Quiet hosts owed t ∧ ∃ reason, s = .failed (.storage reason) := by
  simp only [writeMarker, keeps_bind, keeps_act, keeps_ofExcept]
  refine ⟨trivial, fun r hr => ?_⟩
  have hq : Quiet hosts owed
      (t.after hosts (.put (markerKey p) (toString height.toNat)) r) := by
    refine ⟨fun e he node container hs => ?_, h.owes.snoc fun _ _ hs => hs.elim⟩
    rcases List.mem_append.1 he with he | he
    · exact h.unstarted e he node container hs
    · rw [List.mem_singleton.1 he] at hs
      exact hs.elim
  cases r with
  | ok _ => exact hq
  | error e => exact ⟨hq, _, congrArg Stop.failed (hr.1 e rfl)⟩

/-- If it failed, then not because of the nodes. -/
def Blameless (marker : Except Error Unit) : Prop := ∀ e, marker = .error e → ¬ e.ofFleet

theorem blameless_ok : Blameless (.ok ()) := by
  intro e he
  cases he

/-- The last words about the uploads and the marker blame no node. -/
theorem conclude_ended (failed : List String) {marker : Except Error Unit}
    (hm : Blameless marker) (h : Owes hosts [] t.events) :
    Keeps (recorded hosts bad) (do
      if !failed.isEmpty then Job.fail (.uploadsFailed failed)
      Job.ofExcept marker) t (fun t _ => Owes hosts [] t.events) (Ended hosts) := by
  dsimp only
  split
  · exact ended_of_owes id h
  · cases marker with
    | ok _ => exact h
    | error e => exact ended_of_owes (hm e rfl) h

theorem drive_ended (p : Plant) (attemptId : Int) (height : UInt64) (h : t.events = []) :
    (drive p attemptId height).Keeps (recorded hosts (Fault p.fleet)) t
      (fun t _ => Owes hosts [] t.events) (Ended hosts) := by
  obtain ⟨fleet, dryRun, rootPrefix⟩ := p
  have hquiet : ∀ owed phase, Quiet hosts owed { t with phase } := fun owed phase =>
    ⟨fun e he => absurd he (by simp [h]), by rw [h]; exact owes_nil⟩
  cases dryRun with
  | true =>
    simp only [drive, Bool.not_true, Bool.false_eq_true, Bool.and_false, if_false, keeps_bind,
      keeps_act, keeps_pure]
    refine ⟨trivial, fun _ _ => ?_⟩
    refine (uploadAll_quiet _ attemptId height (hquiet [] _)).mono (fun t failed ht => ?_) ?_
    · exact conclude_ended failed blameless_ok ht.owes
    · rintro t _ rfl
      exact ended_hung
  | false =>
    have restoring : ∀ (t : Trace) (failed : List String) (marker : Except Error Unit),
        Quiet hosts (quieted fleet) t → Blameless marker →
        Keeps (recorded hosts (Fault fleet)) (do
          Job.act (.phase .restoring)
          restore fleet
          if !failed.isEmpty then Job.fail (.uploadsFailed failed)
          Job.ofExcept marker) t (fun t _ => Owes hosts [] t.events) (Ended hosts) := by
      intro t failed marker ht hm
      rw [keeps_bind, keeps_act]
      refine ⟨trivial, fun _ _ => ?_⟩
      rw [keeps_bind]
      have hr : Restoring hosts (quieted fleet) { t with phase := .restoring } := ⟨rfl, ht.owes⟩
      refine (restore_owed hr).mono (fun t _ ht => ?_) ?_
      · exact conclude_ended failed hm ht.owes
      · rintro t _ rfl
        exact ended_hung
    simp only [drive, Bool.not_false, Bool.and_true, if_true, keeps_bind, keeps_act]
    refine ⟨trivial, fun _ _ => ?_⟩
    have hw : Steady .preparing { t with phase := .preparing } :=
      ⟨rfl, fun e he => absurd he (by simp [h])⟩
    refine ((prepare_quiet fleet (hquiet _ _)).and (prepare_steady fleet hw)).mono
      (fun t _ hp => ?_) fun t s hs => hs.1.ended hs.2
    refine ⟨trivial, fun _ _ => ?_⟩
    have hu : Quiet hosts (quieted fleet) { t with phase := .uploading } :=
      ⟨hp.1.unstarted, hp.1.owes⟩
    refine (uploadAll_quiet _ attemptId height hu).mono (fun t failed ht => ?_) ?_
    · split
      · rw [keeps_bind, keeps_outcome]
        refine (writeMarker_quiet _ height ht).mono (fun t _ ht => ?_) ?_
        · exact restoring t failed (.ok ()) ht blameless_ok
        · rintro t _ ⟨ht, reason, rfl⟩
          exact restoring t failed (.error (.storage reason)) ht fun e he => by cases he; exact id
      · exact restoring t failed (.ok ()) ht blameless_ok
    · rintro t _ rfl
      exact ended_hung

theorem record_ended (p : Plant) (attemptId : Int) (height : UInt64) (h : t.events = []) :
    (record p attemptId height).Keeps (recorded hosts (Fault p.fleet)) t
      (fun t _ => Owes hosts [] t.events) (Ended hosts) := by
  have failing : ∀ (t : Trace) (e : Error), Ended hosts t (.failed e) →
      Keeps (recorded hosts (Fault p.fleet)) (do
        Job.act (.phase .failed)
        let _ ← Job.act (.audit (.finishAttempt attemptId .failed (some e.message)))
        Job.fail e : Job Audit.Attempt) t (fun t _ => Owes hosts [] t.events) (Ended hosts) := by
    intro t e ht
    simp only [keeps_bind, keeps_act, keeps_fail]
    exact ⟨trivial, fun _ _ => ⟨trivial, fun _ _ => ht⟩⟩
  simp only [record, keeps_bind, keeps_outcome, keeps_audit]
  refine (drive_ended p attemptId height h).mono (fun t _ ht => ?_) fun t s hs => ?_
  · refine ⟨trivial, fun _ _ => ?_, fun e he => ?_⟩
    · rw [keeps_act]
      refine ⟨trivial, fun _ _ => ⟨trivial, fun a _ => ?_, fun e he => ?_⟩⟩
      · cases a with
        | none => exact ended_of_owes id ht
        | some a => exact ht
      · exact ended_of_owes (he.1 e rfl).not_ofFleet ht
    · exact failing t e (ended_of_owes (he.1 e rfl).not_ofFleet ht)
  · cases s with
    | failed e => exact failing t e hs
    | hung => exact ended_hung

theorem run_ended (p : Plant) (height : UInt64) (h : t.events = []) :
    (run p height).Keeps (recorded hosts (Fault p.fleet)) t (fun t _ => Owes hosts [] t.events)
      (Ended hosts) := by
  have howes : Owes hosts [] t.events := h ▸ owes_nil
  simp only [run, keeps_bind, keeps_act]
  refine ⟨trivial, fun r hr => ?_⟩
  cases r with
  | error e =>
    refine ended_of_owes ?_ howes
    rw [hr.1 e rfl]
    exact id
  | ok _ =>
    refine leaving_keeps ?_
    simp only [keeps_bind, keeps_audit]
    refine ⟨trivial, fun a _ => ?_, fun e he => ⟨trivial, ?_⟩⟩
    · refine (record_ended (t := { t with phase := .idle }) p a.id height h).mono ?_ ?_
      · exact fun t _ ht => ⟨trivial, ht⟩
      · exact fun t s hs => ⟨trivial, hs⟩
    · exact ended_of_owes (he.1 e rfl).not_ofFleet howes

/-- Provided that no start fails, and no stop while the fleet is restored, an attempt that returns
has started again whatever it stopped, unless the nodes failed it. Then it was still preparing, and
nothing is started again. -/
theorem restarted_iff (p : Plant) (height : UInt64) (d : Deployment)
    (hreturns : (run p height).result d ≠ .error .hung)
    (hstart : ∀ node phase container reply,
      .command node phase (startCommand container) reply ∈ (run p height).events d →
        ∃ out, reply = .output out)
    (hstop : ∀ n ∈ p.fleet, ∀ reply,
      .command n.index .restoring (stopCommand n.target.containers.consensus false) reply ∈
          (run p height).events d → ∃ out, reply = .output out) :
    (Restarted ((run p height).events d) ↔
      (∀ e, (run p height).result d = .error (.failed e) → ¬ e.ofFleet) ∨
        ∀ e ∈ (run p height).events d, ∀ node container, ¬ e.Stops node container) ∧
    ∀ e, (run p height).result d = .error (.failed e) → e.ofFleet →
      Commanded .preparing ((run p height).events d) ∧
        ∀ e' ∈ (run p height).events d, ∀ node container, ¬ e'.Starts node container := by
  have hgood : ¬ ∃ e ∈ (run p height).events d, Fault p.fleet e := by
    rintro ⟨e, he, hfault⟩
    cases e with
    | command node phase text reply =>
      obtain ⟨hno, ⟨container, rfl⟩ | ⟨rfl, n, hn, rfl, rfl⟩⟩ := hfault
      · obtain ⟨out, rfl⟩ := hstart node phase container reply he
        exact hno out rfl
      · obtain ⟨out, rfl⟩ := hstop n hn reply he
        exact hno out rfl
    | _ => exact hfault
  obtain ⟨t, ht, hpost⟩ := (events_recorded (run_ended p height rfl)).resolve_left hgood
  rw [← ht]
  cases hr : (run p height).result d with
  | ok a =>
    rw [hr] at hpost
    exact ⟨⟨fun _ => Or.inl nofun, fun _ => hpost.restarted⟩, nofun⟩
  | error s =>
    rw [hr] at hpost
    cases s with
    | hung => exact absurd hr hreturns
    | failed e =>
      obtain ⟨hfleet, howes⟩ := hpost e rfl
      refine ⟨?_, fun e' he' hof => ?_⟩
      · by_cases he : e.ofFleet
        · rw [restarted_iff_unstopped (hfleet he).2]
          refine ⟨Or.inr, fun h => h.resolve_left fun hno => ?_⟩
          exact hno e rfl he
        · exact ⟨fun _ => Or.inl fun e' h => by cases h; exact he, fun _ => (howes he).restarted⟩
      · cases he'
        exact hfleet hof

def replied : Event → Bool
  | .command _ _ _ (.output _) => true
  | .command .. => false
  | _ => true

/-- Where every command has been replied to, no start or stop has failed. -/
theorem replied_of_all {es : List Event} {node : Nat} {phase : Phase} {text : String}
    {reply : Reply} (h : es.all replied = true) (he : .command node phase text reply ∈ es) :
    ∃ out, reply = .output out := by
  have hr := List.all_eq_true.1 h _ he
  cases reply with
  | output out => exact ⟨out, rfl⟩
  | _ => cases hr

/-- Every command is replied to, but the node does not tell its height. -/
theorem nullHost_replied : ((run lonePlant 1000).events (loneHost "null")).all replied = true := by
  decide +kernel

theorem nullHost_result : (run lonePlant 1000).result (loneHost "null") =
    .error (.failed (.commandFailed "geth-1" "invalid eth_blockNumber result 'null'")) := by rfl

/-- The marker is refused, and still the whole node is brought back. A node that does not tell its
height is not started again. -/
theorem restarted_without_marker :
    (∃ e ∈ (run lonePlant 1000).events (loneHost "0x3e8"), e.Stops 0 "execution") ∧
      Restarted ((run lonePlant 1000).events (loneHost "0x3e8")) ∧
      Commanded .preparing ((run lonePlant 1000).events (loneHost "null")) ∧
      ∀ e ∈ (run lonePlant 1000).events (loneHost "null"), ∀ node container,
        ¬ e.Starts node container := by
  have hall : ((run lonePlant 1000).events (loneHost "0x3e8")).all replied = true := by
    decide +kernel
  have hresult : (run lonePlant 1000).result (loneHost "0x3e8") =
      .error (.failed (.storage "failed to put latest")) := by rfl
  have hstops : Event.command 0 .preparing (stopCommand "execution" false) (.output "0x3e8") ∈
      (run lonePlant 1000).events (loneHost "0x3e8") := by decide +kernel
  have hback := restarted_iff lonePlant 1000 (loneHost "0x3e8") (by rw [hresult]; exact nofun)
    (fun _ _ _ _ => replied_of_all hall) fun _ _ _ => replied_of_all hall
  have hdown := restarted_iff lonePlant 1000 (loneHost "null") (by rw [nullHost_result]; exact nofun)
    (fun _ _ _ _ => replied_of_all nullHost_replied) fun _ _ _ => replied_of_all nullHost_replied
  refine ⟨⟨_, hstops, rfl, false, rfl⟩, hback.1.2 (Or.inl ?_), hdown.2 _ nullHost_result trivial⟩
  rw [hresult]
  rintro _ ⟨⟩
  exact id

/-- A node that does not tell its height ends the attempt, and its sidecar stays down. -/
theorem aborted_attempt_leaves_down :
    ¬ ∀ (p : Plant) (height : UInt64) (d : Deployment), p.dryRun = false →
      (run p height).result d ≠ .error .hung →
      (∀ node phase container reply,
        .command node phase (startCommand container) reply ∈ (run p height).events d →
          ∃ out, reply = .output out) →
      (∀ n ∈ p.fleet, ∀ reply,
        .command n.index .restoring (stopCommand n.target.containers.consensus false) reply ∈
            (run p height).events d → ∃ out, reply = .output out) →
      Restarted ((run p height).events d) := by
  intro h
  have hevents : (run lonePlant 1000).events (loneHost "null") =
      [.command 0 .preparing (stopCommand "snooper-engine" true) (.output "null"),
        .command 0 .preparing (loneNode.rpcCommand (requestOf "eth_blockNumber"))
          (.output "null")] := by decide +kernel
  have hrestarted := h lonePlant 1000 (loneHost "null") rfl (by rw [nullHost_result]; exact nofun)
    (fun _ _ _ _ => replied_of_all nullHost_replied) fun _ _ _ => replied_of_all nullHost_replied
  rw [hevents] at hrestarted
  obtain ⟨e, he, hs⟩ := hrestarted [] _ _ 0 "snooper-engine" rfl ⟨rfl, true, rfl⟩
  rw [List.mem_singleton.1 he] at hs
  exact ((foreign_rpcCommand _ _).idle _).1 hs.2

end Capture

end FleetSnapshot
