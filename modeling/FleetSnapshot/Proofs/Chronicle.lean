import FleetSnapshot.Proofs.Admission
import FleetSnapshot.Proofs.Lifespan
import FleetSnapshot.Proofs.Verdict

/-! Records that can be read back, in the order in which they were put down. As long as the clock tells
times that can be read, every attempt finds the records so and leaves them so, and the most recent
attempt is the one that was put down last. -/

namespace FleetSnapshot

open Audit Capture

theorem Audit.Stamp.le_antisymm {t t' : Stamp} (h : Stamp.le t t' = true)
    (h' : Stamp.le t' t = true) : t = t' := by
  cases t with
  | number q =>
    cases t' with
    | number q' =>
      simp only [Stamp.le, decide_eq_true_eq] at h h'
      rw [Rat.le_antisymm h h']
    | text s' => exact absurd h' Bool.false_ne_true
  | text s =>
    cases t' with
    | number q' => exact absurd h Bool.false_ne_true
    | text s' =>
      simp only [Stamp.le, Bool.not_eq_true', decide_eq_false_iff_not] at h h'
      rw [String.le_antisymm h' h]

/-- If everything before the last element is to stand behind it, it is the first once sorted. -/
theorem Order.sort_snoc {α : Type} {le : α → α → Bool} {init : List α} {last : α}
    (h : ∀ a ∈ init, le a last = false) : ∃ rest, sort le (init ++ [last]) = last :: rest := by
  induction init with
  | nil => exact ⟨[], rfl⟩
  | cons a init ih =>
    rw [List.forall_mem_cons] at h
    obtain ⟨rest, hrest⟩ := ih h.2
    refine ⟨insert le a rest, ?_⟩
    rw [List.cons_append, sort, hrest, insert, if_neg (by simp [h.1])]

/-- A row that was put down before another one, at the same time at the latest, is the earlier one. -/
theorem Audit.AttemptRow.not_latestFirst {r r' : AttemptRow} (hid : r.id < r'.id)
    (htime : Stamp.le r.startTime r'.startTime = true) : r.latestFirst r' = false := by
  unfold AttemptRow.latestFirst Audit.latestFirst
  split
  case isTrue => exact decide_eq_false (by omega)
  case isFalse hne =>
    rw [← Bool.not_eq_true]
    exact fun h => hne (Stamp.le_antisymm htime h)

/-- The times of the clock can be read back. -/
def Audit.Store.Telling (s : Store) : Prop :=
  ∀ k, (Stamp.ofInstant (s.clock k)).instant?.isSome = true

structure Chronicle (s : Store) : Prop where
  filed : Filed s
  ready : s.Ready
  telling : s.Telling
  inOrder : (s.attempts.map (·.id)).Pairwise (· < ·)
  attempts : ∀ r ∈ s.attempts, ∃ a, r.read = .ok a
  uploads : ∀ r ∈ s.uploads, ∃ u, r.read = .ok u

namespace Chronicle

variable {s : Store}

theorem fresh (ht : s.tables = {}) (htriggers : s.triggers = []) (hrefusals : s.refusals = [])
    (htelling : s.Telling) : Chronicle s := by
  have hfiled := Filed.fresh ht htriggers
  have hattempts : s.attempts = [] := by rw [Store.attempts, ht, Option.getD_some]
  have huploads : s.uploads = [] := by rw [Store.uploads, ht, Option.getD_some]
  refine ⟨hfiled, ⟨htriggers, hrefusals, hfiled.plain.attemptTable, hfiled.plain.uploadTable⟩,
    htelling, ?_, ?_, ?_⟩
  · simp [hattempts]
  · simp [hattempts]
  · simp [huploads]

theorem running_read : ∃ p, readStatus Progress.running.text = .ok p :=
  ⟨.running, by simp [readStatus, Progress.ofText?_text]⟩

section Readable

variable (h : s.Telling) (k : Nat)

include h

theorem start_read (column : String) : ∃ t, (Stamp.ofInstant (s.clock k)).read column = .ok t :=
  legible_read (h k) column

theorem attempt_ended {r : AttemptRow} (hr : ∃ a, r.read = .ok a) (status : Progress)
    (message : Option String) : ∃ a, (r.ended status message (s.clock k)).read = .ok a :=
  (AttemptRow.readable_iff _).2 (readable_ended status ((AttemptRow.readable_iff r).1 hr).1 (h k))

theorem upload_ended {r : UploadRow} (hr : ∃ u, r.read = .ok u) (status : Progress)
    (message : Option String) : ∃ u, (r.ended status message (s.clock k)).read = .ok u :=
  (UploadRow.readable_iff _).2 (readable_ended status ((UploadRow.readable_iff r).1 hr).1 (h k))

end Readable

/-- The clock has been read. -/
theorem tick (h : Chronicle s) (ticks : Nat) : Chronicle { s with ticks } :=
  ⟨h.filed.touches (Touches.of_same rfl rfl),
    ⟨h.ready.triggers, h.ready.refusals, h.ready.attemptTable, h.ready.uploadTable⟩,
    h.telling, h.inOrder, h.attempts, h.uploads⟩

theorem addAttempt (h : Chronicle s) (height : UInt64) (dryRun : Bool) :
    Chronicle (s.addAttempt (s.newAttempt height dryRun)) := by
  have hfiled : Filed (s.addAttempt (s.newAttempt height dryRun)) := h.filed.addAttempt rfl
  refine ⟨hfiled, hfiled.plain.ready h.ready (List.tail_suffix _), h.telling, ?_, ?_, h.uploads⟩
  · change ((s.attempts ++ [s.newAttempt height dryRun]).map (·.id)).Pairwise (· < ·)
    rw [List.map_append, List.pairwise_append]
    refine ⟨h.inOrder, List.pairwise_singleton _ _, fun id hid id' hid' => ?_⟩
    obtain ⟨r, hr, rfl⟩ := List.mem_map.1 hid
    rw [List.map_singleton, List.mem_singleton] at hid'
    have hbound := h.filed.attemptBound r hr
    have hnew : id' = s.tables.lastAttempt + 1 := hid'
    omega
  · intro r hr
    rcases List.mem_append.1 hr with hr | hr
    · exact h.attempts r hr
    · rw [List.mem_singleton.1 hr]
      exact (AttemptRow.readable_iff _).2 ⟨start_read h.telling _ _, ⟨none, rfl⟩, running_read⟩

theorem addUpload (h : Chronicle s) {attemptId : Int} (howned : ∃ a ∈ s.attempts, a.id = attemptId)
    (target pre : String) (dryRun : Bool) :
    Chronicle (s.addUpload (s.newUpload attemptId target pre dryRun)) := by
  have hfiled : Filed (s.addUpload (s.newUpload attemptId target pre dryRun)) :=
    h.filed.addUpload rfl howned
  refine ⟨hfiled, hfiled.plain.ready h.ready (List.tail_suffix _), h.telling, h.inOrder, h.attempts,
    fun r hr => ?_⟩
  rcases List.mem_append.1 hr with hr | hr
  · exact h.uploads r hr
  · rw [List.mem_singleton.1 hr]
    exact (UploadRow.readable_iff _).2 ⟨start_read h.telling _ _, ⟨none, rfl⟩, running_read⟩

theorem finishUpload (h : Chronicle s) (id : Int) (status : Progress) (message : Option String) :
    Chronicle (finishUpload id status message s).2 := by
  have hfiled := h.filed.touches (finishUpload_touches id status message s)
  have hready := hfiled.plain.ready h.ready (Op.spends (.finishUpload id status message) s)
  rw [finishUpload_plain h.filed.plain, h.ready.refusal] at hfiled hready ⊢
  refine ⟨hfiled, hready, h.telling, h.inOrder, h.attempts, fun r hr => ?_⟩
  rw [Store.mapUploads_uploads] at hr
  obtain ⟨row, hrow, rfl⟩ := List.mem_map.1 hr
  split
  · exact upload_ended h.telling s.ticks (h.uploads row hrow) status message
  · exact h.uploads row hrow

theorem finishAttempt (h : Chronicle s) (id : Int) (status : Progress) (message : Option String) :
    Chronicle (finishAttempt id status message s).2 := by
  have hfiled := h.filed.touches (finishAttempt_touches id status message s)
  have hready := hfiled.plain.ready h.ready (Op.spends (.finishAttempt id status message) s)
  rw [finishAttempt_plain h.filed.plain, h.ready.refusal] at hfiled hready ⊢
  refine ⟨hfiled, hready, h.telling, ?_, fun r hr => ?_, h.uploads⟩
  · have hid : ((fun r : AttemptRow => r.id) ∘ fun r =>
        if r.id == id && r.status == Progress.running.text then
          { r with
            status := status.text
            endTime := some (.ofInstant (s.clock s.ticks))
            errorMessage := message }
        else r) = fun r => r.id := by
      funext r
      dsimp only [Function.comp]
      split <;> rfl
    rw [Store.mapAttempts_attempts, List.map_map, hid]
    exact h.inOrder
  · rw [Store.mapAttempts_attempts] at hr
    obtain ⟨row, hrow, rfl⟩ := List.mem_map.1 hr
    split
    · exact attempt_ended h.telling s.ticks (h.attempts row hrow) status message
    · exact h.attempts row hrow

/-- The most recent attempt is the one that was put down last, if none began later. -/
theorem mostRecent (h : Chronicle s)
    (hlater : (s.attempts.map (·.startTime)).Pairwise (Stamp.le · · = true)) :
    (s.attempts = [] ∧ Audit.mostRecent s = (.ok none, s)) ∨
      ∃ last a, s.attempts.getLast? = some last ∧ a.height = last.height.toUInt64 ∧
        Audit.mostRecent s = (.ok (some a), s) := by
  rcases List.eq_nil_or_concat s.attempts with hnone | ⟨init, last, hrows⟩
  · refine Or.inl ⟨hnone, ?_⟩
    rw [Audit.mostRecent, Query.bind_apply, selectAttempts_ready h.ready, hnone]
    rfl
  · rw [List.concat_eq_append] at hrows
    have hmem : last ∈ s.attempts := hrows ▸ List.mem_append_right _ List.mem_cons_self
    have hbehind : ∀ r ∈ init, r.latestFirst last = false := by
      intro r hr
      have hids := h.inOrder
      rw [hrows, List.map_append, List.pairwise_append] at hids hlater
      exact AttemptRow.not_latestFirst
        (hids.2.2 _ (List.mem_map_of_mem hr) _ List.mem_cons_self)
        (hlater.2.2 _ (List.mem_map_of_mem hr) _ List.mem_cons_self)
    obtain ⟨rest, hsort⟩ := Order.sort_snoc hbehind
    obtain ⟨x, hx⟩ := h.attempts last hmem
    obtain ⟨a, hrecords⟩ := exists_records hx fun u hu _ => h.uploads u hu
    refine Or.inr ⟨last, a, by rw [hrows, List.getLast?_concat], hrecords.reads.height, ?_⟩
    rw [Audit.mostRecent, Query.bind_apply, selectAttempts_ready h.ready, hrows]
    simp only [hsort, Query.bind_apply, attemptWithUploads_ready h.ready hrecords, Query.pure_apply]

end Chronicle

/-- Behind the rows there were stands that of an attempt under way, whatever it has come to. -/
structure Follows (s₀ : Store) (a₀ : AttemptRow) (s : Store) : Prop where
  chronicle : Chronicle s
  attempts : ∃ a, a.fixed = a₀.fixed ∧ s.attempts = s₀.attempts ++ [a]

namespace Follows

variable {s₀ s : Store} {a₀ : AttemptRow}

theorem of_create (h : Chronicle s) (height : UInt64) (dryRun : Bool) :
    Follows s (s.newAttempt height dryRun) (s.addAttempt (s.newAttempt height dryRun)) :=
  ⟨h.addAttempt height dryRun, _, rfl, rfl⟩

theorem createUpload (h : Follows s₀ a₀ s) (target pre : String) (dryRun : Bool) :
    Follows s₀ a₀ (createUpload a₀.id target pre dryRun s).2 := by
  obtain ⟨a, ha, hattempts⟩ := h.attempts
  have howned : ∃ r ∈ s.attempts, r.id = a₀.id := by
    rw [hattempts]
    exact ⟨a, List.mem_append_right _ List.mem_cons_self, congrArg Prod.fst ha⟩
  obtain ⟨u, -, hs⟩ := createUpload_goes h.chronicle.filed.plain h.chronicle.ready.refusal howned
    target pre dryRun
  rw [hs]
  exact ⟨h.chronicle.addUpload howned target pre dryRun, a, ha, hattempts⟩

theorem finishUpload (h : Follows s₀ a₀ s) (id : Int) (status : Progress) (message : Option String) :
    Follows s₀ a₀ (finishUpload id status message s).2 := by
  refine ⟨h.chronicle.finishUpload id status message, ?_⟩
  rw [show (Audit.finishUpload id status message s).2.attempts = s.attempts from
    finishUpload_attempts h.chronicle.filed.plain id status message]
  exact h.attempts

/-- The end of the attempt goes into its row, and no other row has its number. -/
theorem finishAttempt (h : Follows s₀ a₀ s) (status : Progress) (message : Option String) :
    Follows s₀ a₀ (finishAttempt a₀.id status message s).2 := by
  refine ⟨h.chronicle.finishAttempt a₀.id status message, ?_⟩
  obtain ⟨a, ha, hattempts⟩ := h.attempts
  have hid : a.id = a₀.id := congrArg Prod.fst ha
  have hn := h.chronicle.filed.numbered.attempts
  rw [hattempts] at hn
  rw [finishAttempt_plain h.chronicle.filed.plain, h.chronicle.ready.refusal,
    Store.mapAttempts_attempts]
  change ∃ a : AttemptRow, a.fixed = a₀.fixed ∧ s.attempts.map _ = _
  rw [hattempts, map_last hn]
  · refine ⟨_, ?_, rfl⟩
    split
    · exact ha
    · exact ha
  · intro r hne
    rw [if_neg (by simp [← hid, hne])]

theorem getAttempt (h : Follows s₀ a₀ s) (id : Int) : Follows s₀ a₀ (getAttempt id s).2 := by
  rw [getAttempt_still id s h.chronicle.ready]
  exact h

end Follows

namespace Capture

open Job

/-- What is done between the record of an attempt and its end. -/
def attempting (attemptId : Int) : Discipline Unit where
  allows _ act := match act with
    | .command _ _ | .put _ _ | .phase _ => True
    | .audit (.createUpload id _ _ _) | .audit (.finishAttempt id _ _) => id = attemptId
    | .audit (.finishUpload _ _ _) | .audit (.getAttempt _) => True
    | _ => False
  after c _ _ := c

theorem attempting_unphased (attemptId : Int) : (attempting attemptId).Unphased :=
  fun _ _ => ⟨trivial, fun _ => rfl⟩

theorem attempting_overlooks (p : Plant) (attemptId : Int) (height : UInt64) :
    Overlooks (attempting attemptId) () p attemptId height where
  createUpload _ := ⟨rfl, fun _ => rfl⟩
  finishUpload _ _ _ := ⟨trivial, fun _ => rfl⟩

theorem record_stays (p : Plant) (attemptId : Int) (height : UInt64) :
    Stays (attempting attemptId) () (record p attemptId height) := by
  have hdrive : Stays (attempting attemptId) () (drive p attemptId height) :=
    drive_stays (fun _ _ _ => ⟨trivial, fun _ => rfl⟩) (attempting_unphased attemptId)
      (attempting_overlooks p attemptId height) ⟨trivial, fun _ => rfl⟩
  have hconcludes : Concludes (attempting attemptId) attemptId (· = ()) (· = ()) (· = ()) :=
    ⟨fun _ => ⟨rfl, fun r _ => by cases r <;> rfl⟩, fun _ _ => ⟨rfl, fun _ _ => rfl⟩,
      fun _ => ⟨trivial, fun _ _ => rfl⟩⟩
  exact (record_keeps (attempting_unphased attemptId) hconcludes hdrive).mono (fun _ _ h => h)
    fun _ _ _ => rfl

/-- An attempt is under way, and the heights that the fleet agreed on are as they were. -/
structure Attempting (s₀ : Store) (a₀ : AttemptRow) (g : Gate) (d : Deployment) : Prop where
  follows : Follows s₀ a₀ d.store
  processed : d.gate.processedHeight = g.processedHeight
  next : d.gate.nextHeight = g.nextHeight

theorem Attempting.perform {β : Type} {act : Act β} {s₀ : Store} {a₀ : AttemptRow} {g : Gate}
    {d : Deployment} (h : Attempting s₀ a₀ g d) (hallows : (attempting a₀.id).allows () act) :
    Attempting s₀ a₀ g (d.perform act).2 := by
  obtain ⟨hfollows, hprocessed, hnext⟩ := h
  cases act with
  | command node text =>
    simp only [Deployment.perform, Deployment.command]
    split <;> exact ⟨hfollows, hprocessed, hnext⟩
  | put key text =>
    simp only [Deployment.perform, Deployment.put]
    split <;> exact ⟨hfollows, hprocessed, hnext⟩
  | phase φ => exact ⟨hfollows, hprocessed, hnext⟩
  | audit op =>
    refine ⟨?_, hprocessed, hnext⟩
    cases op with
    | createUpload id target pre dryRun =>
      obtain rfl : id = a₀.id := hallows
      exact hfollows.createUpload target pre dryRun
    | finishUpload id status message => exact hfollows.finishUpload id status message
    | finishAttempt id status message =>
      obtain rfl : id = a₀.id := hallows
      exact hfollows.finishAttempt status message
    | getAttempt id => exact hfollows.getAttempt id
    | _ => exact hallows.elim
  | _ => exact hallows.elim

/-- What an attempt that finds the gate free leaves of the records and of the gate, whatever comes of
it. -/
structure Attempted (height : UInt64) (d d' : Deployment) : Prop where
  chronicle : Chronicle d'.store
  row : ∃ a, a.height = height.toInt64 ∧ d'.store.attempts = d.store.attempts ++ [a]
  free : d'.gate.inProgress = false
  processed : d'.gate.processedHeight = d.gate.processedHeight
  next : d'.gate.nextHeight = d.gate.nextHeight

def started (p : Plant) (height : UInt64) (d : Deployment) : Deployment :=
  let s := { d.store with ticks := d.store.ticks + 1 }
  { d with
    gate := { d.gate with
      inProgress := true, phase := .idle, startedAt := some (d.store.clock d.store.ticks) }
    store := s.addAttempt (s.newAttempt height p.dryRun) }

theorem perform_run (p : Plant) (height : UInt64) {d : Deployment} (h : d.store.Plain)
    (hgoes : d.store.refusal? = none) (hfree : d.gate.inProgress = false) :
    let ran := (record p (d.store.tables.lastAttempt + 1) height).perform (started p height d)
    (run p height).perform d = (ran.1, (ran.2.perform .leave).2) := by
  let s := { d.store with ticks := d.store.ticks + 1 }
  have henter : d.perform .enter = (.ok (), { d with
      gate := { d.gate with
        inProgress := true, phase := .idle, startedAt := some (d.store.clock d.store.ticks) }
      store := s }) := by
    simp [Deployment.perform, Deployment.enter, Gate.enter, hfree, s]
  have hs : s.Plain := ⟨h.triggers, h.attemptTable, h.uploadTable⟩
  obtain ⟨a, ha, hcreated⟩ := createAttempt_goes hs hgoes height p.dryRun
  rw [run, perform_bind, perform_act, henter]
  simp only [perform_bind, perform_ofExcept, Except.mapError, perform_leaving, perform_audit]
  rw [show (Op.createAttempt height p.dryRun).run s = _ from hcreated]
  simp only [show a.id = d.store.tables.lastAttempt + 1 from ha]
  rfl

theorem run_attempted (p : Plant) (height : UInt64) {d : Deployment} (h : Chronicle d.store)
    (hfree : d.gate.inProgress = false) : Attempted height d ((run p height).perform d).2 := by
  let s := { d.store with ticks := d.store.ticks + 1 }
  let a₀ := s.newAttempt height p.dryRun
  have hs : Chronicle s := h.tick _
  have hstart : Attempting s a₀ d.gate (started p height d) :=
    ⟨.of_create hs height p.dryRun, rfl, rfl⟩
  obtain ⟨-, hend, -⟩ := Plan.run_maintains (I := fun _ => Attempting s a₀ d.gate)
    (fun act _ _ hallows h => ⟨trivial, h.perform hallows⟩) _ (record_stays p a₀.id height).anyhow
    hstart
  obtain ⟨row, hrow, hattempts⟩ := hend.follows.attempts
  rw [perform_run p height h.filed.plain h.ready.refusal hfree]
  exact ⟨hend.follows.chronicle, ⟨row, congrArg (·.2.1) hrow, hattempts⟩, rfl, hend.processed,
    hend.next⟩

end Capture

end FleetSnapshot
