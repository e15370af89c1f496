import FleetSnapshot.Proofs.Inert
import FleetSnapshot.Proofs.Removed

/-! The course of a rehearsed attempt that the audit store puts nothing in the way of. Whatever the
nodes are like, it is on record as a success, with one successful upload for each of them. -/

namespace FleetSnapshot

open Audit Job

namespace Capture

structure Played (attemptId : Int) (height : UInt64) (n : Node) (u : UploadRow) : Prop where
  attemptId : u.attemptId = attemptId
  target : u.target = n.target.name
  uploadPrefix : u.uploadPrefix = uploadPrefix n height
  status : u.status = Progress.success.text
  message : u.errorMessage = none
  ended : u.endTime.isSome = true
  dryRun : u.dryRun = true

/-- A rehearsed attempt on record: a success, with one upload for each node, in their order. -/
structure Staged (p : Plant) (height : UInt64) (s s' : Store) (a : Attempt) (row : AttemptRow)
    (rows : List UploadRow) : Prop where
  attempts : s'.attempts = s.attempts ++ [row]
  uploads : s'.uploads = s.uploads ++ rows
  records : Records s' row a
  played : List.Forall₂ (Played row.id height) p.fleet rows
  height : row.height = height.toInt64
  status : row.status = Progress.success.text
  message : row.errorMessage = none
  ended : row.endTime.isSome = true
  dryRun : row.dryRun = true

/-- An attempt is under way that the audit store puts nothing in the way of. -/
structure Unhindered (s₀ : Store) (a : AttemptRow) (us : List UploadRow) (s : Store) : Prop where
  underway : Underway s₀ a us s
  ready : s.Ready
  telling : s.Telling
  readable : ∀ u ∈ us, ∃ x, u.read = .ok x

section Stage

variable {s₀ : Store} {a : AttemptRow} {us : List UploadRow} {d : Deployment}

theorem Unhindered.addUpload {s : Store} (h : Unhindered s₀ a us s) (target pre : String) :
    Unhindered s₀ a (us ++ [s.newUpload a.id target pre true])
      (s.addUpload (s.newUpload a.id target pre true)) := by
  have hadded := h.underway.addUpload target pre true
  refine ⟨hadded, hadded.filed.plain.ready h.ready (List.tail_suffix _), h.telling, fun u hu => ?_⟩
  rcases List.mem_append.1 hu with hu | hu
  · exact h.readable u hu
  · rw [List.mem_singleton.1 hu]
    exact (UploadRow.readable_iff _).2 ⟨Chronicle.start_read h.telling _ _, ⟨none, rfl⟩,
      Chronicle.running_read⟩

theorem Unhindered.endUpload {s : Store} {u : UploadRow} (h : Unhindered s₀ a (us ++ [u]) s)
    (hrunning : u.status = Progress.running.text) :
    Unhindered s₀ a (us ++ [u.ended .success none (s.clock s.ticks)])
      (finishUpload u.id .success none s).2 := by
  have hended := h.underway.endUpload hrunning h.ready.refusal .success none
  have hclock : (finishUpload u.id .success none s).2.clock = s.clock := by
    rw [finishUpload_plain h.underway.filed.plain, h.ready.refusal]
    rfl
  refine ⟨hended, hended.filed.plain.ready h.ready (Op.spends (.finishUpload u.id .success none) s),
    fun k => ?_, fun r hr => ?_⟩
  · rw [hclock]
    exact h.telling k
  · rcases List.mem_append.1 hr with hr | hr
    · exact h.readable r (List.mem_append_left _ hr)
    · rw [List.mem_singleton.1 hr]
      exact Chronicle.upload_ended h.telling s.ticks
        (h.readable u (List.mem_append_right _ List.mem_cons_self)) .success none

/-- The upload of a node goes on record as a success, and that is all. -/
theorem uploadOne_played (h : Unhindered s₀ a us d.store) (height : UInt64) (n : Node) :
    ∃ u s, (uploadOne true a.id height n).perform d = (.ok none, { d with store := s }) ∧
      Played a.id height n u ∧ Unhindered s₀ a (us ++ [u]) s := by
  have howned : ∃ a' ∈ d.store.attempts, a'.id = a.id := by
    rw [h.underway.attempts]
    exact ⟨a, List.mem_append_right _ List.mem_cons_self, rfl⟩
  obtain ⟨u, hid, hcreated⟩ := createUpload_goes h.underway.filed.plain h.ready.refusal howned
    n.target.name (uploadPrefix n height) true
  let row := d.store.newUpload a.id n.target.name (uploadPrefix n height) true
  let s := d.store.addUpload row
  have hcreate : d.perform
      (.audit (.createUpload a.id n.target.name (uploadPrefix n height) true)) =
        (.ok u, { d with store := s }) :=
    congrArg (fun x => (x.1, { d with store := x.2 })) hcreated
  have hadded : Unhindered s₀ a (us ++ [row]) s := h.addUpload _ _
  refine ⟨_, _, ?_, ?_, hadded.endUpload rfl⟩
  · rw [uploadOne_eq, perform_bind, perform_act, hcreate]
    dsimp only
    rw [show u.id = row.id from hid]
    rfl
  · exact ⟨rfl, rfl, rfl, rfl, rfl, rfl, rfl⟩

theorem all_played (h : Unhindered s₀ a us d.store) (height : UInt64) (fleet : List Node) :
    ∃ rows s, (all (fleet.map (uploadOne true a.id height))).perform d =
        (.ok (fleet.map fun _ => none), { d with store := s }) ∧
      List.Forall₂ (Played a.id height) fleet rows ∧ Unhindered s₀ a (us ++ rows) s := by
  induction fleet generalizing us d with
  | nil => exact ⟨[], d.store, rfl, .nil, by rwa [List.append_nil]⟩
  | cons n ns ih =>
    obtain ⟨u, s, hrun, hplayed, hone⟩ := uploadOne_played h height n
    obtain ⟨rows, s', hrun', hplayed', hall⟩ := ih (d := { d with store := s }) hone
    refine ⟨u :: rows, s', ?_, .cons hplayed hplayed', ?_⟩
    · rw [perform_all_cons, hrun, hrun']
      rfl
    · rwa [List.append_assoc, List.singleton_append] at hall

variable {p : Plant}

/-- No upload has failed, and there is neither a marker to put nor a fleet to restore. -/
theorem drive_played (hdry : p.dryRun = true) (h : Unhindered s₀ a [] d.store) (height : UInt64) :
    ∃ rows s, (drive p a.id height).perform d =
        (.ok (), { d with gate := { d.gate with phase := .uploading }, store := s }) ∧
      List.Forall₂ (Played a.id height) p.fleet rows ∧ Unhindered s₀ a rows s := by
  let d₁ : Deployment := { d with gate := { d.gate with phase := .uploading } }
  obtain ⟨rows, s, hrun, hplayed, hall⟩ := all_played (d := d₁) h height p.fleet
  refine ⟨rows, s, ?_, hplayed, hall⟩
  have hnone : (p.fleet.map fun _ => none).filterMap id = ([] : List String) := by simp
  have huploads : (uploadAll p a.id height).perform d₁ = (.ok [], { d₁ with store := s }) := by
    rw [uploadAll, hdry, perform_bind, hrun, ← hnone]
    rfl
  unfold drive
  simp only [hdry, Bool.not_true, Bool.false_eq_true, Bool.and_false, if_false]
  rw [perform_bind, perform_act, show d.perform (.phase .uploading) = ((), d₁) from rfl]
  dsimp only
  rw [perform_bind, huploads]
  rfl

/-- Success is recorded, and the record read back. -/
theorem record_played (hdry : p.dryRun = true) (hs₀ : Filed s₀)
    (hnew : a.id ∉ s₀.attempts.map (·.id)) (hrunning : a.status = Progress.running.text)
    (hread : ∃ x, a.read = .ok x) (h : Unhindered s₀ a [] d.store) (height : UInt64) :
    ∃ x t rows s, (record p a.id height).perform d =
        (.ok x, { d with gate := { d.gate with phase := .success }, store := s }) ∧
      Underway s₀ (a.ended .success none t) rows s ∧ Records s (a.ended .success none t) x ∧
      List.Forall₂ (Played a.id height) p.fleet rows := by
  obtain ⟨rows, s, hdrive, hplayed, hall⟩ := drive_played hdry h height
  have hended := hall.underway.endAttempt hrunning hall.ready.refusal .success none
  have hready := hended.filed.plain.ready hall.ready (Op.spends (.finishAttempt a.id .success none) s)
  have hfinish : (finishAttempt a.id .success none s).1 = .ok () := by
    rw [finishAttempt_plain hall.underway.filed.plain, hall.ready.refusal]
  obtain ⟨x, hrecords, hget⟩ := read_back hended hs₀ hnew
    (Chronicle.attempt_ended hall.telling s.ticks hread .success none) hall.readable hready.refusal
    (by rw [hready.begun, hready.refusal])
  rw [hready.begun, hready.begun] at hget
  refine ⟨x, _, rows, _, ?_, hended, hrecords, hplayed⟩
  have hop : (Op.finishAttempt a.id .success none).run s =
      (.ok (), (finishAttempt a.id .success none s).2) := Prod.ext hfinish rfl
  rw [record, perform_bind, perform_outcome, perform_bind, hdrive]
  dsimp only
  rw [perform_audit, hop]
  dsimp only [Except.mapError]
  rw [perform_bind, perform_act]
  dsimp only [Deployment.perform]
  rw [perform_bind, perform_audit, show (Op.getAttempt a.id).run _ = _ from hget]
  rfl

/-- A rehearsed attempt that finds the gate free and an audit store that refuses nothing. -/
theorem run_staged (hdry : p.dryRun = true) (hfiled : Filed d.store) (hready : d.store.Ready)
    (htelling : d.store.Telling) (hfree : d.gate.inProgress = false) (height : UInt64) :
    ∃ x row rows, (run p height).result d = .ok x ∧
      Staged p height d.store ((run p height).perform d).2.store x row rows ∧
      ((run p height).perform d).2.gate.inProgress = false := by
  let s := { d.store with ticks := d.store.ticks + 1 }
  let a := s.newAttempt height true
  have hs : Filed s := hfiled.touches (Touches.of_same rfl rfl)
  have hadded := Underway.of_create hs height true
  have hstart : Unhindered s a [] (started p height d).store := by
    rw [started, hdry]
    exact ⟨hadded, hadded.filed.plain.ready (hs.plain.ready hready (List.suffix_refl _))
      (List.tail_suffix _), htelling, List.forall_mem_nil _⟩
  have hread : ∃ x, a.read = .ok x := (AttemptRow.readable_iff _).2
    ⟨Chronicle.start_read htelling _ _, ⟨none, rfl⟩, Chronicle.running_read⟩
  have hnew : a.id ∉ s.attempts.map (·.id) := firstRow_new hfiled height
  obtain ⟨x, t, rows, s', hrecord, hended, hrecords, hplayed⟩ :=
    record_played hdry hs hnew rfl hread hstart height
  have hran : (record p (d.store.tables.lastAttempt + 1) height).perform (started p height d) = _ :=
    hrecord
  rw [result, perform_run p height hfiled.plain hready.refusal hfree, hran]
  exact ⟨x, _, rows, rfl, ⟨hended.attempts, hended.uploads, hrecords, hplayed, rfl, rfl, rfl, rfl, rfl⟩,
    rfl⟩

end Stage

end Capture

namespace Watch

/-- Once the fleet is in step nothing is done yet, or an attempt is rehearsed that succeeds. -/
theorem heed_staged {p : Capture.Plant} {d : Deployment} (hdry : p.dryRun = true)
    (hfiled : Filed d.store) (hready : d.store.Ready) (htelling : d.store.Telling)
    (hfree : d.gate.inProgress = false) (interval height : UInt64) :
    (heed p interval height).perform d = (.ok (.waiting height (blocksLeft height interval)),
        { d with gate := d.gate.agreed height (height + blocksLeft height interval) }) ∨
      ∃ x row rows d', (heed p interval height).perform d = (.ok (.triggered height (.ok x)), d') ∧
        Capture.Staged p height d.store d'.store x row rows ∧ d'.gate.inProgress = false := by
  let d₁ := { d with gate := d.gate.agreed height (height + blocksLeft height interval) }
  have hheed := heed_perform p interval height hready
  dsimp only at hheed
  split at hheed
  · exact Or.inl hheed
  · obtain ⟨x, row, rows, hrun, hstaged, hleft⟩ :=
      Capture.run_staged (d := d₁) hdry hfiled hready htelling hfree height
    have hperform : (Capture.run p height).perform d₁ =
        (.ok x, ((Capture.run p height).perform d₁).2) := Prod.ext hrun rfl
    rw [hperform] at hheed
    exact Or.inr ⟨x, row, rows, _, hheed, hstaged, hleft⟩

end Watch

/-- The errand makes no attempt, or one that is on record as a success. -/
def Errand.Succeeds (p : Capture.Plant) (found left : Deployment) : Errand → Prop
  | .tick interval =>
    (left.store.tables = found.store.tables ∧
      ∀ height x, (Watch.tick p interval).result found ≠ .ok (.triggered height x)) ∨
    ∃ height x row rows, (Watch.tick p interval).result found = .ok (.triggered height (.ok x)) ∧
      Capture.Staged p height found.store left.store x row rows
  | .attempt height => ∃ x row rows, (Capture.run p height).result found = .ok x ∧
      Capture.Staged p height found.store left.store x row rows
  | .cleanup _ _ => left.store.tables = found.store.tables

section Errands

variable {p : Capture.Plant} {d : Deployment}

theorem Watch.tick_succeeds (hdry : p.dryRun = true) (hfiled : Filed d.store) (hready : d.store.Ready)
    (htelling : d.store.Telling) (hfree : d.gate.inProgress = false) (interval : UInt64) :
    (Errand.tick interval).Succeeds p d ((tick p interval).perform d).2 ∧
      ((tick p interval).perform d).2.gate.inProgress = false := by
  have hasked := (Agreement.check_asked p.fleet d).1
  simp only [Errand.Succeeds, result, perform_tick]
  rcases hcheck : (Agreement.check p.fleet).perform d with ⟨stop | _ | height, d₁⟩ <;>
    rw [hcheck] at hasked <;> obtain ⟨hosts, es, rfl, -⟩ := hasked <;> dsimp only
  · exact ⟨Or.inl ⟨rfl, fun _ _ h => by cases h⟩, hfree⟩
  · exact ⟨Or.inl ⟨rfl, fun _ _ h => by cases h⟩, hfree⟩
  · rcases heed_staged (p := p) (d := { d with hosts, journal := d.journal ++ es }) hdry hfiled
      hready htelling hfree interval height with hearly | ⟨x, row, rows, d', hmade, hstaged, hleft⟩
    · rw [hearly]
      exact ⟨Or.inl ⟨rfl, fun _ _ h => by cases h⟩, hfree⟩
    · rw [hmade]
      exact ⟨Or.inr ⟨height, x, row, rows, rfl, hstaged⟩, hleft⟩

/-- One errand that is rehearsed while nobody is let in and the audit store refuses nothing. -/
theorem Errand.succeeds (hdry : p.dryRun = true) (hfiled : Filed d.store) (hready : d.store.Ready)
    (htelling : d.store.Telling) (hfree : d.gate.inProgress = false) (e : Errand) :
    e.Succeeds p d (e.perform p d) ∧ (e.perform p d).gate.inProgress = false := by
  cases e with
  | tick interval => exact Watch.tick_succeeds hdry hfiled hready htelling hfree interval
  | attempt height =>
    obtain ⟨x, row, rows, hrun, hstaged, hleft⟩ :=
      Capture.run_staged hdry hfiled hready htelling hfree height
    exact ⟨⟨x, row, rows, hrun, hstaged⟩, hleft⟩
  | cleanup bucketName keep =>
    obtain ⟨htables, hgate, -⟩ := Sweep.cycle_perused (b := ⟨p.dryRun, bucketName⟩) hdry keep d
    exact ⟨htables, (congrArg Gate.inProgress hgate).trans hfree⟩

/-- Whatever ticks, attempts and cleanups are rehearsed one after the other, on whatever records and
whatever the nodes reply: nothing is said but what the ticks ask the nodes about their state, no object
is put or removed, and all that is written are unmarked rows of rehearsals behind those that were
there. A cleanup writes nothing and has nothing to report as deleted. As long as the audit store
refuses nothing and times can be read back, every attempt that finds the gate free is on record as a
success, with one successful upload for each node, and leaves the gate free. -/
theorem rehearsals_inert (p : Capture.Plant) (hdry : p.dryRun = true) (d : Deployment)
    (h : Filed d.store) (es : List Errand) :
    Inert p.fleet d (errands p d es) ∧
      ∀ before e after, es = before ++ e :: after →
        let found := errands p d before
        let left := errands p d (before ++ [e])
        Inert (e.asked p) found left ∧
          (∀ bucketName keep, e = .cleanup bucketName keep →
            left.store.tables = found.store.tables ∧
              ∀ rep, (Sweep.cycle ⟨p.dryRun, bucketName⟩ keep).result found = .ok (some rep) →
                rep.attemptsDeleted = 0 ∧ rep.uploadsDeleted = 0) ∧
          (d.store.refusals = [] → d.store.Telling → found.gate.inProgress = false →
            e.Succeeds p found left ∧ left.gate.inProgress = false) := by
  refine ⟨errands_inert hdry h es, fun before e after _ => ?_⟩
  have hbefore : Inert p.fleet d (errands p d before) := errands_inert hdry h before
  have hfiled := hbefore.records.filed
  dsimp only
  rw [errands_append]
  refine ⟨e.inert hdry hfiled, ?_, fun hrefusals htelling hfree => ?_⟩
  · rintro bucketName keep rfl
    obtain ⟨htables, -, hreport⟩ :=
      Sweep.cycle_perused (b := ⟨p.dryRun, bucketName⟩) hdry keep (errands p d before)
    exact ⟨htables, hreport⟩
  · have hspent := hbefore.refusals
    rw [hrefusals, List.suffix_nil] at hspent
    have hplain := hfiled.plain
    refine e.succeeds hdry hfiled ⟨hplain.triggers, hspent, hplain.attemptTable, hplain.uploadTable⟩
      (fun k => ?_) hfree
    rw [hbefore.clock]
    exact htelling k

def stocked : Deployment :=
  { Sweep.keeper with hosts := [Agreement.soundHost Capture.loneNode "0x3e8"] }

theorem stocked_filed : Filed stocked.store where
  plain := Sweep.twoSnapshots_ready.plain
  numbered := ⟨by decide +kernel, by decide +kernel⟩
  attemptBound := by decide +kernel
  uploadBound := by decide +kernel
  owned := by decide +kernel

def stockedAfter : Deployment :=
  errands Watch.rehearsed stocked [.tick 1000, .attempt 3000, .cleanup "bucket" 1]

theorem stockedAfter_rows : (stockedAfter.journal.length, stockedAfter.store.attempts.map fun r =>
    (r.height.toUInt64, r.status, r.dryRun, r.deleted)) =
      (3, [(1000, "success", false, false), (2000, "success", false, false),
        (1000, "success", true, false), (3000, "success", true, false)]) := by
  decide +kernel

/-- A tick, an attempt and a cleanup of all but one snapshot, by way of rehearsal. -/
theorem rehearsals_inert_stocked :
    Watch.rehearsed.dryRun = true ∧ Filed stocked.store ∧ stocked.store.refusals = [] ∧
      stocked.store.Telling ∧ stocked.gate.inProgress = false ∧
      Inert [Capture.loneNode] stocked stockedAfter ∧
      stockedAfter.objects = [("p/1000/chaindata", "")] ∧ stockedAfter.journal.length = 3 ∧
      stockedAfter.store.attempts.map (fun r => (r.height.toUInt64, r.status, r.dryRun, r.deleted)) =
        [(1000, "success", false, false), (2000, "success", false, false),
          (1000, "success", true, false), (3000, "success", true, false)] ∧
      ∃ height x row rows, (Watch.tick Watch.rehearsed 1000).result stocked =
          .ok (.triggered height (.ok x)) ∧
        Capture.Staged Watch.rehearsed height stocked.store
          (errands Watch.rehearsed stocked [.tick 1000]).store x row rows := by
  have htelling : stocked.store.Telling := by
    have hdefault : (Stamp.ofInstant default).instant?.isSome = true := by decide +kernel
    exact fun _ => hdefault
  obtain ⟨hinert, hsteps⟩ := rehearsals_inert Watch.rehearsed rfl stocked stocked_filed
    [.tick 1000, .attempt 3000, .cleanup "bucket" 1]
  obtain ⟨-, -, hsucceeds⟩ := hsteps [] (.tick 1000) _ rfl
  obtain ⟨hjournal, hrows⟩ := Prod.mk.inj stockedAfter_rows
  refine ⟨rfl, stocked_filed, rfl, htelling, rfl, hinert, hinert.objects, hjournal, hrows, ?_⟩
  rcases (hsucceeds rfl htelling rfl).1 with ⟨htables, -⟩ | hstaged
  · exact absurd htables (by decide +kernel)
  · exact hstaged

end Errands

end FleetSnapshot
