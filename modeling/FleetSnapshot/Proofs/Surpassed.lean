import FleetSnapshot.Proofs.Effect

/-! Heights that a complete snapshot has gone beyond. As long as attempts come at rising heights,
cleanups deal with nothing else: of the attempts that may go the highest is spared, and all the others
lie below it. -/

namespace FleetSnapshot

namespace Audit

/-- A complete snapshot at a greater height is on record. -/
def Store.Surpasses (s : Store) (height : UInt64) : Prop :=
  ∃ a ∈ s.attempts, a.status = Progress.success.text ∧ height < a.height.toUInt64

/-- Complete snapshots stay so, at their heights. -/
theorem Store.Surpasses.mono {s s' : Store} {height : UInt64} (h : s.Surpasses height)
    (hkept : ∀ a ∈ s.attempts, a.status = Progress.success.text →
      ∃ a' ∈ s'.attempts, a'.status = Progress.success.text ∧ a'.height = a.height) :
    s'.Surpasses height := by
  obtain ⟨a, ha, hstatus, hlt⟩ := h
  obtain ⟨a', ha', hstatus', hheight⟩ := hkept a ha hstatus
  exact ⟨a', ha', hstatus', hheight ▸ hlt⟩

/-- A change that makes no attempt complete surpasses no more heights. -/
theorem Store.Surpasses.of_changed {s s' : Store} {p : AttemptRow → Bool}
    {change : AttemptRow → AttemptRow} {height : UInt64} (h : s'.Surpasses height)
    (hattempts : s'.attempts = s.attempts.map fun a => if p a then change a else a)
    (hheight : ∀ a, (change a).height = a.height)
    (hstatus : ∀ a, (change a).status = Progress.success.text → a.status = Progress.success.text) :
    s.Surpasses height := by
  obtain ⟨a', ha', hdone, hlt⟩ := h
  rw [hattempts] at ha'
  obtain ⟨a, ha, rfl⟩ := List.mem_map.1 ha'
  split at hdone
  · rw [if_pos ‹_›, hheight] at hlt
    exact ⟨a, ha, hstatus a hdone, hlt⟩
  · rw [if_neg ‹_›] at hlt
    exact ⟨a, ha, hdone, hlt⟩

/-- An attempt that is only put on record does not surpass anything. -/
theorem Store.surpasses_addAttempt {s : Store} {row : AttemptRow} {height : UInt64}
    (hrow : row.status ≠ Progress.success.text) :
    (s.addAttempt row).Surpasses height ↔ s.Surpasses height := by
  constructor
  · rintro ⟨a, ha, hstatus, hlt⟩
    rcases List.mem_append.1 ha with ha | ha
    · exact ⟨a, ha, hstatus, hlt⟩
    · exact absurd (List.mem_singleton.1 ha ▸ hstatus) hrow
  · exact fun h => h.mono fun a ha hstatus => ⟨a, List.mem_append_left _ ha, hstatus, rfl⟩

theorem Store.newAttempt_unfinished (s : Store) (height : UInt64) (dryRun : Bool) :
    (s.newAttempt height dryRun).status ≠ Progress.success.text :=
  show ¬ Progress.running.text = Progress.success.text by decide

end Audit

open Audit

/-- Attempts are on record at rising heights and their uploads at these heights, and only what is
surpassed may be marked as deleted. -/
structure Rising (fleet : List Node) (s : Store) : Prop where
  heights : (s.attempts.map (·.height.toUInt64)).Pairwise (· < ·)
  places : ∀ u ∈ s.uploads, ∃ n ∈ fleet, ∃ a ∈ s.attempts, a.id = u.attemptId ∧
    u.uploadPrefix = Capture.uploadPrefix n a.height.toUInt64
  attempts : ∀ a ∈ s.attempts, a.deleted = true → s.Surpasses a.height.toUInt64
  uploads : ∀ u ∈ s.uploads, u.deleted = true → ∀ a ∈ s.attempts, a.id = u.attemptId →
    s.Surpasses a.height.toUInt64

/-- Attempts are what they were, complete ones are still complete, and those that have been marked as
deleted are surpassed. -/
def TendedAttempts (s s' : Store) : Prop :=
  ∃ g : AttemptRow → AttemptRow, (∀ a, (g a).id = a.id ∧ (g a).height = a.height) ∧
    s'.attempts = s.attempts.map g ∧ ∀ a ∈ s.attempts,
      (a.status = Progress.success.text → (g a).status = Progress.success.text) ∧
        ((g a).deleted = true → a.deleted = true ∨ s.Surpasses a.height.toUInt64)

def TendedUploads (s s' : Store) : Prop :=
  ∃ f : UploadRow → UploadRow,
    (∀ u, (f u).attemptId = u.attemptId ∧ (f u).uploadPrefix = u.uploadPrefix) ∧
    s'.uploads = s.uploads.map f ∧ ∀ u ∈ s.uploads, (f u).deleted = true → u.deleted = true ∨
      ∀ a ∈ s.attempts, a.id = u.attemptId → s.Surpasses a.height.toUInt64

/-- Rows that are there have been changed, and no others than such as are surpassed marked. -/
structure Tended (s s' : Store) : Prop where
  attempts : TendedAttempts s s'
  uploads : TendedUploads s s'

section Changes

variable {fleet : List Node} {s s' : Store}

theorem TendedAttempts.of_same (h : s'.attempts = s.attempts) : TendedAttempts s s' :=
  ⟨id, fun _ => ⟨rfl, rfl⟩, by rw [h, List.map_id], fun _ _ => ⟨id, Or.inl⟩⟩

theorem TendedUploads.of_same (h : s'.uploads = s.uploads) : TendedUploads s s' :=
  ⟨id, fun _ => ⟨rfl, rfl⟩, by rw [h, List.map_id], fun _ _ => Or.inl⟩

theorem TendedAttempts.of_changed {p : AttemptRow → Bool} {change : AttemptRow → AttemptRow}
    (hattempts : s'.attempts = s.attempts.map fun a => if p a then change a else a)
    (hsame : ∀ a, (change a).id = a.id ∧ (change a).height = a.height)
    (hkept : ∀ a ∈ s.attempts, p a = true →
      (a.status = Progress.success.text → (change a).status = Progress.success.text) ∧
        ((change a).deleted = true → a.deleted = true ∨ s.Surpasses a.height.toUInt64)) :
    TendedAttempts s s' := by
  refine ⟨_, fun a => ?_, hattempts, fun a ha => ?_⟩
  · split
    · exact hsame a
    · exact ⟨rfl, rfl⟩
  · split
    · exact hkept a ha ‹_›
    · exact ⟨id, Or.inl⟩

theorem TendedUploads.of_changed {p : UploadRow → Bool} {change : UploadRow → UploadRow}
    (huploads : s'.uploads = s.uploads.map fun u => if p u then change u else u)
    (hsame : ∀ u, (change u).attemptId = u.attemptId ∧ (change u).uploadPrefix = u.uploadPrefix)
    (hmarked : ∀ u ∈ s.uploads, p u = true → (change u).deleted = true → u.deleted = true ∨
      ∀ a ∈ s.attempts, a.id = u.attemptId → s.Surpasses a.height.toUInt64) :
    TendedUploads s s' := by
  refine ⟨_, fun u => ?_, huploads, fun u hu => ?_⟩
  · split
    · exact hsame u
    · exact ⟨rfl, rfl⟩
  · split
    · exact hmarked u hu ‹_›
    · exact Or.inl

theorem Tended.of_same (ha : s'.attempts = s.attempts) (hu : s'.uploads = s.uploads) :
    Tended s s' :=
  ⟨.of_same ha, .of_same hu⟩

theorem Tended.surpasses (h : Tended s s') {height : UInt64} (hs : s.Surpasses height) :
    s'.Surpasses height := by
  obtain ⟨g, hg, hattempts, hkept⟩ := h.attempts
  refine hs.mono fun a ha hstatus => ⟨g a, ?_, (hkept a ha).1 hstatus, (hg a).2⟩
  rw [hattempts]
  exact List.mem_map_of_mem ha

theorem Tended.heights (h : Tended s s') :
    s'.attempts.map (·.height.toUInt64) = s.attempts.map (·.height.toUInt64) := by
  obtain ⟨g, hg, hattempts, -⟩ := h.attempts
  rw [hattempts, List.map_map]
  exact List.map_congr_left fun a _ => congrArg Int64.toUInt64 (hg a).2

namespace Rising

theorem fresh (ht : s.tables = {}) : Rising fleet s := by
  have hattempts : s.attempts = [] := by rw [Store.attempts, ht, Option.getD_some]
  have huploads : s.uploads = [] := by rw [Store.uploads, ht, Option.getD_some]
  constructor <;> simp [hattempts, huploads]

theorem tended (h : Rising fleet s) (ht : Tended s s') : Rising fleet s' := by
  obtain ⟨g, hg, hattempts, hkept⟩ := ht.attempts
  obtain ⟨f, hf, huploads, hmarked⟩ := ht.uploads
  refine ⟨?_, fun u' hu' => ?_, fun a' ha' hdel => ?_, fun u' hu' hdel a' ha' hid => ?_⟩
  · rw [ht.heights]
    exact h.heights
  · rw [huploads] at hu'
    obtain ⟨u, hu, rfl⟩ := List.mem_map.1 hu'
    obtain ⟨n, hn, a, ha, hid, hpre⟩ := h.places u hu
    refine ⟨n, hn, g a, hattempts ▸ List.mem_map_of_mem ha, ?_, ?_⟩
    · rw [(hg a).1, hid, (hf u).1]
    · rw [(hf u).2, hpre, (hg a).2]
  · rw [hattempts] at ha'
    obtain ⟨a, ha, rfl⟩ := List.mem_map.1 ha'
    rw [(hg a).2]
    rcases (hkept a ha).2 hdel with hdel | hsurpassed
    · exact ht.surpasses (h.attempts a ha hdel)
    · exact ht.surpasses hsurpassed
  · rw [huploads] at hu'
    rw [hattempts] at ha'
    obtain ⟨u, hu, rfl⟩ := List.mem_map.1 hu'
    obtain ⟨a, ha, rfl⟩ := List.mem_map.1 ha'
    rw [(hg a).1, (hf u).1] at hid
    rw [(hg a).2]
    rcases hmarked u hu hdel with hdel | hsurpassed
    · exact ht.surpasses (h.uploads u hu hdel a ha hid)
    · exact ht.surpasses (hsurpassed a ha hid)

/-- An attempt is put on record above all others. -/
theorem addAttempt (h : Rising fleet s) (hs : Filed s) {height : UInt64} (dryRun : Bool)
    (habove : ∀ a ∈ s.attempts, a.height.toUInt64 < height) :
    Rising fleet (s.addAttempt (s.newAttempt height dryRun)) := by
  have hsurpasses : ∀ {x}, s.Surpasses x →
      (s.addAttempt (s.newAttempt height dryRun)).Surpasses x :=
    (Store.surpasses_addAttempt (s.newAttempt_unfinished height dryRun)).2
  have hnew : (s.newAttempt height dryRun).height.toUInt64 = height :=
    UInt64.toUInt64_toInt64 height
  refine ⟨?_, fun u hu => ?_, fun a ha hdel => ?_, fun u hu hdel a ha hid => ?_⟩
  · change ((s.attempts ++ [s.newAttempt height dryRun]).map (·.height.toUInt64)).Pairwise (· < ·)
    rw [List.map_append, List.pairwise_append]
    refine ⟨h.heights, List.pairwise_singleton _ _, fun x hx y hy => ?_⟩
    obtain ⟨a, ha, rfl⟩ := List.mem_map.1 hx
    rw [List.map_singleton, List.mem_singleton, hnew] at hy
    exact hy ▸ habove a ha
  · obtain ⟨n, hn, a, ha, hplace⟩ := h.places u hu
    exact ⟨n, hn, a, List.mem_append_left _ ha, hplace⟩
  · rcases List.mem_append.1 ha with ha | ha
    · exact hsurpasses (h.attempts a ha hdel)
    · rw [List.mem_singleton.1 ha] at hdel
      exact absurd hdel Bool.false_ne_true
  · rcases List.mem_append.1 ha with ha | ha
    · exact hsurpasses (h.uploads u hu hdel a ha hid)
    · -- no upload on record belongs to an attempt whose number is new
      obtain ⟨owner, howner, hown⟩ := hs.owned u hu
      have hbound := hs.attemptBound owner howner
      rw [List.mem_singleton.1 ha] at hid
      have hnumber : s.tables.lastAttempt + 1 = u.attemptId := hid
      omega

theorem addUpload (h : Rising fleet s) {n : Node} (hn : n ∈ fleet) {a : AttemptRow}
    (ha : a ∈ s.attempts) (target : String) (dryRun : Bool) :
    Rising fleet (s.addUpload (s.newUpload a.id target
      (Capture.uploadPrefix n a.height.toUInt64) dryRun)) := by
  refine ⟨h.heights, fun u hu => ?_, h.attempts, fun u hu hdel => ?_⟩
  · rcases List.mem_append.1 hu with hu | hu
    · exact h.places u hu
    · rw [List.mem_singleton.1 hu]
      exact ⟨n, hn, a, ha, rfl, rfl⟩
  · rcases List.mem_append.1 hu with hu | hu
    · exact h.uploads u hu hdel
    · rw [List.mem_singleton.1 hu] at hdel
      exact absurd hdel Bool.false_ne_true

/-- Attempts are told apart by their heights. -/
theorem height_inj (h : Rising fleet s) {a a' : AttemptRow} (ha : a ∈ s.attempts)
    (ha' : a' ∈ s.attempts) (hheight : a.height.toUInt64 = a'.height.toUInt64) : a = a' := by
  have hnodup : (s.attempts.map (·.height.toUInt64)).Nodup :=
    h.heights.imp fun hlt => UInt64.ne_of_lt hlt
  exact List.inj_on_of_nodup_map hnodup ha ha' hheight

end Rising

end Changes

namespace Sweep

variable {fleet : List Node} {s : Store} {as : List Attempt} {keep : Nat} {a : Attempt}

/-- If any attempt is kept at all, then those that go lie below it. -/
theorem surplus_surpassed (hn : s.Numbered) (h : Rising fleet s)
    (hbound : ∀ r ∈ s.attempts, r.height.toUInt64 < 0x8000000000000000)
    (hrecords : List.Forall₂ (Records s) (candidates s) as) (hkeep : 1 ≤ keep)
    (ha : a ∈ surplus keep as) : ∃ r ∈ s.attempts, Records s r a ∧ s.Surpasses a.height := by
  have hsurplus : List.Forall₂ (Records s) ((ranked s).drop keep) (surplus keep as) := by
    refine List.forall₂_drop keep (List.rel_filter (fun r a hrec => ?_) hrecords)
    change (!r.persisted) = true ↔ (!a.persisted) = true
    rw [hrec.reads.persisted]
  obtain ⟨r, hr, hrec⟩ := source_of_mem hsurplus ha
  have hmem := (mem_of_ranked (List.mem_of_mem_drop hr)).1
  obtain ⟨k, rfl⟩ : ∃ k, keep = k + 1 := ⟨keep - 1, by omega⟩
  have habove := ranked_above hn hbound
  refine ⟨r, hmem, hrec, ?_⟩
  cases hranked : ranked s with
  | nil =>
    rw [hranked, List.drop_nil] at hr
    cases hr
  | cons top rest =>
    rw [hranked, List.pairwise_cons] at habove
    rw [hranked, List.drop_succ_cons] at hr
    obtain ⟨htop, hgoes⟩ := mem_of_ranked (hranked ▸ List.mem_cons_self : top ∈ ranked s)
    simp only [AttemptRow.removable, Bool.and_eq_true, beq_iff_eq] at hgoes
    refine ⟨top, htop, hgoes.1.1, ?_⟩
    rw [hrec.reads.height]
    rcases habove.1 r (List.mem_of_mem_drop hr) with hlt | ⟨heq, hid⟩
    · exact hlt
    · obtain rfl : top = r := h.height_inj htop hmem (by rw [heq])
      omega

end Sweep

end FleetSnapshot
