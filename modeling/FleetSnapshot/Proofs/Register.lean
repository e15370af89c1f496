import FleetSnapshot.Capture
import FleetSnapshot.Proofs.Filed
import FleetSnapshot.Proofs.Plan

/-! What the records of a fleet come to while its attempts are put down. Every upload on record goes
to the directory of a node at the height of its attempt, and the uploads of one attempt go to
different directories. -/

namespace FleetSnapshot

open Audit

/-- Rows have numbers of their own, up to the last one given, and every upload is on record under
an attempt, for a node of the fleet that has no other upload there. -/
structure Kept (fleet : List Node) (s : Store) : Prop where
  triggers : s.triggers = []
  attemptTable : s.tables.attempts.isSome = true
  uploadTable : s.tables.uploads.isSome = true
  attemptIds : (s.attempts.map (·.id)).Nodup
  uploadIds : (s.uploads.map (·.id)).Nodup
  attemptBound : ∀ r ∈ s.attempts, r.id ≤ s.tables.lastAttempt
  uploadBound : ∀ r ∈ s.uploads, r.id ≤ s.tables.lastUpload
  places : ∀ r ∈ s.uploads, ∃ n ∈ fleet, ∃ a ∈ s.attempts, a.id = r.attemptId ∧
    r.uploadPrefix = Capture.uploadPrefix n a.height.toUInt64
  apart : (s.uploads.map fun r => (r.attemptId, r.uploadPrefix)).Nodup

theorem Filed.kept {fleet : List Node} {s : Store} (h : Filed s)
    (places : ∀ r ∈ s.uploads, ∃ n ∈ fleet, ∃ a ∈ s.attempts, a.id = r.attemptId ∧
      r.uploadPrefix = Capture.uploadPrefix n a.height.toUInt64)
    (apart : (s.uploads.map fun r => (r.attemptId, r.uploadPrefix)).Nodup) : Kept fleet s :=
  ⟨h.plain.triggers, h.plain.attemptTable, h.plain.uploadTable, h.numbered.attempts,
    h.numbered.uploads, h.attemptBound, h.uploadBound, places, apart⟩

namespace Kept

variable {fleet : List Node} {s s' : Store}

theorem filed (h : Kept fleet s) : Filed s := by
  refine ⟨⟨h.triggers, h.attemptTable, h.uploadTable⟩, ⟨h.attemptIds, h.uploadIds⟩,
    h.attemptBound, h.uploadBound, fun r hr => ?_⟩
  obtain ⟨n, -, a, ha, hid, -⟩ := h.places r hr
  exact ⟨a, ha, hid⟩

theorem numbered (h : Kept fleet s) : s.Numbered := h.filed.numbered

theorem touches (h : Kept fleet s) (ht : Touches s s') : Kept fleet s' := by
  obtain ⟨g, hg, hattempts⟩ := ht.attemptRows
  obtain ⟨f, hf, huploads⟩ := ht.uploadRows
  refine (h.filed.touches ht).kept (fun r hr => ?_) ?_
  · rw [huploads] at hr
    obtain ⟨row, hrow, rfl⟩ := List.mem_map.1 hr
    obtain ⟨n, hn, a, ha, hid, hpre⟩ := h.places row hrow
    refine ⟨n, hn, g a, hattempts ▸ List.mem_map_of_mem ha, ?_, ?_⟩
    · rw [(hg a).1, hid, (hf row).2.1]
    · rw [(hf row).2.2, hpre, (hg a).2]
  · have hplace : (fun r => ((f r).attemptId, (f r).uploadPrefix)) =
        fun r : UploadRow => (r.attemptId, r.uploadPrefix) :=
      funext fun r => by rw [(hf r).2.1, (hf r).2.2]
    rw [huploads, List.map_map, Function.comp_def, hplace]
    exact h.apart

theorem addAttempt (h : Kept fleet s) {row : AttemptRow} (hid : row.id = s.tables.lastAttempt + 1) :
    Kept fleet (s.addAttempt row) := by
  refine (h.filed.addAttempt hid).kept (fun r hr => ?_) h.apart
  obtain ⟨n, hn, a, ha, hplace⟩ := h.places r hr
  exact ⟨n, hn, a, List.mem_append_left _ ha, hplace⟩

theorem addUpload (h : Kept fleet s) {row : UploadRow} (hid : row.id = s.tables.lastUpload + 1)
    (hplace : ∃ n ∈ fleet, ∃ a ∈ s.attempts, a.id = row.attemptId ∧
      row.uploadPrefix = Capture.uploadPrefix n a.height.toUInt64)
    (hnew : ∀ r ∈ s.uploads, r.attemptId = row.attemptId → r.uploadPrefix ≠ row.uploadPrefix) :
    Kept fleet (s.addUpload row) := by
  have howned : ∃ a ∈ s.attempts, a.id = row.attemptId := by
    obtain ⟨n, -, a, ha, hattempt, -⟩ := hplace
    exact ⟨a, ha, hattempt⟩
  refine (h.filed.addUpload hid howned).kept (fun r hr => ?_) ?_
  · rcases List.mem_append.1 hr with hr | hr
    · exact h.places r hr
    · rw [List.mem_singleton.1 hr]
      exact hplace
  · refine Filed.nodup_snoc h.apart fun r hr heq => ?_
    rw [Prod.mk.injEq] at heq
    exact hnew r hr heq.1 heq.2

end Kept

/-- What an attempt has recorded of itself: its number, its height, and where its uploads go. -/
structure Posting where
  attempt : Int
  height : UInt64
  taken : List String := []

/-- An attempt is put on record once, and then every node of it once. -/
def posts (fleet : List Node) : Discipline (Option Posting) where
  allows c act := match act with
    | .audit (.createAttempt _ _) => c = none
    | .audit (.createUpload id _ pre _) => ∃ p, c = some p ∧ p.attempt = id ∧ pre ∉ p.taken ∧
        ∃ n ∈ fleet, pre = Capture.uploadPrefix n p.height
    | _ => True
  after c act := match act with
    | .audit (.createAttempt height _) => fun
      | .ok a => some { attempt := a.id, height }
      | .error _ => c
    | .audit (.createUpload _ _ pre _) => fun _ =>
      c.map fun p => { p with taken := pre :: p.taken }
    | _ => fun _ => c

structure Posted (fleet : List Node) (c : Option Posting) (d : Deployment) : Prop where
  kept : Kept fleet d.store
  alone : d.meanwhile = []
  own : ∀ p, c = some p → ∃ a ∈ d.store.attempts, a.id = p.attempt ∧ a.height = p.height.toInt64
  taken : ∀ p, c = some p → ∀ r ∈ d.store.uploads, r.attemptId = p.attempt →
    r.uploadPrefix ∈ p.taken

section Posts

variable {fleet : List Node} {c : Option Posting} {d : Deployment}

theorem Posted.touches {d' : Deployment} (h : Posted fleet c d) (hcalm : d'.meanwhile = [])
    (ht : Touches d.store d'.store) : Posted fleet c d' := by
  obtain ⟨g, hg, hattempts⟩ := ht.attemptRows
  obtain ⟨f, hf, huploads⟩ := ht.uploadRows
  refine ⟨h.kept.touches ht, hcalm, fun p hp => ?_, fun p hp r hr hid => ?_⟩
  · obtain ⟨a, ha, hid, hheight⟩ := h.own p hp
    refine ⟨g a, hattempts ▸ List.mem_map_of_mem ha, ?_⟩
    rw [(hg a).1, (hg a).2]
    exact ⟨hid, hheight⟩
  · rw [huploads] at hr
    obtain ⟨row, hrow, rfl⟩ := List.mem_map.1 hr
    rw [(hf row).2.1] at hid
    rw [(hf row).2.2]
    exact h.taken p hp row hrow hid

theorem Posted.newAttempt (h : Posted fleet none d) (height : UInt64) (dryRun : Bool) :
    Posted fleet ((posts fleet).after none (.audit (.createAttempt height dryRun))
      (d.perform (.audit (.createAttempt height dryRun))).1)
      (d.perform (.audit (.createAttempt height dryRun))).2 := by
  have hrun : d.perform (.audit (.createAttempt height dryRun)) =
      ((createAttempt height dryRun d.store).1,
        { d with store := (createAttempt height dryRun d.store).2 }) := rfl
  rcases createAttempt_cases h.kept.triggers height dryRun with ⟨e, he, hs⟩ | ⟨a, hid, hs⟩
  · rw [hrun, he]
    exact h.touches h.alone (Touches.of_alike hs)
  · rw [hrun, hs]
    refine ⟨h.kept.addAttempt rfl, h.alone, fun p hp => ?_, fun p hp r hr hattempt => ?_⟩
    · cases hp
      exact ⟨_, List.mem_append_right _ List.mem_cons_self, hid.symm, rfl⟩
    · cases hp
      -- the attempts of the uploads so far have smaller numbers
      obtain ⟨a', ha', hid'⟩ := h.kept.filed.owned r hr
      have hbound := h.kept.attemptBound a' ha'
      have hsame : r.attemptId = a.id := hattempt
      omega

theorem Posted.newUpload {p : Posting} (h : Posted fleet (some p) d) (target : String)
    {pre : String} (dryRun : Bool) (hnew : pre ∉ p.taken)
    (hplace : ∃ n ∈ fleet, pre = Capture.uploadPrefix n p.height) :
    Posted fleet (some { p with taken := pre :: p.taken })
      (d.perform (.audit (.createUpload p.attempt target pre dryRun))).2 := by
  have hrun : d.perform (.audit (.createUpload p.attempt target pre dryRun)) =
      ((createUpload p.attempt target pre dryRun d.store).1,
        { d with store := (createUpload p.attempt target pre dryRun d.store).2 }) := rfl
  have hmore : ∀ {d' : Deployment}, Posted fleet (some p) d' →
      Posted fleet (some { p with taken := pre :: p.taken }) d' := by
    intro d' h'
    refine ⟨h'.kept, h'.alone, fun q hq => ?_, fun q hq r hr hid => ?_⟩
    · cases hq
      exact h'.own p rfl
    · cases hq
      exact List.mem_cons_of_mem _ (h'.taken p rfl r hr hid)
  rw [hrun]
  rcases createUpload_cases h.kept.triggers p.attempt target pre dryRun with
    ⟨e, -, hs⟩ | ⟨u, -, -, hs⟩
  · exact hmore (h.touches h.alone (Touches.of_alike hs))
  · obtain ⟨a, ha, haid, hheight⟩ := h.own p rfl
    obtain ⟨n, hn, hpren⟩ := hplace
    have hplace' : ∃ n ∈ fleet, ∃ a ∈ d.store.attempts, a.id = p.attempt ∧
        pre = Capture.uploadPrefix n a.height.toUInt64 :=
      ⟨n, hn, a, ha, haid, by rw [hpren, hheight, UInt64.toUInt64_toInt64]⟩
    have hnew' : ∀ r ∈ d.store.uploads, r.attemptId = p.attempt → r.uploadPrefix ≠ pre := by
      intro r hr hsame heq
      exact hnew (heq ▸ h.taken p rfl r hr hsame)
    rw [hs]
    refine ⟨h.kept.addUpload rfl hplace' hnew', h.alone, fun q hq => ?_, fun q hq r hr hsame => ?_⟩
    · cases hq
      exact ⟨a, ha, haid, hheight⟩
    · cases hq
      rcases List.mem_append.1 hr with hr | hr
      · exact List.mem_cons_of_mem _ (h.taken p rfl r hr hsame)
      · rw [List.mem_singleton.1 hr]
        exact List.mem_cons_self

theorem Posted.perform {β : Type} (act : Act β) (h : Posted fleet c d)
    (hallows : (posts fleet).allows c act) :
    Posted fleet ((posts fleet).after c act (d.perform act).1) (d.perform act).2 := by
  have other : ¬ act.Adds → Posted fleet c (d.perform act).2 := fun hadds =>
    h.touches (d.perform_touches act h.alone hadds).1 (d.perform_touches act h.alone hadds).2
  cases act with
  | audit op =>
    cases op with
    | createAttempt height dryRun =>
      obtain rfl : c = none := hallows
      exact h.newAttempt height dryRun
    | createUpload id target pre dryRun =>
      obtain ⟨p, rfl, rfl, hnew, hplace⟩ := hallows
      exact h.newUpload target dryRun hnew hplace
    | _ => exact other id
  | _ => exact other id

theorem Posted.run {α : Type} {j : Job α} {post : Option Posting → Except Stop α → Prop}
    (hj : j.run.Keeps (posts fleet) c post) (h : Posted fleet c d) :
    Kept fleet (j.perform d).2.store ∧ (j.perform d).2.meanwhile = [] := by
  obtain ⟨c', hc', -⟩ := Plan.run_maintains (I := Posted fleet)
    (fun act c d hallows hc => ⟨trivial, hc.perform act hallows⟩) j.run hj h
  exact ⟨hc'.kept, hc'.alone⟩

end Posts

end FleetSnapshot
