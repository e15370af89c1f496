import FleetSnapshot.Proofs.History
import FleetSnapshot.Proofs.Removed

/-! Which data a cleanup takes away that it should have left alone. Rows are spared one by one, but
what is removed is a directory, and two attempts at one height share it. Nothing else goes wrong:
what is spared is only ever hit through another attempt of the same height. -/

namespace FleetSnapshot.Sweep

open Audit Job Bucket

/-- The unprotected attempts that a cleanup leaves alone. -/
def newest (keep : Nat) (as : List Attempt) : List Attempt := (as.filter (!·.persisted)).take keep

/-- The data of the row is to stay: it is protected, or it is complete and belongs to an attempt that
stays. -/
def Spared (keep : Nat) (s : Store) (r : UploadRow) : Prop :=
  r.persisted = true ∨ r.status = Progress.success.text ∧ r.deleted = false ∧
    ((∃ a ∈ s.attempts, a.id = r.attemptId ∧ a.persisted = true) ∨
      ∃ a ∈ newest keep (listed s), a.id = r.attemptId)

/-- The cleanup asks for the removal of a directory in which a key of a spared row may lie. -/
def Harms (b : Broom) (keep : Nat) (d : Deployment) : Prop :=
  ∃ id pre, .removalOpened id pre ∈ (cycle b keep).events d ∧ ∃ r ∈ d.store.uploads,
    Spared keep d.store r ∧ ∃ key, covers pre key = true ∧ covers r.uploadPrefix key = true

/-- A surplus attempt has an upload where one of the spared rows has its data, too. That row belongs
to another attempt, at the same height. -/
def Collides (keep : Nat) (s : Store) : Prop :=
  ∃ a ∈ surplus keep (listed s), ∃ u ∈ eligibles a, ∃ r ∈ s.uploads, Spared keep s r ∧
    r.uploadPrefix = u.uploadPrefix ∧ ∃ row ∈ s.attempts, row.id = r.attemptId ∧ row.id ≠ a.id ∧
      row.height.toUInt64 = a.height

section Collision

variable {fleet : List Node} {d : Deployment} {s : Store} {keep : Nat} {a : Attempt} {u : Upload}

/-- Uploads of the fleet that share a key share their directory and their height. -/
theorem same_place (hfleet : Separate fleet) (hk : Kept fleet s) {r r' : UploadRow}
    (hr : r ∈ s.uploads) (hr' : r' ∈ s.uploads) {key : String}
    (hc : covers r.uploadPrefix key = true) (hc' : covers r'.uploadPrefix key = true) :
    r.uploadPrefix = r'.uploadPrefix ∧ ∃ row ∈ s.attempts, ∃ row' ∈ s.attempts,
      row.id = r.attemptId ∧ row'.id = r'.attemptId ∧ row.height.toUInt64 = row'.height.toUInt64 := by
  obtain ⟨n, hn, row, hrow, hid, hpre⟩ := hk.places r hr
  obtain ⟨m, hm, row', hrow', hid', hpre'⟩ := hk.places r' hr'
  rw [hpre] at hc
  rw [hpre'] at hc'
  rcases Capture.shared_key hc hc' with ⟨hpath, hheight⟩ | hext | hext
  · refine ⟨?_, row, hrow, row', hrow', hid, hid', hheight⟩
    rw [hpre, hpre', Capture.uploadPrefix, Capture.uploadPrefix, hpath, hheight]
  · exact absurd hext (hfleet.apart n hn m hm)
  · exact absurd hext (hfleet.apart m hm n hn)

/-- None of the spared rows of an attempt that goes is in the way of its uploads. -/
theorem spared_elsewhere (hk : Kept fleet s) (ha : a ∈ surplus keep (listed s))
    {row : UploadRow} (hrow : row ∈ s.uploads) (hown : row.attemptId = a.id)
    (hpers : row.persisted = false) {r : UploadRow} (hr : r ∈ s.uploads) (hs : Spared keep s r)
    (hplace : r.uploadPrefix = row.uploadPrefix) : r.attemptId ≠ a.id := by
  intro hsame
  obtain ⟨hmem, hopen⟩ := mem_surplus ha
  have hkey : (r.attemptId, r.uploadPrefix) = (row.attemptId, row.uploadPrefix) := by
    rw [hsame, hown, hplace]
  obtain rfl := List.inj_on_of_nodup_map hk.apart hr hrow hkey
  rcases hs with hkept | ⟨-, -, ⟨a', ha', hid, hkept⟩ | ⟨a', ha', hid⟩⟩
  · rw [hpers] at hkept
    cases hkept
  · obtain ⟨r', hr', -, -, hrec⟩ := records_of_listed hmem
    have heq : a'.id = r'.id := (hid.trans hsame).trans hrec.reads.id
    obtain rfl := List.inj_on_of_nodup_map hk.attemptIds ha' hr' heq
    rw [← hrec.reads.persisted, hopen] at hkept
    cases hkept
  · -- the attempts that stay and those that go are two parts of one list
    have hids : (((listed s).filter (!·.persisted)).map (·.id)).Nodup :=
      surplus_distinct hk.numbered 0
    have hgoes : a.id ∈ (((listed s).filter (!·.persisted)).map (·.id)).drop keep := by
      rw [← List.map_drop]
      exact List.mem_map_of_mem ha
    have hstays : a.id ∈ (((listed s).filter (!·.persisted)).map (·.id)).take keep := by
      rw [← List.map_take, ← hsame, ← hid]
      exact List.mem_map_of_mem ha'
    exact List.disjoint_take_drop hids (Nat.le_refl keep) hstays hgoes

theorem collides_of_shared (hfleet : Separate fleet) (hk : Kept fleet s)
    (hu : u ∈ doomed keep s) {r : UploadRow} (hr : r ∈ s.uploads) (hs : Spared keep s r)
    {key : String} (hpre : covers u.uploadPrefix key = true)
    (hrow : covers r.uploadPrefix key = true) : Collides keep s := by
  obtain ⟨a, ha, hu⟩ := List.mem_flatMap.1 hu
  obtain ⟨hmem, -⟩ := mem_surplus ha
  obtain ⟨ra, hra, -, -, hrec⟩ := records_of_listed hmem
  obtain ⟨hupload, helig⟩ := List.mem_filter.1 hu
  obtain ⟨ru, hru, hown, hread⟩ := hrec.row_of_upload hupload
  have hreads := UploadRow.reads hread
  rw [hreads.uploadPrefix] at hpre
  obtain ⟨hplace, row, hrow, row', hrow', hid, hid', hheight⟩ :=
    same_place hfleet hk hr hru hrow hpre
  have hpers : ru.persisted = false := by
    rw [← hreads.persisted]
    simp only [Upload.eligible, Bool.and_eq_true, Bool.not_eq_true'] at helig
    exact helig.1.2
  have hother := spared_elsewhere hk ha hru (hown.trans hrec.reads.id.symm) hpers hr hs hplace
  obtain rfl := List.inj_on_of_nodup_map hk.attemptIds hrow' hra (hid'.trans hown)
  refine ⟨a, ha, u, hu, r, hr, hs, ?_, row, hrow, hid, hid ▸ hother, ?_⟩
  · rw [hplace, hreads.uploadPrefix]
  · rw [hheight, hrec.reads.height]

/-- What is spared comes to harm where attempts of the same height collide, and only there. -/
theorem harms_iff_collides (hfleet : Separate fleet) (h : Reached fleet d) (b : Broom)
    (keep : Nat) :
    (Harms b keep d → Collides keep d.store) ∧
      (b.dryRun = false → b.bucketName.isEmpty = false → d.store.refusals = [] →
        (Harms b keep d ↔ Collides keep d.store)) := by
  obtain ⟨hk, halone⟩ := h.kept hfleet
  have honly : Harms b keep d → Collides keep d.store := by
    rintro ⟨id, pre, he, r, hr, hs, key, hpre, hrow⟩
    obtain ⟨u, hu, -, rfl⟩ := cycle_only b keep d _ he
    exact collides_of_shared hfleet hk hu hr hs hpre hrow
  refine ⟨honly, fun hdry hname hrefusals => ⟨honly, ?_⟩⟩
  rintro ⟨a, ha, u, hu, r, hr, hs, hplace, -⟩
  have hcalm : Calm d :=
    ⟨halone, ⟨hk.triggers, hrefusals, hk.attemptTable, hk.uploadTable⟩, hk.numbered⟩
  refine ⟨u.id, u.uploadPrefix, ?_, r, hr, hs, directory u.uploadPrefix, ?_, ?_⟩
  · rw [cycle_events hdry hname hcalm]
    refine List.mem_flatMap.2 ⟨u, List.mem_flatMap.2 ⟨a, ha, hu⟩, ?_⟩
    exact List.mem_cons_self
  · exact covers_directory _
  · rw [hplace]
    exact covers_directory _

end Collision

section Twice

open Capture

def twice : Deployment :=
  let d := { loneHost "0x3e8" with refusesPut := false }
  let d := ((run lonePlant 1000).perform d).2
  let d := ((run lonePlant 1000).perform d).2
  let d := (d.perform (.audit (.persistAttempt 1 true))).2
  ((run lonePlant 2000).perform d).2

theorem twice_reached : Reached [loneNode] twice :=
  .attempt (.persistAttempt (.attempt (.attempt (.fresh rfl rfl rfl) lonePlant rfl 1000)
    lonePlant rfl 1000) 1 true) lonePlant rfl 2000

theorem separate_lone : Separate [loneNode] := by
  refine ⟨List.nodup_singleton _, fun n hn m hm => ?_⟩
  rw [List.mem_singleton.1 hn, List.mem_singleton.1 hm]
  rintro ⟨segments, -, h⟩
  have hlength := congrArg String.length h
  rw [String.length_append, String.length_append] at hlength
  have hslash : "/".length = 1 := rfl
  omega

theorem twice_harms : Harms ⟨false, "bucket"⟩ 1 twice := by
  have hopened : Event.removalOpened 2 "p/1000" ∈ (cycle ⟨false, "bucket"⟩ 1).events twice := by
    decide +kernel
  have hrow : ∃ r ∈ twice.store.uploads, r.persisted = true ∧ r.uploadPrefix = "p/1000" := by
    decide +kernel
  obtain ⟨r, hr, hpers, hpre⟩ := hrow
  refine ⟨2, "p/1000", hopened, r, hr, Or.inl hpers, "p/1000/", by decide +kernel, ?_⟩
  rw [hpre]
  decide +kernel

theorem harms_iff_collides_twice :
    Separate [loneNode] ∧ Reached [loneNode] twice ∧ twice.store.refusals = [] ∧
      (Harms ⟨false, "bucket"⟩ 1 twice ↔ Collides 1 twice.store) ∧ Collides 1 twice.store := by
  have hiff := harms_iff_collides separate_lone twice_reached ⟨false, "bucket"⟩ 1
  have hrefusals : twice.store.refusals = [] := rfl
  have hname : "bucket".isEmpty = false := by decide
  exact ⟨separate_lone, twice_reached, hrefusals, hiff.2 rfl hname hrefusals, hiff.1 twice_harms⟩

/-- A removal for one row takes away the data of a protected one. -/
theorem protected_data_removed :
    ¬ ∀ (fleet : List Node) (d : Deployment), Separate fleet → Reached fleet d →
      ∀ (b : Broom) (keep : Nat), b.dryRun = false → 1 ≤ keep → ¬ Harms b keep d :=
  fun h => h [loneNode] twice separate_lone twice_reached ⟨false, "bucket"⟩ 1 rfl (Nat.le_refl 1)
    twice_harms

end Twice

end FleetSnapshot.Sweep
