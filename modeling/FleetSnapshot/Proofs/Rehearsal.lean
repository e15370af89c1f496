import FleetSnapshot.Proofs.Directory
import FleetSnapshot.Proofs.Ranking
import FleetSnapshot.Proofs.Removed

/-! What rehearsals do to the data of real attempts. They are on record like any attempt and count
among the newest, so a cleanup deals with all that it would have dealt with anyway, and also with
what the rehearsals displace. -/

namespace FleetSnapshot

namespace Audit

/-- All that the one store has on record, the other has too, and besides some rehearsals that have
come to their end. -/
structure Rehearsed (rehearsal : Int → Bool) (s s' : Store) : Prop where
  attempts : s.attempts = s'.attempts.filter fun r => !rehearsal r.id
  uploads : s.uploads = s'.uploads.filter fun r => !rehearsal r.attemptId
  finished : ∀ r ∈ s'.attempts, rehearsal r.id = true →
    r.dryRun = true ∧ r.status = Progress.success.text ∧ r.read.isOk = true
  readable : ∀ r ∈ s'.uploads, rehearsal r.attemptId = true → r.read.isOk = true

section Rehearsed

variable {rehearsal : Int → Bool} {s s' : Store} {r : AttemptRow} {a : Attempt}

theorem Rehearsed.candidates (h : Rehearsed rehearsal s s') :
    Audit.candidates s = (Audit.candidates s').filter fun r => !rehearsal r.id := by
  rw [Audit.candidates, h.attempts, List.filter_filter, Audit.candidates,
    ← Order.sort_filter AttemptRow.highestFirst_trans AttemptRow.highestFirst_total,
    List.filter_filter]
  refine congrArg _ (List.filter_congr fun r _ => ?_)
  exact Bool.and_comm _ _

theorem Rehearsed.numbered (h : Rehearsed rehearsal s s') (hn : s'.Numbered) : s.Numbered := by
  constructor
  · rw [h.attempts]
    exact hn.attempts.sublist (List.filter_sublist.map _)
  · rw [h.uploads]
    exact hn.uploads.sublist (List.filter_sublist.map _)

/-- What is on record about real attempts is the same. -/
theorem Rehearsed.records (h : Rehearsed rehearsal s s') (hr : rehearsal r.id = false) :
    Records s r a ↔ Records s' r a := by
  have hrows : s.uploadRowsOf r.id = s'.uploadRowsOf r.id := by
    rw [Store.uploadRowsOf, h.uploads, List.filter_filter, Store.uploadRowsOf]
    refine congrArg _ (List.filter_congr fun row _ => ?_)
    by_cases hid : row.attemptId = r.id
    · simp [hid, hr]
    · simp [hid]
  constructor
  · rintro ⟨hown, hus⟩
    exact ⟨hown, hrows ▸ hus⟩
  · rintro ⟨hown, hus⟩
    exact ⟨hown, hrows ▸ hus⟩

theorem Rehearsed.exists_records (h : Rehearsed rehearsal s s') (hr : r ∈ s'.attempts)
    (hre : rehearsal r.id = true) : ∃ a, Records s' r a := by
  obtain ⟨-, -, hok⟩ := h.finished r hr hre
  obtain ⟨a, ha⟩ := exists_of_isOk hok
  refine Audit.exists_records ha fun row hrow hid => ?_
  exact exists_of_isOk (h.readable row hrow (hid ▸ hre))

/-- Rehearsals are listed among the real attempts, and those are listed as before. -/
theorem Rehearsed.listed (h : Rehearsed rehearsal s s') (hs : s.Ready) (hs' : s'.Ready) :
    Audit.listed s = (Audit.listed s').filter fun a => !rehearsal a.id := by
  have hreal : ∀ {as' : List Attempt}, List.Forall₂ (Records s') (Audit.candidates s') as' →
      List.Forall₂ (Records s) (Audit.candidates s) (as'.filter fun a => !rehearsal a.id) := by
    intro as' has'
    have hfilter : List.Forall₂ (Records s') ((Audit.candidates s').filter fun r => !rehearsal r.id)
        (as'.filter fun a => !rehearsal a.id) := by
      refine List.rel_filter (fun r a hrec => ?_) has'
      change (!rehearsal r.id) = true ↔ (!rehearsal a.id) = true
      rw [hrec.reads.id]
    rw [h.candidates]
    refine ((List.forall₂_and_left _ _).2 ⟨fun r hr => (List.mem_filter.1 hr).2, hfilter⟩).imp ?_
    rintro r a ⟨hr, hrec⟩
    exact (h.records (by simpa using hr)).2 hrec
  have hcomplete : ∀ {as : List Attempt}, List.Forall₂ (Records s) (Audit.candidates s) as →
      ∃ as', List.Forall₂ (Records s') (Audit.candidates s') as' := by
    intro as has
    refine forall₂_of_exists fun r hr => ?_
    cases hre : rehearsal r.id with
    | true =>
      refine h.exists_records ?_ hre
      exact (List.mem_filter.1 ((Order.sort_perm _ _).mem_iff.1 hr)).1
    | false =>
      have hmem : r ∈ Audit.candidates s := by
        rw [h.candidates]
        exact List.mem_filter.2 ⟨hr, by rw [hre, Bool.not_false]⟩
      obtain ⟨a, -, hrec⟩ := image_of_mem has hmem
      exact ⟨a, (h.records hre).1 hrec⟩
  cases hread : (successful s').1 with
  | ok as' =>
    have has' := successful_ok hread
    rw [listed_ready hs (hreal has'), listed_ready hs' has']
  | error e =>
    -- then the real attempts cannot all be read either
    have hnone : Audit.listed s' = [] := by
      rw [Audit.listed, hread]
      rfl
    rw [hnone, List.filter_nil]
    cases hreal' : (successful s).1 with
    | ok as =>
      obtain ⟨as', has'⟩ := hcomplete (successful_ok hreal')
      rw [successful_ready hs' has'] at hread
      cases hread
    | error e' =>
      rw [Audit.listed, hreal']
      rfl

end Rehearsed

end Audit

namespace Sweep

open Audit Bucket Job

section Rehearsed

variable {rehearsal : Int → Bool} {s s' : Store} {d : Deployment} {b : Broom} {keep : Nat}

/-- Rehearsals only ever add to what is surplus. -/
theorem surplus_rehearsed (h : Rehearsed rehearsal s s') (hs : s.Ready) (hs' : s'.Ready)
    (keep : Nat) : ∀ a ∈ surplus keep (listed s), a ∈ surplus keep (listed s') := by
  have hsub : ((listed s).filter (!·.persisted)).Sublist ((listed s').filter (!·.persisted)) := by
    rw [h.listed hs hs']
    exact List.filter_sublist.filter _
  exact (hsub.drop keep).subset

theorem doomed_rehearsed (h : Rehearsed rehearsal s s') (hs : s.Ready) (hs' : s'.Ready)
    (keep : Nat) : ∀ u ∈ doomed keep s, u ∈ doomed keep s' := by
  intro u hu
  obtain ⟨a, ha, hu⟩ := List.mem_flatMap.1 hu
  exact List.mem_flatMap.2 ⟨a, surplus_rehearsed h hs hs' keep a ha, hu⟩

theorem mem_spare {o : String × String} (d : Deployment) (us : List Upload) :
    o ∈ spare d us ↔ o ∈ d.objects ∧
      ∀ u ∈ us, refuses d u = false → covers u.uploadPrefix o.1 = false := by
  simp [spare, List.mem_filter]

/-- A cleanup takes away the same data with the rehearsals on record as without them just if it
takes away all the directories of what they displace. -/
theorem rehearsals_harmless_iff (h : Rehearsed rehearsal s s') (hs : s.Ready) (hs' : s'.Ready)
    (hn : s'.Numbered) (halone : d.meanwhile = []) (hdry : b.dryRun = false)
    (hname : b.bucketName.isEmpty = false) (keep : Nat) :
    (∀ objects, ((cycle b keep).perform { d with store := s', objects }).2.objects =
        ((cycle b keep).perform { d with store := s, objects }).2.objects) ↔
      ∀ a ∈ surplus keep (listed s'), a ∉ surplus keep (listed s) → ∀ u ∈ eligibles a,
        refuses d u = false → ∃ u' ∈ doomed keep s, refuses d u' = false ∧
          covers u'.uploadPrefix (directory u.uploadPrefix) = true := by
  have hrun' : ∀ objects, ((cycle b keep).perform { d with store := s', objects }).2.objects =
      spare { d with objects } (doomed keep s') := fun objects =>
    cycle_objects (d := { d with store := s', objects }) hdry hname ⟨halone, hs', hn⟩ keep
  have hrun : ∀ objects, ((cycle b keep).perform { d with store := s, objects }).2.objects =
      spare { d with objects } (doomed keep s) := fun objects =>
    cycle_objects (d := { d with store := s, objects }) hdry hname ⟨halone, hs, h.numbered hn⟩ keep
  simp only [hrun, hrun']
  constructor
  · intro hsame a ha hnew u hu hopen
    have hgone : (directory u.uploadPrefix, "") ∉
        spare { d with objects := [(directory u.uploadPrefix, "")] } (doomed keep s) := by
      rw [← hsame, mem_spare]
      rintro ⟨-, hcovers⟩
      have huncovered := hcovers u (List.mem_flatMap.2 ⟨a, ha, hu⟩) hopen
      rw [covers_directory] at huncovered
      cases huncovered
    by_contra hnone
    refine hgone ((mem_spare _ _).2 ⟨List.mem_singleton_self _, fun u' hu' hopen' => ?_⟩)
    cases hcovers : covers u'.uploadPrefix (directory u.uploadPrefix) with
    | false => rfl
    | true => exact absurd ⟨u', hu', hopen', hcovers⟩ hnone
  · intro hcovered objects
    refine List.filter_congr fun o _ => ?_
    rw [Bool.not_inj_iff, Bool.eq_iff_iff, List.any_eq_true, List.any_eq_true]
    constructor
    · rintro ⟨u, hu, hgoes⟩
      rw [Bool.and_eq_true, Bool.not_eq_true'] at hgoes
      obtain ⟨a, ha, hua⟩ := List.mem_flatMap.1 hu
      by_cases hold : a ∈ surplus keep (listed s)
      · exact ⟨u, List.mem_flatMap.2 ⟨a, hold, hua⟩, by simpa using hgoes⟩
      · obtain ⟨u', hu', hopen, hdir⟩ := hcovered a ha hold u hua hgoes.1
        refine ⟨u', hu', ?_⟩
        rw [Bool.and_eq_true, Bool.not_eq_true']
        exact ⟨hopen, covers_of_directory hdir hgoes.2⟩
    · rintro ⟨u, hu, hgoes⟩
      exact ⟨u, doomed_rehearsed h hs hs' keep u hu, hgoes⟩

end Rehearsed

section Displaced

open Capture

def withRehearsal : Store := ((run { lonePlant with dryRun := true } 3000).perform keeper).2.store

theorem withRehearsal_rehearsed : Rehearsed (· == 3) twoSnapshots withRehearsal := by
  constructor <;> decide +kernel

theorem withRehearsal_ready : withRehearsal.Ready := ⟨rfl, rfl, rfl, rfl⟩

theorem withRehearsal_numbered : withRehearsal.Numbered := ⟨by decide +kernel, by decide +kernel⟩

theorem data_left : ((cycle ⟨false, "bucket"⟩ 2).perform keeper).2.objects =
    [("p/1000/chaindata", "")] := by
  decide +kernel

theorem data_lost :
    ((cycle ⟨false, "bucket"⟩ 2).perform { keeper with store := withRehearsal }).2.objects = [] := by
  decide +kernel

theorem rehearsals_harmless_iff_displaced :
    Rehearsed (· == 3) twoSnapshots withRehearsal ∧ twoSnapshots.Ready ∧ withRehearsal.Ready ∧
      withRehearsal.Numbered ∧ keeper.meanwhile = [] ∧
      ¬ ∀ a ∈ surplus 2 (listed withRehearsal), a ∉ surplus 2 (listed twoSnapshots) →
        ∀ u ∈ eligibles a, refuses keeper u = false →
          ∃ u' ∈ doomed 2 twoSnapshots, refuses keeper u' = false ∧
            covers u'.uploadPrefix (directory u.uploadPrefix) = true := by
  refine ⟨withRehearsal_rehearsed, twoSnapshots_ready, withRehearsal_ready, withRehearsal_numbered,
    rfl, fun hcovered => ?_⟩
  have hname : "bucket".isEmpty = false := by decide
  have hsame := (rehearsals_harmless_iff (b := ⟨false, "bucket"⟩) withRehearsal_rehearsed
    twoSnapshots_ready withRehearsal_ready withRehearsal_numbered rfl rfl hname 2).2 hcovered
    keeper.objects
  exact absurd ((data_lost.symm.trans hsame).trans data_left) (by decide)

/-- A rehearsal takes the place of a snapshot, whose data a cleanup then removes. -/
theorem rehearsal_displaces :
    ¬ ∀ (rehearsal : Int → Bool) (s s' : Store) (d : Deployment) (b : Broom) (keep : Nat),
      Rehearsed rehearsal s s' → s.Ready → s'.Ready → s'.Numbered → d.meanwhile = [] →
      b.dryRun = false →
      ((cycle b keep).perform { d with store := s' }).2.objects =
        ((cycle b keep).perform { d with store := s }).2.objects := by
  intro h
  have hsame := h _ _ _ keeper ⟨false, "bucket"⟩ 2 withRehearsal_rehearsed twoSnapshots_ready
    withRehearsal_ready withRehearsal_numbered rfl rfl
  exact absurd ((data_lost.symm.trans hsame).trans data_left) (by decide)

end Displaced

end Sweep

end FleetSnapshot
