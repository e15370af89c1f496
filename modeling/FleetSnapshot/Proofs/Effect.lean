import FleetSnapshot.Proofs.Ranking
import FleetSnapshot.Proofs.Removed

/-! The exact effect of a cleanup that nobody disturbs, told of the rows alone. Which attempts go is
settled by their heights and numbers, what becomes of their uploads by the flags of the rows and by
what the bucket refuses, and no refusal for one upload has a say in what becomes of another. -/

namespace FleetSnapshot

namespace Audit

/-- A complete attempt that is there and unprotected: it goes unless it is among the newest. -/
def AttemptRow.removable (r : AttemptRow) : Bool :=
  r.status == Progress.success.text && !r.deleted && !r.persisted

/-- The higher of two attempts, or the later of two at one height. -/
def AttemptRow.Above (r r' : AttemptRow) : Prop :=
  r'.height.toUInt64 < r.height.toUInt64 ∨ r.height = r'.height ∧ r'.id < r.id

/-- All that a cleanup looks at can be read. -/
def Store.Legible (s : Store) : Prop :=
  ∀ r ∈ s.attempts, r.status = Progress.success.text → r.deleted = false →
    (∃ a, r.read = .ok a) ∧ ∀ u ∈ s.uploads, u.attemptId = r.id → ∃ v, u.read = .ok v

section Rows

variable {s : Store} {r : AttemptRow} {a : Attempt}

/-- A height whose sign bit is clear is the same number with the sign and without. -/
theorem toInt_of_lt {h : Int64} (hlt : h.toUInt64 < 0x8000000000000000) :
    h.toInt = h.toUInt64.toNat := by
  have hbound : 2 * h.toBitVec.toNat < 18446744073709551616 := by
    have := UInt64.lt_iff_toNat_lt.1 hlt
    change h.toBitVec.toNat < 9223372036854775808 at this
    omega
  exact BitVec.toInt_eq_toNat_of_lt hbound

theorem above_of_highestFirst {r r' : AttemptRow} (hr : r.height.toUInt64 < 0x8000000000000000)
    (hr' : r'.height.toUInt64 < 0x8000000000000000) (hne : r.id ≠ r'.id)
    (h : r.highestFirst r' = true) : r.Above r' := by
  rw [AttemptRow.highestFirst_iff] at h
  rcases h with hlt | ⟨heq, hid⟩
  · rw [toInt_of_lt hr, toInt_of_lt hr'] at hlt
    exact Or.inl (UInt64.lt_iff_toNat_lt.2 (by omega))
  · exact Or.inr ⟨Int64.toInt_inj.1 heq, by omega⟩

/-- The attempts that may go, those first that are the last to do so. -/
def ranked (s : Store) : List AttemptRow := (candidates s).filter (!·.persisted)

theorem ranked_perm (s : Store) : (ranked s).Perm (s.attempts.filter (·.removable)) := by
  have hfilter : s.attempts.filter (·.removable) =
      (s.attempts.filter fun r => r.status == Progress.success.text && !r.deleted).filter
        (!·.persisted) := by
    rw [List.filter_filter]
    exact List.filter_congr fun r _ => Bool.and_comm _ _
  rw [hfilter]
  exact (Order.sort_perm _ _).filter _

theorem mem_of_ranked (hr : r ∈ ranked s) : r ∈ s.attempts ∧ r.removable = true :=
  List.mem_filter.1 ((ranked_perm s).mem_iff.1 hr)

theorem ranked_ids (hn : s.Numbered) : ((ranked s).map (·.id)).Nodup := by
  have hperm := ((ranked_perm s).map (·.id)).nodup_iff
  exact hperm.2 (hn.attempts.sublist (List.filter_sublist.map _))

theorem ranked_above (hn : s.Numbered)
    (hheights : ∀ r ∈ s.attempts, r.height.toUInt64 < 0x8000000000000000) :
    (ranked s).Pairwise AttemptRow.Above := by
  have hsorted : (ranked s).Pairwise fun r r' => r.highestFirst r' = true :=
    (Order.sort_pairwise AttemptRow.highestFirst_trans AttemptRow.highestFirst_total _).filter _
  have hapart : (ranked s).Pairwise fun r r' => r.id ≠ r'.id := List.pairwise_map.1 (ranked_ids hn)
  refine (hsorted.and hapart).imp_of_mem fun hr hr' h => ?_
  exact above_of_highestFirst (hheights _ (mem_of_ranked hr).1) (hheights _ (mem_of_ranked hr').1)
    h.2 h.1

theorem Store.Legible.listed (hs : s.Ready) (h : s.Legible) :
    List.Forall₂ (Records s) (candidates s) (listed s) := by
  have hall : ∀ r ∈ candidates s, ∃ a, Records s r a := by
    intro r hr
    rw [candidates, (Order.sort_perm _ _).mem_iff, List.mem_filter, Bool.and_eq_true, beq_iff_eq,
      Bool.not_eq_true'] at hr
    obtain ⟨⟨a, ha⟩, hus⟩ := h r hr.1 hr.2.1 hr.2.2
    exact exists_records ha hus
  obtain ⟨as, has⟩ := forall₂_of_exists hall
  rwa [listed_ready hs has]

end Rows

end Audit

namespace Sweep

open Audit Bucket

def changeWhere {ρ : Type} (p : ρ → Bool) (change : ρ → ρ) (r : ρ) : ρ := if p r then change r else r

/-- A change made to some and then to others is made to all of them. -/
theorem changeWhere_comp {ρ : Type} {p q : ρ → Bool} {change : ρ → ρ}
    (hp : ∀ r, p (change r) = p r) (hc : ∀ r, change (change r) = change r) :
    changeWhere p change ∘ changeWhere q change = changeWhere (fun r => q r || p r) change := by
  funext r
  cases hq : q r <;> simp [changeWhere, hq, hp, hc]

def deleteUpload (r : UploadRow) : UploadRow := { r with deleted := true }

def deleteAttempt (r : AttemptRow) : AttemptRow := { r with deleted := true }

/-- The uploads that the removals for an attempt mark, and those that go with the attempt. -/
def strikes (d : Deployment) (a : Attempt) (r : UploadRow) : Bool :=
  ((eligibles a).any fun u => !refuses d u && r.id == u.id) ||
    (spotless d a && (r.attemptId == a.id && !r.persisted))

section Store

theorem mapUploads_twice (s : Store) {p q : UploadRow → Bool}
    (hp : ∀ r, p (deleteUpload r) = p r) :
    (s.mapUploads (changeWhere q deleteUpload)).mapUploads (changeWhere p deleteUpload) =
      s.mapUploads (changeWhere (fun r => q r || p r) deleteUpload) := by
  rw [Store.mapUploads_mapUploads, changeWhere_comp hp fun _ => rfl]

theorem mapAttempts_twice (s : Store) {p q : AttemptRow → Bool}
    (hp : ∀ r, p (deleteAttempt r) = p r) :
    (s.mapAttempts (changeWhere q deleteAttempt)).mapAttempts (changeWhere p deleteAttempt) =
      s.mapAttempts (changeWhere (fun r => q r || p r) deleteAttempt) := by
  rw [Store.mapAttempts_mapAttempts, changeWhere_comp hp fun _ => rfl]

variable (d : Deployment)

theorem withoutUploads_store (us : List Upload) :
    (withoutUploads d us).store = d.store.mapUploads
      (changeWhere (fun r => us.any fun u => !refuses d u && r.id == u.id) deleteUpload) := by
  induction us generalizing d with
  | nil => exact (Store.mapUploads_same fun _ _ => rfl).symm
  | cons u us ih =>
    have hsame : refuses (withoutUpload d u) = refuses d := funext (withoutUpload_refuses d u)
    have hcons : withoutUploads d (u :: us) = withoutUploads (withoutUpload d u) us := rfl
    rw [hcons, ih, hsame]
    cases hr : refuses d u with
    | true => simp [withoutUpload, hr]
    | false =>
      have hmark : (withoutUpload d u).store =
          d.store.mapUploads (changeWhere (fun r => r.id == u.id) deleteUpload) := by
        simp only [withoutUpload, hr]
        rfl
      rw [hmark, mapUploads_twice _ fun _ => rfl]
      simp only [List.any_cons, hr, Bool.not_false, Bool.true_and]

theorem withoutAttempt_store (a : Attempt) :
    (withoutAttempt d a).store = (d.store.mapAttempts
        (changeWhere (fun r => spotless d a && (r.id == a.id && !r.persisted)) deleteAttempt)).mapUploads
      (changeWhere (strikes d a) deleteUpload) := by
  let removed : UploadRow → Bool := fun r => (eligibles a).any fun u => !refuses d u && r.id == u.id
  unfold withoutAttempt
  cases hc : spotless d a with
  | true =>
    let own : UploadRow → Bool := fun r => r.attemptId == a.id && !r.persisted
    have hall : strikes d a = fun r => removed r || own r := by
      funext r
      rw [strikes, hc, Bool.true_and]
    have hstore : (d.store.mapUploads (changeWhere removed deleteUpload)).mapUploads
        (changeWhere own deleteUpload) = d.store.mapUploads (changeWhere (strikes d a) deleteUpload) := by
      rw [mapUploads_twice _ fun _ => rfl, hall]
    rw [if_pos rfl, withoutUploads_store]
    exact congrArg (Store.mapAttempts (markOwn a.id)) hstore
  | false =>
    have hnone : changeWhere (fun r : AttemptRow => false && (r.id == a.id && !r.persisted))
        deleteAttempt = fun r => r := rfl
    have hall : strikes d a = removed := by
      funext r
      rw [strikes, hc, Bool.false_and, Bool.or_false]
    rw [if_neg Bool.false_ne_true, withoutUploads_store, hnone, Store.mapAttempts_id, hall]

theorem strikes_congr {d d' : Deployment} (h : refuses d' = refuses d) : strikes d' = strikes d := by
  funext a r
  rw [strikes, h, spotless, h, strikes, spotless]

theorem withoutAttempts_store (as : List Attempt) :
    (withoutAttempts d as).store = (d.store.mapAttempts
        (changeWhere (fun r => as.any fun a => spotless d a && (r.id == a.id && !r.persisted))
          deleteAttempt)).mapUploads
      (changeWhere (fun r => as.any fun a => strikes d a r) deleteUpload) := by
  induction as generalizing d with
  | nil =>
    refine (Store.mapUploads_same fun _ _ => rfl).symm.trans ?_
    exact congrArg _ (Store.mapAttempts_id d.store).symm
  | cons a as ih =>
    have hsame : refuses (withoutAttempt d a) = refuses d := funext (withoutAttempt_refuses d a)
    have hspotless : spotless (withoutAttempt d a) = spotless d := by
      funext a'
      rw [spotless, hsame, spotless]
    have hcons : withoutAttempts d (a :: as) = withoutAttempts (withoutAttempt d a) as := rfl
    rw [hcons, ih, hspotless, strikes_congr hsame, withoutAttempt_store]
    simp only [List.any_cons]
    rw [← mapAttempts_twice _ fun _ => rfl, ← mapUploads_twice _ fun _ => rfl]
    rfl

end Store

def locked (d : Deployment) (pre : String) : Bool := d.refusesRemoval.contains pre

/-- The rows whose data a cleanup asks to be removed, in order. -/
def offered (s : Store) (gone : List AttemptRow) : List UploadRow :=
  gone.flatMap fun a => (s.uploadRowsOf a.id).filter (·.eligible)

/-- No removal for the attempt is refused. -/
def clear (d : Deployment) (a : AttemptRow) : Bool :=
  (offered d.store [a]).all fun r => !locked d r.uploadPrefix

def sweptUpload (d : Deployment) (gone : List AttemptRow) (r : UploadRow) : UploadRow :=
  if gone.any fun a => a.id == r.attemptId &&
      (r.eligible && !locked d r.uploadPrefix || clear d a && !r.persisted) then
    { r with deleted := true }
  else r

def sweptAttempt (d : Deployment) (gone : List AttemptRow) (r : AttemptRow) : AttemptRow :=
  if gone.any fun a => a.id == r.id && clear d a then { r with deleted := true } else r

def swept (d : Deployment) (gone : List AttemptRow) : Deployment :=
  { d with
    store := (d.store.mapAttempts (sweptAttempt d gone)).mapUploads (sweptUpload d gone)
    objects := d.objects.filter fun o => !(offered d.store gone).any fun r =>
      !locked d r.uploadPrefix && covers r.uploadPrefix o.1
    journal := d.journal ++ (offered d.store gone).flatMap fun r =>
      [.removalOpened r.id r.uploadPrefix,
        .removalClosed r.id r.uploadPrefix (!locked d r.uploadPrefix)] }

def tally (d : Deployment) (gone : List AttemptRow) : Report where
  attemptsDeleted := gone.countP (clear d)
  uploadsDeleted := (offered d.store gone).countP fun r => !locked d r.uploadPrefix
  firstError := ((offered d.store gone).find? fun r => locked d r.uploadPrefix).map fun r =>
    .storage s!"failed to delete objects under {r.uploadPrefix}"

section Lists

variable {α β γ : Type} {R : α → β → Prop} {as : List α} {bs : List β}

theorem flatMap_eq_of_forall (h : List.Forall₂ R as bs) {f : α → List γ} {g : β → List γ}
    (hfg : ∀ a b, R a b → g b = f a) : bs.flatMap g = as.flatMap f := by
  rw [List.flatMap_def, List.flatMap_def, map_eq_of_forall h hfg]

theorem any_eq_of_forall (h : List.Forall₂ R as bs) {f : α → Bool} {g : β → Bool}
    (hfg : ∀ a b, R a b → g b = f a) : bs.any g = as.any f := by
  have hmap := congrArg (List.any · id) (map_eq_of_forall h hfg)
  simpa using hmap

theorem all_eq_of_forall (h : List.Forall₂ R as bs) {f : α → Bool} {g : β → Bool}
    (hfg : ∀ a b, R a b → g b = f a) : bs.all g = as.all f := by
  have hmap := congrArg (List.all · id) (map_eq_of_forall h hfg)
  simpa using hmap

theorem countP_eq_of_forall (h : List.Forall₂ R as bs) {f : α → Bool} {g : β → Bool}
    (hfg : ∀ a b, R a b → g b = f a) : bs.countP g = as.countP f := by
  have hmap := congrArg (List.countP id) (map_eq_of_forall h hfg)
  simpa [List.countP_map] using hmap

end Lists

section Offers

variable {d : Deployment} {s : Store} {r : AttemptRow} {a : Attempt} {gone : List AttemptRow}
  {as : List Attempt}

/-- The uploads that a cleanup looks at are those of the rows. -/
theorem eligibles_rows (h : Records s r a) :
    List.Forall₂ (fun row u => row.ReadsAs u) ((s.uploadRowsOf r.id).filter (·.eligible))
      (eligibles a) := by
  have hreads := (mapM_except_ok.1 h.uploads).imp fun _ _ hu => UploadRow.reads hu
  refine List.rel_filter (fun row u hu => ?_) hreads
  change row.eligible = true ↔ u.eligible = true
  rw [hu.eligible]

theorem offered_rows (h : List.Forall₂ (Records s) gone as) :
    List.Forall₂ (fun row u => row.ReadsAs u) (offered s gone) (as.flatMap eligibles) :=
  List.rel_flatMap h fun _ _ hrec => eligibles_rows hrec

theorem refuses_row {row : UploadRow} {u : Upload} (h : row.ReadsAs u) :
    refuses d u = locked d row.uploadPrefix := by
  rw [refuses, h.uploadPrefix, locked]

theorem spotless_row (h : Records d.store r a) : spotless d a = clear d r := by
  have hrows := offered_rows (.cons h .nil)
  rw [List.flatMap_cons, List.flatMap_nil, List.append_nil] at hrows
  exact all_eq_of_forall hrows fun _ _ hu => by rw [refuses_row hu]

/-- A row is marked for an attempt just if it is a free row of it that is not refused, or goes with
the attempt. -/
theorem strikes_row (hn : d.store.Numbered) (h : Records d.store r a) {row : UploadRow}
    (hrow : row ∈ d.store.uploads) :
    strikes d a row = (r.id == row.attemptId &&
      (row.eligible && !locked d row.uploadPrefix || clear d r && !row.persisted)) := by
  have hremoved : ((eligibles a).any fun u => !refuses d u && row.id == u.id) =
      (r.id == row.attemptId && (row.eligible && !locked d row.uploadPrefix)) := by
    rw [any_eq_of_forall (eligibles_rows h) (f := fun row' =>
      !locked d row'.uploadPrefix && row.id == row'.id) fun row' u hu => by
        rw [refuses_row hu, hu.id], Bool.eq_iff_iff, List.any_eq_true]
    constructor
    · rintro ⟨row', hrow', hsame⟩
      obtain ⟨hmem, helig⟩ := List.mem_filter.1 hrow'
      obtain ⟨hmem, hid⟩ := Store.mem_uploadRowsOf.1 hmem
      rw [Bool.and_eq_true, beq_iff_eq] at hsame
      obtain rfl := List.inj_on_of_nodup_map hn.uploads hrow hmem hsame.2
      simp [hid, helig, hsame.1]
    · intro hall
      simp only [Bool.and_eq_true, beq_iff_eq] at hall
      refine ⟨row, List.mem_filter.2 ⟨Store.mem_uploadRowsOf.2 ⟨hrow, hall.1.symm⟩, hall.2.1⟩, ?_⟩
      simp [hall.2.2]
  rw [strikes, hremoved, spotless_row h, h.reads.id, Bool.beq_comm (a := row.attemptId)]
  cases r.id == row.attemptId <;> simp

theorem reportUpload_foldl (us : List Upload) (rep : Report) :
    us.foldl (reportUpload d) rep =
      { rep with
        uploadsDeleted := rep.uploadsDeleted + us.countP fun u => !refuses d u
        firstError := rep.firstError.or ((us.find? (refuses d)).map refusal) } := by
  induction us generalizing rep with
  | nil => simp
  | cons u us ih =>
    rw [List.foldl_cons, ih, List.countP_cons, List.find?_cons, reportUpload]
    cases hr : refuses d u with
    | true => cases hf : rep.firstError <;> simp [Report.remember, hf]
    | false => simp [Nat.add_assoc, Nat.add_comm]

theorem reportAttempt_foldl (as : List Attempt) (rep : Report) :
    as.foldl (reportAttempt d) rep =
      { attemptsDeleted := rep.attemptsDeleted + as.countP (spotless d)
        uploadsDeleted := rep.uploadsDeleted + (as.flatMap eligibles).countP fun u => !refuses d u
        firstError := rep.firstError.or (((as.flatMap eligibles).find? (refuses d)).map refusal) } := by
  induction as generalizing rep with
  | nil => simp
  | cons a as ih =>
    rw [List.foldl_cons, ih, List.countP_cons, List.flatMap_cons, List.countP_append,
      List.find?_append, reportAttempt, reportUpload_foldl]
    cases hc : spotless d a with
    | true => cases (eligibles a).find? (refuses d) <;> simp <;> omega
    | false => cases (eligibles a).find? (refuses d) <;> simp <;> omega

theorem firstRefusal_rows {rows : List UploadRow} {us : List Upload}
    (h : List.Forall₂ (fun row u => row.ReadsAs u) rows us) :
    (us.find? (refuses d)).map refusal = (rows.find? fun r => locked d r.uploadPrefix).map fun r =>
      Error.storage s!"failed to delete objects under {r.uploadPrefix}" := by
  induction h with
  | nil => rfl
  | cons hu _ ih =>
    rw [List.find?_cons, List.find?_cons, refuses_row hu]
    split
    · rw [Option.map_some, Option.map_some, refusal, hu.uploadPrefix]
    · exact ih

theorem tally_rows (h : List.Forall₂ (Records d.store) gone as) :
    as.foldl (reportAttempt d) {} = tally d gone := by
  have hrows := offered_rows h
  have hattempts : as.countP (spotless d) = gone.countP (clear d) :=
    countP_eq_of_forall h fun _ _ hrec => spotless_row hrec
  have huploads : ((as.flatMap eligibles).countP fun u => !refuses d u) =
      (offered d.store gone).countP fun r => !locked d r.uploadPrefix :=
    countP_eq_of_forall hrows fun _ _ hu => by rw [refuses_row hu]
  rw [reportAttempt_foldl, hattempts, huploads, firstRefusal_rows hrows, tally]
  simp

theorem withoutAttempts_rest (d : Deployment) (as : List Attempt) :
    withoutAttempts d as = { d with
      store := (withoutAttempts d as).store
      objects := (withoutAttempts d as).objects
      journal := (withoutAttempts d as).journal } := by
  have upload : ∀ (d : Deployment) (u : Upload), withoutUpload d u = { d with
      store := (withoutUpload d u).store
      objects := (withoutUpload d u).objects
      journal := (withoutUpload d u).journal } := by
    intro d u
    unfold withoutUpload
    split <;> rfl
  have uploads : ∀ (us : List Upload) (d : Deployment), withoutUploads d us = { d with
      store := (withoutUploads d us).store
      objects := (withoutUploads d us).objects
      journal := (withoutUploads d us).journal } := by
    intro us
    induction us with
    | nil => exact fun d => rfl
    | cons u us ih =>
      intro d
      rw [show withoutUploads d (u :: us) = withoutUploads (withoutUpload d u) us from rfl, ih,
        upload]
  induction as generalizing d with
  | nil => rfl
  | cons a as ih =>
    have attempt : withoutAttempt d a = { d with
        store := (withoutAttempt d a).store
        objects := (withoutAttempt d a).objects
        journal := (withoutAttempt d a).journal } := by
      unfold withoutAttempt
      rw [uploads]
      split <;> rfl
    rw [show withoutAttempts d (a :: as) = withoutAttempts (withoutAttempt d a) as from rfl, ih,
      attempt]

theorem swept_rows (hn : d.store.Numbered) (hpers : ∀ r ∈ gone, r.persisted = false)
    (hgone : ∀ r ∈ gone, r ∈ d.store.attempts) (h : List.Forall₂ (Records d.store) gone as) :
    withoutAttempts d as = swept d gone := by
  have hrows := offered_rows h
  have hmem := (List.forall₂_and_left _ _).2 ⟨fun r hr => hr, h⟩
  have hattempts : d.store.mapAttempts (changeWhere (fun r => as.any fun a =>
      spotless d a && (r.id == a.id && !r.persisted)) deleteAttempt) =
      d.store.mapAttempts (sweptAttempt d gone) := by
    refine Store.mapAttempts_congr fun row hrow => ?_
    have hany : (as.any fun a => spotless d a && (row.id == a.id && !row.persisted)) =
        gone.any fun a => a.id == row.id && clear d a := by
      refine any_eq_of_forall hmem fun r a hra => ?_
      rw [spotless_row hra.2, hra.2.reads.id]
      by_cases hid : row.id = r.id
      · rw [List.inj_on_of_nodup_map hn.attempts hrow (hgone r hra.1) hid, hpers r hra.1]
        simp
      · rw [beq_false_of_ne hid, beq_false_of_ne (Ne.symm hid)]
        simp
    simp only [changeWhere, sweptAttempt, hany]
    rfl
  have huploads : ∀ s' : Store, s'.uploads = d.store.uploads → s'.mapUploads
      (changeWhere (fun r => as.any fun a => strikes d a r) deleteUpload) =
      s'.mapUploads (sweptUpload d gone) := by
    intro s' hs'
    refine Store.mapUploads_congr fun row hrow => ?_
    have hany := any_eq_of_forall h fun r a hra => strikes_row hn hra (hs' ▸ hrow)
    simp only [changeWhere, sweptUpload, hany]
    rfl
  have hstore : (withoutAttempts d as).store = (swept d gone).store := by
    rw [withoutAttempts_store, hattempts, huploads _ (Store.mapAttempts_uploads _ _)]
    rfl
  have hobjects : (withoutAttempts d as).objects = (swept d gone).objects := by
    rw [withoutAttempts_objects]
    refine List.filter_congr fun o _ => ?_
    rw [any_eq_of_forall hrows fun row u hu => by rw [refuses_row hu, hu.uploadPrefix]]
  have hjournal : (withoutAttempts d as).journal = (swept d gone).journal := by
    rw [withoutAttempts_journal]
    refine congrArg _ (flatMap_eq_of_forall hrows fun row u hu => ?_)
    rw [removal, refuses_row hu, hu.id, hu.uploadPrefix]
  rw [withoutAttempts_rest, hstore, hobjects, hjournal]
  rfl

theorem swept_nil (d : Deployment) : swept d [] = d := by
  have hattempts : d.store.mapAttempts (sweptAttempt d []) = d.store := Store.mapAttempts_id d.store
  have huploads : d.store.mapUploads (sweptUpload d []) = d.store :=
    Store.mapUploads_same fun _ _ => rfl
  simp [swept, offered, hattempts, huploads]

end Offers

/-- A cleanup that nobody disturbs deals with all the unprotected attempts but the highest, and with
them just as it should. If there are no more than are kept, it does nothing. -/
theorem cycle_effect (b : Broom) (hdry : b.dryRun = false) (hname : b.bucketName.isEmpty = false)
    (d : Deployment) (h : Calm d) (hread : d.store.Legible)
    (hheights : ∀ r ∈ d.store.attempts, r.height.toUInt64 < 0x8000000000000000) (keep : Nat) :
    ∃ rows : List AttemptRow, rows.Perm (d.store.attempts.filter (·.removable)) ∧
      rows.Pairwise AttemptRow.Above ∧
      (cycle b keep).perform d =
        if rows.length ≤ keep then (.ok none, d)
        else (.ok (some (tally d (rows.drop keep))), swept d (rows.drop keep)) := by
  refine ⟨ranked d.store, ranked_perm d.store, ranked_above h.numbered hheights, ?_⟩
  have hlisted := hread.listed h.ready
  have hsurplus : List.Forall₂ (Records d.store) ((ranked d.store).drop keep)
      (surplus keep (listed d.store)) := by
    refine List.forall₂_drop keep (List.rel_filter (fun r a hrec => ?_) hlisted)
    change (!r.persisted) = true ↔ (!a.persisted) = true
    rw [hrec.reads.persisted]
  have hok : (successful d.store).1 = .ok (listed d.store) := by
    rw [successful_ready h.ready hlisted]
  have hmem : ∀ r ∈ (ranked d.store).drop keep, r ∈ d.store.attempts ∧ r.persisted = false := by
    intro r hr
    obtain ⟨hrow, hgoes⟩ := mem_of_ranked (List.mem_of_mem_drop hr)
    simp only [AttemptRow.removable, Bool.and_eq_true, Bool.not_eq_true'] at hgoes
    exact ⟨hrow, hgoes.2⟩
  rw [cycle_perform hdry hname h, hok, swept_rows h.numbered (fun r hr => (hmem r hr).2)
    (fun r hr => (hmem r hr).1) hsurplus]
  have hlength := hsurplus.length_eq
  rw [List.length_drop] at hlength
  simp only [Except.mapError, Except.map]
  cases hs : surplus keep (listed d.store) with
  | nil =>
    rw [hs, List.length_nil] at hlength
    rw [if_pos (by omega), List.drop_eq_nil_of_le (by omega), swept_nil]
  | cons a as =>
    rw [hs, List.length_cons] at hlength
    rw [if_neg (by omega), ← tally_rows hsurplus, hs]

def halfLocked : Deployment := { keeper with refusesRemoval := ["p/1000"] }

theorem halfLocked_legible : halfLocked.store.Legible := by
  have hattempts : ∀ r ∈ halfLocked.store.attempts, r.read.isOk = true := by decide +kernel
  have huploads : ∀ r ∈ halfLocked.store.uploads, r.read.isOk = true := by decide +kernel
  exact fun r hr _ _ =>
    ⟨exists_of_isOk (hattempts r hr), fun u hu _ => exists_of_isOk (huploads u hu)⟩

theorem cycle_effect_locked :
    Calm halfLocked ∧ halfLocked.store.Legible ∧
      (∀ r ∈ halfLocked.store.attempts, r.height.toUInt64 < 0x8000000000000000) ∧
      ∃ rows : List AttemptRow, rows.Perm (halfLocked.store.attempts.filter (·.removable)) ∧
        rows.Pairwise AttemptRow.Above ∧
        (cycle ⟨false, "bucket"⟩ 0).perform halfLocked =
          if rows.length ≤ 0 then (.ok none, halfLocked)
          else (.ok (some (tally halfLocked (rows.drop 0))), swept halfLocked (rows.drop 0)) := by
  have hcalm : Calm halfLocked := ⟨rfl, twoSnapshots_ready, by decide +kernel, by decide +kernel⟩
  have hheights : ∀ r ∈ halfLocked.store.attempts, r.height.toUInt64 < 0x8000000000000000 := by
    decide +kernel
  exact ⟨hcalm, halfLocked_legible, hheights,
    cycle_effect ⟨false, "bucket"⟩ rfl (by decide) halfLocked hcalm halfLocked_legible hheights 0⟩

end Sweep

end FleetSnapshot
