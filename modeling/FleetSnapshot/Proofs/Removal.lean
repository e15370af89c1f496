import FleetSnapshot.Proofs.Claim
import FleetSnapshot.Proofs.Filed

/-! Removals that nobody disturbs. The claim on a free row is won, and then only the bucket decides:
the data is gone and the row marked, or the row is released and all is as before. -/

namespace FleetSnapshot.Sweep

open Audit

/-- A deployment that nobody else works on. -/
structure Calm (d : Deployment) : Prop where
  alone : d.meanwhile = []
  ready : d.store.Ready
  numbered : d.store.Numbered

/-- What adds no row leaves it so. -/
theorem Calm.perform {β : Type} {d : Deployment} (h : Calm d) {act : Act β} (hadds : ¬ act.Adds) :
    Calm (d.perform act).2 := by
  obtain ⟨halone, ht⟩ := d.perform_touches act h.alone hadds
  exact ⟨halone, (h.ready.plain.touches ht).ready h.ready (d.perform_spends act h.alone),
    h.numbered.touches ht⟩

def refuses (d : Deployment) (u : Upload) : Bool := d.refusesRemoval.contains u.uploadPrefix

def refusal (u : Upload) : Error :=
  .storage s!"failed to delete objects under {u.uploadPrefix}"

def markUpload (id : Int) (r : UploadRow) : UploadRow :=
  if r.id == id then { r with deleted := true } else r

/-- A claimed upload has been dealt with: its data is gone, or its row has been released. -/
def withoutUpload (d : Deployment) (u : Upload) : Deployment :=
  let d' := { d with
    journal := d.journal ++ [.removalOpened u.id u.uploadPrefix,
      .removalClosed u.id u.uploadPrefix (!refuses d u)] }
  if refuses d u then d'
  else { d' with
    store := d.store.mapUploads (markUpload u.id)
    objects := d.objects.remove u.uploadPrefix }

def Free (s : Store) (u : Upload) : Prop :=
  ∃ r ∈ s.uploads, r.id = u.id ∧ r.status = Progress.success.text ∧ r.persisted = false ∧
    r.deleted = false

section Upload

variable {b : Broom} {d : Deployment} {u u' : Upload}

theorem Calm.mapUploads (h : Calm d) {f : UploadRow → UploadRow} (hid : ∀ r, (f r).id = r.id) :
    (d.store.mapUploads f).Ready ∧ (d.store.mapUploads f).Numbered := by
  refine ⟨h.ready.mapUploads f, h.numbered.attempts, ?_⟩
  rw [Store.mapUploads_uploads, List.map_map, show (·.id) ∘ f = (·.id) from funext hid]
  exact h.numbered.uploads

theorem markUpload_id (id : Int) (r : UploadRow) : (markUpload id r).id = r.id := by
  unfold markUpload
  split <;> rfl

theorem withoutUpload_calm (h : Calm d) (u : Upload) : Calm (withoutUpload d u) := by
  unfold withoutUpload
  split
  · exact ⟨h.alone, h.ready, h.numbered⟩
  · obtain ⟨hready, hnumbered⟩ := h.mapUploads (markUpload_id u.id)
    exact ⟨h.alone, hready, hnumbered⟩

theorem withoutUpload_refuses (d : Deployment) (u u' : Upload) :
    refuses (withoutUpload d u) u' = refuses d u' := by
  unfold withoutUpload
  split <;> rfl

theorem Free.without (h : Free d.store u') (hne : u'.id ≠ u.id) :
    Free (withoutUpload d u).store u' := by
  unfold withoutUpload
  split
  · exact h
  · obtain ⟨r, hr, hid, hfree⟩ := h
    refine ⟨r, ?_, hid, hfree⟩
    dsimp only
    rw [Store.mapUploads_uploads]
    refine List.mem_map.2 ⟨r, hr, ?_⟩
    rw [markUpload, if_neg (by simp [hid, hne])]

theorem openRemoval_alone (h : d.meanwhile = []) (upload : Int) (pre : String) :
    d.perform (.openRemoval upload pre) = ((), d.note (.removalOpened upload pre)) := by
  simp only [Deployment.perform, Deployment.openRemoval, Deployment.note, h, takeEntry]

theorem closeRemoval_refused (h : refuses d u = true) :
    d.perform (.closeRemoval u.id u.uploadPrefix) =
      (.error (refusal u), d.note (.removalClosed u.id u.uploadPrefix false)) := by
  have hc : d.refusesRemoval.contains u.uploadPrefix = true := h
  simp only [Deployment.perform, Deployment.closeRemoval, hc, Bool.not_true, Bool.false_eq_true,
    if_false, refusal]

theorem closeRemoval_accepted (h : refuses d u = false) :
    d.perform (.closeRemoval u.id u.uploadPrefix) =
      (.ok (), { d.note (.removalClosed u.id u.uploadPrefix true) with
        objects := d.objects.remove u.uploadPrefix }) := by
  have hc : d.refusesRemoval.contains u.uploadPrefix = false := h
  simp only [Deployment.perform, Deployment.closeRemoval, hc, Bool.not_false, if_true]

theorem removeClaimed_refused (hready : d.store.Ready) (halone : d.meanwhile = [])
    (h : refuses d u = true) :
    (removeClaimed u).perform d =
      (.error (.failed (refusal u)),
        { d with
          journal := d.journal ++ [.removalOpened u.id u.uploadPrefix,
            .removalClosed u.id u.uploadPrefix false]
          store := d.store.mapUploads fun r =>
            if r.id == u.id then { r with deleted := false } else r }) := by
  have h' : refuses (d.note (.removalOpened u.id u.uploadPrefix)) u = true := h
  have hrelease := release_ready hready u.id
  rw [removeClaimed, Job.perform_bind, Job.perform_act, openRemoval_alone halone]
  dsimp only
  rw [Job.perform_bind, Job.perform_act, closeRemoval_refused h']
  dsimp only
  rw [Job.perform_bind, Job.perform_act]
  simp only [Deployment.perform, Deployment.note, Op.run, Op.query, hrelease, List.append_assoc]
  rfl

theorem removeClaimed_accepted (halone : d.meanwhile = []) (h : refuses d u = false) :
    (removeClaimed u).perform d =
      (.ok .deleted,
        { d with
          journal := d.journal ++ [.removalOpened u.id u.uploadPrefix,
            .removalClosed u.id u.uploadPrefix true]
          objects := d.objects.remove u.uploadPrefix }) := by
  have h' : refuses (d.note (.removalOpened u.id u.uploadPrefix)) u = false := h
  rw [removeClaimed, Job.perform_bind, Job.perform_act, openRemoval_alone halone]
  dsimp only
  rw [Job.perform_bind, Job.perform_act, closeRemoval_accepted h']
  simp only [Deployment.note, List.append_assoc]
  rfl

/-- The row of a free upload is claimed, and then only the bucket decides. -/
theorem removeUpload_perform (hdry : b.dryRun = false) (hname : b.bucketName.isEmpty = false)
    (h : Calm d) (hu : Free d.store u) :
    (removeUpload b u).perform d =
      (if refuses d u then .error (.failed (refusal u)) else .ok .deleted, withoutUpload d u) := by
  obtain ⟨r, hr, hid, hst, hpers, hdel⟩ := hu
  have hclaim : claim u.id d.store = (.ok true, d.store.mapUploads (markUpload u.id)) := by
    rw [← hid]
    exact claim_ready h.ready h.numbered hr (by simp [UploadRow.eligible, hst, hpers, hdel])
  have hready := (h.mapUploads (markUpload_id u.id)).1
  let d' := { d with store := d.store.mapUploads (markUpload u.id) }
  rw [removeUpload_eq, if_neg (by simp [hname]), if_neg (by simp [hdry]), Job.perform_bind,
    Job.perform_audit]
  simp only [Op.run, Op.query, hclaim, Except.mapError, if_true]
  by_cases hf : refuses d u = true
  · have hf' : refuses d' u = true := hf
    -- releasing the row undoes the claim, since the row was not marked before
    have hback : (d.store.mapUploads (markUpload u.id)).mapUploads (fun r =>
        if r.id == u.id then { r with deleted := false } else r) = d.store := by
      rw [Store.mapUploads_mapUploads]
      refine Store.mapUploads_same fun r' hr' => ?_
      by_cases hid' : r'.id = u.id
      · have hrow := List.inj_on_of_nodup_map h.numbered.uploads hr' hr (hid'.trans hid.symm)
        simp only [Function.comp_apply, markUpload, hid', beq_self_eq_true, if_true]
        rw [hrow, ← hid, ← hdel]
      · simp [markUpload, hid']
    rw [removeClaimed_refused (d := d') hready h.alone hf']
    simp only [withoutUpload, hf, if_true, Bool.not_true]
    rw [show d'.store = d.store.mapUploads (markUpload u.id) from rfl, hback]
  · rw [Bool.not_eq_true] at hf
    have hf' : refuses d' u = false := hf
    rw [removeClaimed_accepted (d := d') h.alone hf']
    simp only [withoutUpload, hf, Bool.not_false]
    rfl

end Upload

def reportUpload (d : Deployment) (rep : Report) (u : Upload) : Report :=
  if refuses d u then rep.remember (refusal u)
  else { rep with uploadsDeleted := rep.uploadsDeleted + 1 }

def withoutUploads (d : Deployment) (us : List Upload) : Deployment := us.foldl withoutUpload d

section Uploads

variable {b : Broom} {d : Deployment}

theorem withoutUploads_calm (h : Calm d) (us : List Upload) : Calm (withoutUploads d us) := by
  induction us generalizing d with
  | nil => exact h
  | cons u us ih => exact ih (withoutUpload_calm h u)

theorem withoutUploads_refuses (d : Deployment) (us : List Upload) (u : Upload) :
    refuses (withoutUploads d us) u = refuses d u := by
  induction us generalizing d with
  | nil => rfl
  | cons u' us ih => exact (ih _).trans (withoutUpload_refuses d u' u)

theorem reportUpload_congr {d' : Deployment} (h : refuses d' = refuses d) :
    reportUpload d' = reportUpload d := by
  funext rep u
  rw [reportUpload, h, reportUpload]

theorem removeUploads_perform (hdry : b.dryRun = false) (hname : b.bucketName.isEmpty = false)
    (h : Calm d) {us : List Upload} (hids : (us.map (·.id)).Nodup)
    (hfree : ∀ u ∈ us, Free d.store u) (rep : Report) :
    (removeUploads b us rep).perform d =
      (.ok (us.foldl (reportUpload d) rep, us.countP (refuses d)), withoutUploads d us) := by
  induction us generalizing d rep with
  | nil => rfl
  | cons u us ih =>
    rw [List.map_cons, List.nodup_cons] at hids
    have hfree' : ∀ u' ∈ us, Free (withoutUpload d u).store u' := by
      intro u' hu'
      refine (hfree u' (List.mem_cons_of_mem _ hu')).without fun heq => ?_
      exact hids.1 (heq ▸ List.mem_map_of_mem hu')
    have hsame : refuses (withoutUpload d u) = refuses d := funext (withoutUpload_refuses d u)
    have hrep := reportUpload_congr hsame
    have ih' := fun rep => ih (withoutUpload_calm h u) hids.2 hfree' rep
    rw [hsame, hrep] at ih'
    rw [removeUploads, Job.perform_bind, Job.perform_outcome,
      removeUpload_perform hdry hname h (hfree u List.mem_cons_self), List.countP_cons]
    cases hr : refuses d u with
    | true =>
      simp only [if_true, Job.perform_bind, ih', Job.perform_pure]
      simp only [List.foldl_cons, reportUpload, hr, if_true]
      rfl
    | false =>
      simp only [Bool.false_eq_true, if_false, ih', Nat.add_zero]
      simp only [List.foldl_cons, reportUpload, hr, Bool.false_eq_true, if_false]
      rfl

end Uploads

end FleetSnapshot.Sweep
