import FleetSnapshot.Proofs.Commands
import FleetSnapshot.Sweep

/-! How a cleanup is put together. It looks at records, marks attempts and removes the data of
uploads, and what every removal keeps, all of it keeps. -/

namespace FleetSnapshot

structure Discipline.Overlooks {σ : Type} (D : Discipline σ) : Prop where
  getUpload : ∀ c id, D.Ignores c (.audit (.getUpload id))
  getAttempt : ∀ c id, D.Ignores c (.audit (.getAttempt id))
  markDeleted : ∀ c id, D.Ignores c (.audit (.markDeleted id))

namespace Sweep

open Audit Job

/-- A second look at a row that will not be claimed. -/
def recheck (id : Int) (k : Job Removal) : Job Removal := do
  let now ← current id
  if now.persisted || now.deleted then return .skipped
  Job.ofExcept (ensureDeletable now)
  k

theorem removeUpload_eq (b : Broom) (u : Upload) :
    removeUpload b u =
      if b.bucketName.isEmpty then Job.fail (.storage "bucket name not configured in S3 settings")
      else if b.dryRun then recheck u.id (pure .rehearsed)
      else (do
        if ← Job.audit (.claim u.id) then removeClaimed u
        else
          recheck u.id (Job.fail (.storage s!"could not claim target {u.id} for deletion"))) := by
  simp only [removeUpload]
  split <;> rfl

theorem surplus_sublist (keep : Nat) (as : List Attempt) : (surplus keep as).Sublist as :=
  (List.drop_sublist _ _).trans List.filter_sublist

theorem mem_surplus {keep : Nat} {a : Attempt} {as : List Attempt} (ha : a ∈ surplus keep as) :
    a ∈ as ∧ a.persisted = false := by
  have h := List.mem_filter.1 (List.mem_of_mem_drop ha)
  exact ⟨h.1, by simpa using h.2⟩

def eligibles (a : Attempt) : List Upload := a.uploads.filter (·.eligible)

section Keeps

variable {σ : Type} {D : Discipline σ} {c : σ}

theorem current_stays {id : Int} (hD : D.Ignores c (.audit (.getUpload id))) :
    Stays D c (current id) := by
  refine stays_bind (stays_audit hD) fun u => ?_
  cases u
  · exact stays_fail _
  · exact stays_pure _

theorem recheck_stays {id : Int} (hD : D.Ignores c (.audit (.getUpload id))) {k : Job Removal}
    (hk : Stays D c k) : Stays D c (recheck id k) := by
  refine stays_bind (current_stays hD) fun now => ?_
  split
  · exact stays_pure _
  · exact stays_bind (stays_ofExcept _) fun _ => hk

theorem markAttempt_stays (hD : D.Overlooks) (id : Int) (rep : Report) :
    Stays D c (markAttempt id rep) := by
  refine stays_bind (stays_act (hD.getAttempt c id)) fun now => ?_
  cases now with
  | error e => exact stays_pure _
  | ok now =>
    dsimp only
    split
    · exact stays_pure _
    · refine stays_bind (stays_act (hD.markDeleted c id)) fun done => ?_
      cases done <;> exact stays_pure _

variable {inv : σ → Prop}

def Preserves {α : Type} (D : Discipline σ) (inv : σ → Prop) (j : Job α) : Prop :=
  ∀ c, inv c → j.Keeps D c (fun c _ => inv c) fun c _ => inv c

theorem preserves_of_stays {α : Type} {j : Job α} (h : ∀ c, Stays D c j) : Preserves D inv j := by
  intro c hc
  refine Keeps.mono (h c) (fun c' _ heq => ?_) fun c' _ heq => ?_
  · exact heq ▸ hc
  · exact heq ▸ hc

theorem removeUploads_preserves {b : Broom} {us : List Upload}
    (h : ∀ u ∈ us, Preserves D inv (removeUpload b u)) (rep : Report) :
    Preserves D inv (removeUploads b us rep) := by
  induction us generalizing rep with
  | nil => exact fun c hc => hc
  | cons u us ih =>
    have ih' := ih fun u' hu' => h u' (List.mem_cons_of_mem _ hu')
    intro c hc
    simp only [removeUploads, keeps_bind, keeps_outcome]
    refine (h u List.mem_cons_self c hc).mono (fun c removal hc => ?_) fun c s hc => ?_
    · cases removal <;> exact ih' _ c hc
    · cases s with
      | hung => exact hc
      | failed e =>
        dsimp only
        exact (ih' _ c hc).mono (fun _ _ h => h) fun _ _ h => h

theorem sweepAll_preserves {b : Broom} {as : List Attempt} (hD : D.Overlooks)
    (h : ∀ a ∈ as, ∀ u ∈ eligibles a, Preserves D inv (removeUpload b u)) (rep : Report) :
    Preserves D inv (sweepAll b as rep) := by
  induction as generalizing rep with
  | nil => exact fun c hc => hc
  | cons a as ih =>
    have ih' := ih fun a' ha' => h a' (List.mem_cons_of_mem _ ha')
    have hremove := removeUploads_preserves (h a List.mem_cons_self) rep
    intro c hc
    rw [sweepAll, keeps_bind, sweepAttempt, keeps_bind]
    refine (hremove c hc).mono (fun c x hc => ?_) fun _ _ hc => hc
    dsimp only
    split
    · exact ih' _ c hc
    · refine Keeps.mono (markAttempt_stays hD a.id _) (fun c' rep heq => ?_) fun c' _ heq => ?_
      · exact ih' _ c' (heq ▸ hc)
      · exact heq ▸ hc

end Keeps

end Sweep

end FleetSnapshot
