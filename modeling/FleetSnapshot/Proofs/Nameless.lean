import FleetSnapshot.Proofs.Effect

/-! A cleanup that nobody disturbs, whatever comes of its removals. If the bucket has no name, none
of them is even tried, and of the surplus attempts only those go that have no data left. So in any
case it does without some of the surplus attempts, and without all of them if it reports no error. -/

namespace FleetSnapshot.Sweep

open Audit

def Clean : Except Stop (Option Report) → Prop
  | .ok none => True
  | .ok (some rep) => rep.firstError = none
  | .error _ => False

instance : DecidablePred Clean
  | .ok none => inferInstanceAs (Decidable True)
  | .ok (some rep) => inferInstanceAs (Decidable (rep.firstError = none))
  | .error _ => inferInstanceAs (Decidable False)

def nameless : Error := .storage "bucket name not configured in S3 settings"

section Nameless

variable {b : Broom} {d : Deployment}

theorem remember_firstError (rep : Report) (e : Error) : (rep.remember e).firstError ≠ none := by
  cases h : rep.firstError <;> simp [Report.remember, h]

theorem removeUpload_nameless (hname : b.bucketName.isEmpty = true) (u : Upload) (d : Deployment) :
    (removeUpload b u).perform d = (.error (.failed nameless), d) := by
  rw [removeUpload_eq, if_pos hname]
  rfl

/-- Every upload fails, and nothing happens. -/
theorem removeUploads_nameless (hname : b.bucketName.isEmpty = true) (us : List Upload)
    (d : Deployment) (rep : Report) :
    ∃ rep', (removeUploads b us rep).perform d = (.ok (rep', us.length), d) ∧
      (rep'.firstError = none → rep.firstError = none ∧ us = []) ∧ (us = [] → rep' = rep) := by
  induction us generalizing rep with
  | nil => exact ⟨rep, rfl, fun h => ⟨h, rfl⟩, fun _ => rfl⟩
  | cons u us ih =>
    obtain ⟨rep', hrun, hfirst, -⟩ := ih (rep.remember nameless)
    refine ⟨rep', ?_, fun h => absurd (hfirst h).1 (remember_firstError rep nameless), fun h => nomatch h⟩
    rw [removeUploads, Job.perform_bind, Job.perform_outcome, removeUpload_nameless hname]
    simp only [Job.perform_bind, hrun]
    rfl

/-- An attempt with no data left is marked all the same. -/
theorem sweepAttempt_nameless (hdry : b.dryRun = false) (hname : b.bucketName.isEmpty = true)
    (h : Calm d) {a : Attempt} (hs : Standing d.store a) (rep : Report) :
    ∃ rep', (sweepAttempt b a rep).perform d =
        (.ok rep', if (eligibles a).isEmpty then withoutAttempt d a else d) ∧
      (rep'.firstError = none → rep.firstError = none ∧ eligibles a = []) := by
  obtain ⟨rep', hrun, hfirst, hnone⟩ := removeUploads_nameless hname (eligibles a) d rep
  rw [sweepAttempt, Job.perform_bind, show a.uploads.filter (·.eligible) = eligibles a from rfl, hrun]
  simp only [hdry, Bool.or_false, decide_eq_true_eq]
  cases hus : eligibles a with
  | nil =>
    obtain ⟨r, hr, hid, hpers, a', ha'⟩ := hs.row
    obtain ⟨a'', hrec⟩ := exists_records ha' fun row hrow hattempt =>
      hs.readable row hrow (hattempt.trans hid)
    have hmark := markAttempt_perform h (a := a) ⟨r, hr, hid, hpers, a'', hrec⟩ rep
    refine ⟨{ rep with attemptsDeleted := rep.attemptsDeleted + 1 }, ?_, fun hclean => ⟨hclean, rfl⟩⟩
    rw [if_neg (by simp), hnone hus, hmark]
    simp only [withoutAttempt, spotless, hus, List.all_nil, List.isEmpty_nil, if_true]
    rfl
  | cons u us =>
    refine ⟨rep', ?_, fun hclean => absurd (hfirst hclean).2 (by simp [hus])⟩
    rw [if_pos (by simp)]
    rfl

theorem sweepAll_nameless (hdry : b.dryRun = false) (hname : b.bucketName.isEmpty = true)
    (h : Calm d) {as : List Attempt} (hids : (as.map (·.id)).Nodup)
    (hs : ∀ a ∈ as, Standing d.store a) (rep : Report) :
    ∃ rep', (sweepAll b as rep).perform d =
        (.ok rep', withoutAttempts d (as.filter fun a => (eligibles a).isEmpty)) ∧
      (rep'.firstError = none → rep.firstError = none ∧ ∀ a ∈ as, eligibles a = []) := by
  induction as generalizing d rep with
  | nil => exact ⟨rep, rfl, fun h => ⟨h, fun _ ha => absurd ha List.not_mem_nil⟩⟩
  | cons a as ih =>
    rw [List.map_cons, List.nodup_cons] at hids
    have ha := hs a List.mem_cons_self
    obtain ⟨rep', hrun, hfirst⟩ := sweepAttempt_nameless hdry hname h ha rep
    have hleft : Calm (if (eligibles a).isEmpty then withoutAttempt d a else d) ∧
        ∀ a' ∈ as, Standing (if (eligibles a).isEmpty then withoutAttempt d a else d).store a' := by
      have hs' : ∀ a' ∈ as, Standing d.store a' := fun a' ha' => hs a' (List.mem_cons_of_mem _ ha')
      split
      · refine ⟨withoutAttempt_calm h ha, fun a' ha' => (hs' a' ha').without h.numbered ha fun heq => ?_⟩
        exact hids.1 (heq ▸ List.mem_map_of_mem ha')
      · exact ⟨h, hs'⟩
    obtain ⟨rep'', hrun', hfirst'⟩ := ih hleft.1 hids.2 hleft.2 rep'
    refine ⟨rep'', ?_, fun hclean => ?_⟩
    · rw [sweepAll, Job.perform_bind, hrun]
      refine hrun'.trans ?_
      cases hus : (eligibles a).isEmpty <;> simp [hus, withoutAttempts]
    · obtain ⟨hclean', has⟩ := hfirst' hclean
      obtain ⟨hclean'', hnone⟩ := hfirst hclean'
      exact ⟨hclean'', List.forall_mem_cons.2 ⟨hnone, has⟩⟩

end Nameless

section Cycle

variable {b : Broom} {d : Deployment}

/-- A cleanup deals with what it has listed; if there is nothing surplus, or the listing fails, it
does nothing. -/
theorem cycle_listed (h : Calm d) (keep : Nat) :
    (cycle b keep).perform d = match (successful d.store).1 with
      | .error e => (.error (.failed e), d)
      | .ok as =>
        if surplus keep as = [] then (.ok none, d)
        else
          let (result, d') := (sweepAll b (surplus keep as) {}).perform d
          (result.map some, d') := by
  have hstill : (successful d.store).2 = d.store := successful_still _ h.ready
  rw [cycle, Job.perform_bind, Job.perform_audit]
  simp only [Op.run, Op.query, hstill]
  cases (successful d.store).1 with
  | error e => rfl
  | ok as =>
    simp only [Except.mapError]
    cases surplus keep as with
    | nil => rfl
    | cons a as' =>
      simp only [Job.perform_bind, reduceCtorEq, if_false]
      rcases (sweepAll b (a :: as') {}).perform d with ⟨_ | _, d'⟩ <;> rfl

/-- What a cleanup that nobody disturbs comes to: it does without some of the surplus attempts. If it
has no error to report, these are all of them, and no removal for them is refused. -/
theorem cycle_without (hdry : b.dryRun = false) (h : Calm d) (keep : Nat) :
    ∃ as, as.Sublist (surplus keep (listed d.store)) ∧
      ((cycle b keep).perform d).2 = withoutAttempts d as ∧
      (Clean ((cycle b keep).perform d).1 → (∃ as', (successful d.store).1 = .ok as') ∧
        as = surplus keep (listed d.store) ∧ ∀ a ∈ as, spotless d a = true) := by
  have hids := surplus_distinct h.numbered keep
  have hs : ∀ a ∈ surplus keep (listed d.store), Standing d.store a :=
    fun a ha => standing_of_surplus h.numbered ha
  rw [cycle_listed h]
  cases hok : (successful d.store).1 with
  | error e => exact ⟨[], List.nil_sublist _, rfl, fun hclean => absurd hclean id⟩
  | ok as =>
    have hlisted : listed d.store = as := by rw [listed, hok]; rfl
    rw [hlisted] at hids hs ⊢
    dsimp only
    split
    · next hnone =>
      exact ⟨[], List.nil_sublist _, rfl, fun _ =>
        ⟨⟨as, rfl⟩, hnone.symm, fun _ ha => absurd ha List.not_mem_nil⟩⟩
    cases hname : b.bucketName.isEmpty with
    | true =>
      obtain ⟨rep, hrun, hfirst⟩ := sweepAll_nameless hdry hname h hids hs {}
      rw [hrun]
      refine ⟨_, List.filter_sublist, rfl, fun hclean => ⟨⟨as, rfl⟩, ?_, fun a ha => ?_⟩⟩
      · have hall := (hfirst hclean).2
        exact List.filter_eq_self.2 fun a ha => by rw [hall a ha]; rfl
      · have hmem := List.mem_filter.1 ha
        rw [spotless, List.isEmpty_iff.1 hmem.2, List.all_nil]
    | false =>
      rw [sweepAll_perform hdry hname h hids hs]
      refine ⟨_, List.Sublist.refl _, rfl, fun hclean => ⟨⟨as, rfl⟩, rfl, fun a ha => ?_⟩⟩
      change ((surplus keep as).foldl (reportAttempt d) {}).firstError = none at hclean
      rw [reportAttempt_foldl, Option.none_or, Option.map_eq_none_iff, List.find?_eq_none] at hclean
      refine List.all_eq_true.2 fun u hu => ?_
      rw [Bool.not_eq_true', ← Bool.not_eq_true]
      exact hclean u (List.mem_flatMap.2 ⟨a, ha, hu⟩)

end Cycle

end FleetSnapshot.Sweep
