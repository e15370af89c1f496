import FleetSnapshot.Proofs.Removal

/-! A cleanup that nobody disturbs, step by step. It deals with the surplus attempts in order, and
with the uploads of each in order. Every claim is won, since the rows are still as they were listed:
what happens to one attempt does not touch the rows of another. -/

namespace FleetSnapshot.Sweep

open Audit

/-- No removal for the attempt is refused. -/
def spotless (d : Deployment) (a : Attempt) : Bool := (eligibles a).all fun u => !refuses d u

def markOwn (id : Int) (r : AttemptRow) : AttemptRow :=
  if r.id == id && !r.persisted then { r with deleted := true } else r

def markAll (id : Int) (r : UploadRow) : UploadRow :=
  if r.attemptId == id && !r.persisted then { r with deleted := true } else r

def withoutAttempt (d : Deployment) (a : Attempt) : Deployment :=
  let d' := withoutUploads d (eligibles a)
  if spotless d a then
    { d' with store := (d'.store.mapAttempts (markOwn a.id)).mapUploads (markAll a.id) }
  else d'

def reportAttempt (d : Deployment) (rep : Report) (a : Attempt) : Report :=
  let rep := (eligibles a).foldl (reportUpload d) rep
  if spotless d a then { rep with attemptsDeleted := rep.attemptsDeleted + 1 } else rep

/-- The rows of a listed attempt are as they were listed, and can be read. -/
structure Standing (s : Store) (a : Attempt) : Prop where
  row : ∃ r ∈ s.attempts, r.id = a.id ∧ r.persisted = false ∧ ∃ a', r.read = .ok a'
  readable : ∀ r ∈ s.uploads, r.attemptId = a.id → ∃ u, r.read = .ok u
  distinct : (a.uploads.map (·.id)).Nodup
  free : ∀ u ∈ eligibles a, ∃ r ∈ s.uploads, r.id = u.id ∧ r.attemptId = a.id ∧
    r.status = Progress.success.text ∧ r.persisted = false ∧ r.deleted = false

def Marks (f : UploadRow → UploadRow) : Prop := ∀ r, f r = r ∨ f r = { r with deleted := true }

section Attempts

variable {b : Broom} {d : Deployment} {s : Store} {a : Attempt}

theorem Marks.id {f : UploadRow → UploadRow} (h : Marks f) (r : UploadRow) : (f r).id = r.id := by
  rcases h r with hr | hr <;> rw [hr]

theorem Marks.attemptId {f : UploadRow → UploadRow} (h : Marks f) (r : UploadRow) :
    (f r).attemptId = r.attemptId := by
  rcases h r with hr | hr <;> rw [hr]

theorem Marks.readable {f : UploadRow → UploadRow} (h : Marks f) {r : UploadRow} {u : Upload}
    (hu : r.read = .ok u) : ∃ u', (f r).read = .ok u' := by
  rcases h r with hr | hr <;> rw [hr]
  · exact ⟨u, hu⟩
  · rw [UploadRow.readable_iff]
    exact (UploadRow.readable_iff r).1 ⟨u, hu⟩

theorem Marks.comp {f g : UploadRow → UploadRow} (hf : Marks f) (hg : Marks g) :
    Marks (f ∘ g) := by
  intro r
  rw [Function.comp_apply]
  rcases hg r with hr | hr <;> rw [hr]
  · exact hf r
  · exact Or.inr ((hf _).elim (fun h => h) fun h => h)

theorem marks_id : Marks id := fun _ => Or.inl rfl

theorem markUpload_marks (id : Int) : Marks (markUpload id) := by
  intro r
  unfold markUpload
  split
  · exact Or.inr rfl
  · exact Or.inl rfl

theorem markAll_marks (id : Int) : Marks (markAll id) := by
  intro r
  unfold markAll
  split
  · exact Or.inr rfl
  · exact Or.inl rfl

/-- Removals only mark rows, each its own. -/
theorem withoutUploads_marks (d : Deployment) (us : List Upload) :
    ∃ f, Marks f ∧ (∀ r, (∀ u ∈ us, u.id ≠ r.id) → f r = r) ∧
      (withoutUploads d us).store = d.store.mapUploads f := by
  induction us generalizing d with
  | nil => exact ⟨id, marks_id, fun _ _ => rfl, (Store.mapUploads_same fun _ _ => rfl).symm⟩
  | cons u us ih =>
    obtain ⟨f, hf, hother, hstore⟩ := ih (withoutUpload d u)
    have hstore' : (withoutUploads d (u :: us)).store = (withoutUpload d u).store.mapUploads f :=
      hstore
    rw [hstore']
    cases hr : refuses d u with
    | true =>
      refine ⟨f, hf, fun r h => hother r fun u' hu' => h u' (List.mem_cons_of_mem _ hu'), ?_⟩
      simp only [withoutUpload, hr, if_true]
    | false =>
      refine ⟨f ∘ markUpload u.id, hf.comp (markUpload_marks u.id), fun r h => ?_, ?_⟩
      · have hne : r.id ≠ u.id := fun he => h u List.mem_cons_self he.symm
        rw [Function.comp_apply, markUpload, if_neg (by simpa using hne)]
        exact hother r fun u' hu' => h u' (List.mem_cons_of_mem _ hu')
      · simp only [withoutUpload, hr, Bool.false_eq_true, if_false, Store.mapUploads_mapUploads]

/-- What happens to the rows of other attempts does not concern this one. -/
theorem Standing.change (h : Standing s a) {f : UploadRow → UploadRow}
    {g : AttemptRow → AttemptRow} (hf : Marks f)
    (hother : ∀ r ∈ s.uploads, r.attemptId = a.id → f r = r) (hg : ∀ r, r.id = a.id → g r = r) :
    Standing ((s.mapAttempts g).mapUploads f) a := by
  refine ⟨?_, fun r hr hid => ?_, h.distinct, fun u hu => ?_⟩
  · obtain ⟨r, hr, hid, hrest⟩ := h.row
    refine ⟨r, ?_, hid, hrest⟩
    rw [Store.mapUploads_attempts, Store.mapAttempts_attempts]
    exact List.mem_map.2 ⟨r, hr, hg r hid⟩
  · rw [Store.mapUploads_uploads, Store.mapAttempts_uploads] at hr
    obtain ⟨r', hr', rfl⟩ := List.mem_map.1 hr
    rw [hf.attemptId] at hid
    obtain ⟨u, hu⟩ := h.readable r' hr' hid
    exact hf.readable hu
  · obtain ⟨r, hr, hid, hattempt, hrest⟩ := h.free u hu
    refine ⟨r, ?_, hid, hattempt, hrest⟩
    rw [Store.mapUploads_uploads, Store.mapAttempts_uploads]
    exact List.mem_map.2 ⟨r, hr, hother r hr hattempt⟩

theorem withoutAttempt_marks (d : Deployment) (hn : d.store.Numbered) (hs : Standing d.store a) :
    ∃ f g, Marks f ∧ (∀ r ∈ d.store.uploads, r.attemptId ≠ a.id → f r = r) ∧
      (∀ r, r.id ≠ a.id → g r = r) ∧ (∀ r, (g r).id = r.id) ∧
      (withoutAttempt d a).store = (d.store.mapAttempts g).mapUploads f := by
  obtain ⟨f, hf, hother, hstore⟩ := withoutUploads_marks d (eligibles a)
  have hrows : ∀ r ∈ d.store.uploads, r.attemptId ≠ a.id → f r = r := by
    intro r hr hne
    refine hother r fun u hu heq => ?_
    obtain ⟨r', hr', hid, hattempt, -⟩ := hs.free u hu
    exact hne (List.inj_on_of_nodup_map hn.uploads hr' hr (hid.trans heq) ▸ hattempt)
  unfold withoutAttempt
  cases hc : spotless d a with
  | true =>
    refine ⟨markAll a.id ∘ f, markOwn a.id, (markAll_marks a.id).comp hf, fun r hr hne => ?_,
      fun r hne => ?_, fun r => ?_, ?_⟩
    · rw [Function.comp_apply, hrows r hr hne, markAll, if_neg (by simp [hne])]
    · rw [markOwn, if_neg (by simp [hne])]
    · unfold markOwn
      split <;> rfl
    · simp only [if_true, hstore]
      rw [← Store.mapUploads_mapUploads]
      rfl
  | false =>
    refine ⟨f, fun r => r, hf, hrows, fun _ _ => rfl, fun _ => rfl, ?_⟩
    simp only [Bool.false_eq_true, if_false, hstore]
    rw [Store.mapAttempts_id]

theorem Standing.frees (h : Standing s a) : ∀ u ∈ eligibles a, Free s u := by
  intro u hu
  obtain ⟨r, hr, hid, -, hrest⟩ := h.free u hu
  exact ⟨r, hr, hid, hrest⟩

theorem eligibles_distinct (h : Standing s a) : ((eligibles a).map (·.id)).Nodup :=
  h.distinct.sublist (List.filter_sublist.map _)

theorem withoutAttempt_refuses (d : Deployment) (a : Attempt) (u : Upload) :
    refuses (withoutAttempt d a) u = refuses d u := by
  rw [← withoutUploads_refuses d (eligibles a) u]
  unfold withoutAttempt
  split <;> rfl

theorem reportAttempt_congr {d' : Deployment} (h : refuses d' = refuses d) :
    reportAttempt d' = reportAttempt d := by
  funext rep a
  rw [reportAttempt, reportUpload_congr h, spotless, h, reportAttempt, spotless]

theorem withoutAttempt_calm (h : Calm d) (hs : Standing d.store a) : Calm (withoutAttempt d a) := by
  obtain ⟨f, g, hf, -, -, hg, hstore⟩ := withoutAttempt_marks d h.numbered hs
  refine ⟨?_, ?_, ?_⟩
  · unfold withoutAttempt
    split <;> exact (withoutUploads_calm h _).alone
  · rw [hstore]
    exact (h.ready.mapAttempts g).mapUploads f
  · rw [hstore]
    constructor
    · rw [Store.mapUploads_attempts, Store.mapAttempts_attempts, List.map_map,
        show (·.id) ∘ g = (·.id) from funext hg]
      exact h.numbered.attempts
    · rw [Store.mapUploads_uploads, Store.mapAttempts_uploads, List.map_map,
        show (·.id) ∘ f = (·.id) from funext hf.id]
      exact h.numbered.uploads

theorem Standing.without {a' : Attempt} (h : Standing d.store a') (hn : d.store.Numbered)
    (hs : Standing d.store a) (hne : a'.id ≠ a.id) : Standing (withoutAttempt d a).store a' := by
  obtain ⟨f, g, hf, hother, hg, -, hstore⟩ := withoutAttempt_marks d hn hs
  rw [hstore]
  exact h.change hf (fun r hr hid => hother r hr (hid ▸ hne)) fun r hid => hg r (hid ▸ hne)

theorem markAttempt_perform (h : Calm d) (hrow : ∃ r ∈ d.store.attempts, r.id = a.id ∧
      r.persisted = false ∧ ∃ a', Records d.store r a') (rep : Report) :
    (markAttempt a.id rep).perform d =
      (.ok { rep with attemptsDeleted := rep.attemptsDeleted + 1 },
        { d with store := (d.store.mapAttempts (markOwn a.id)).mapUploads (markAll a.id) }) := by
  obtain ⟨r, hr, hid, hpers, a', ha'⟩ := hrow
  have hget : (Op.getAttempt a.id).run d.store = (.ok (some a'), d.store) := by
    rw [← hid]
    exact getAttempt_ready h.ready h.numbered hr ha'
  have hmark : (Op.markDeleted a.id).run d.store =
      (.ok (), (d.store.mapAttempts (markOwn a.id)).mapUploads (markAll a.id)) := by
    have hany : (d.store.attempts.any fun row => row.id == a.id && !row.persisted) = true :=
      List.any_eq_true.2 ⟨r, hr, by simp [hid, hpers]⟩
    have hexact := markDeleted_exact h.ready a.id
    rwa [if_pos hany] at hexact
  have hnot : (some a').any (·.persisted) = false := ha'.reads.persisted.trans hpers
  rw [markAttempt, Job.perform_bind, Job.perform_act]
  simp only [Deployment.perform, hget, hnot, Bool.false_eq_true, if_false]
  rw [Job.perform_bind, Job.perform_act]
  simp only [Deployment.perform, hmark]
  rfl

theorem sweepAttempt_perform (hdry : b.dryRun = false) (hname : b.bucketName.isEmpty = false)
    (h : Calm d) (hs : Standing d.store a) (rep : Report) :
    (sweepAttempt b a rep).perform d = (.ok (reportAttempt d rep a), withoutAttempt d a) := by
  have hspotless : (decide ((eligibles a).countP (refuses d) > 0)) = !spotless d a := by
    rw [spotless, Bool.eq_iff_iff, decide_eq_true_iff, gt_iff_lt, List.countP_pos_iff]
    simp
  rw [sweepAttempt, Job.perform_bind]
  have hremove := removeUploads_perform hdry hname h (eligibles_distinct hs) hs.frees rep
  rw [show a.uploads.filter (·.eligible) = eligibles a from rfl, hremove]
  simp only [hspotless, hdry, Bool.or_false]
  unfold withoutAttempt reportAttempt
  cases hc : spotless d a with
  | false => rfl
  | true =>
    simp only [Bool.not_true, Bool.false_eq_true, if_false, if_true]
    refine markAttempt_perform (withoutUploads_calm h _) ?_ _
    obtain ⟨f, hf, -, hstore⟩ := withoutUploads_marks d (eligibles a)
    obtain ⟨r, hr, hid, hpers, a', ha'⟩ := hs.row
    refine ⟨r, by rw [hstore]; exact hr, hid, hpers, exists_records ha' fun row hrow hattempt => ?_⟩
    rw [hstore, Store.mapUploads_uploads] at hrow
    obtain ⟨row', hrow', rfl⟩ := List.mem_map.1 hrow
    rw [hf.attemptId] at hattempt
    obtain ⟨u, hu⟩ := hs.readable row' hrow' (hattempt.trans hid)
    exact hf.readable hu

def withoutAttempts (d : Deployment) (as : List Attempt) : Deployment := as.foldl withoutAttempt d

theorem sweepAll_perform (hdry : b.dryRun = false) (hname : b.bucketName.isEmpty = false)
    (h : Calm d) {as : List Attempt} (hids : (as.map (·.id)).Nodup)
    (hs : ∀ a ∈ as, Standing d.store a) (rep : Report) :
    (sweepAll b as rep).perform d = (.ok (as.foldl (reportAttempt d) rep), withoutAttempts d as) := by
  induction as generalizing d rep with
  | nil => rfl
  | cons a as ih =>
    rw [List.map_cons, List.nodup_cons] at hids
    have ha := hs a List.mem_cons_self
    have hs' : ∀ a' ∈ as, Standing (withoutAttempt d a).store a' := by
      intro a' ha'
      refine (hs a' (List.mem_cons_of_mem _ ha')).without h.numbered ha fun heq => ?_
      exact hids.1 (heq ▸ List.mem_map_of_mem ha')
    have hsame : refuses (withoutAttempt d a) = refuses d := funext (withoutAttempt_refuses d a)
    have hrep := reportAttempt_congr hsame
    have ih' := ih (withoutAttempt_calm h ha) hids.2 hs' (reportAttempt d rep a)
    rw [hrep] at ih'
    rw [sweepAll, Job.perform_bind, sweepAttempt_perform hdry hname h ha]
    exact ih'

theorem standing_of_records (hn : s.Numbered) {r : AttemptRow} (hr : r ∈ s.attempts)
    (h : Records s r a) (hpers : a.persisted = false) : Standing s a := by
  obtain ⟨a', hread, -⟩ := h.own
  refine ⟨⟨r, hr, h.reads.id.symm, h.reads.persisted ▸ hpers, a', hread⟩, fun row hrow hid => ?_,
    ?_, fun u hu => ?_⟩
  · obtain ⟨u, -, hu⟩ := h.readable hrow (hid.trans h.reads.id)
    exact ⟨u, hu⟩
  · rw [h.upload_ids]
    exact (((Order.sort_perm _ _).map _).nodup_iff).2 (hn.uploads.sublist (List.filter_sublist.map _))
  · obtain ⟨hmem, helig⟩ := List.mem_filter.1 hu
    obtain ⟨row, hrow, hid, hread⟩ := h.row_of_upload hmem
    have hreads := UploadRow.reads hread
    simp only [Upload.eligible, Bool.and_eq_true, beq_iff_eq, Bool.not_eq_true'] at helig
    refine ⟨row, hrow, hreads.id.symm, hid.trans h.reads.id.symm, ?_, ?_, ?_⟩
    · rw [hreads.status, helig.1.1]
    · rw [← hreads.persisted, helig.1.2]
    · rw [← hreads.deleted, helig.2]

theorem standing_of_surplus (hn : s.Numbered) {keep : Nat} (ha : a ∈ surplus keep (listed s)) :
    Standing s a := by
  obtain ⟨hmem, hpers⟩ := mem_surplus ha
  obtain ⟨r, hr, -, -, hrec⟩ := records_of_listed hmem
  exact standing_of_records hn hr hrec hpers

theorem surplus_distinct (hn : s.Numbered) (keep : Nat) :
    ((surplus keep (listed s)).map (·.id)).Nodup := by
  have hc : ((candidates s).map (·.id)).Nodup :=
    (((Order.sort_perm _ _).map _).nodup_iff).2 (hn.attempts.sublist (List.filter_sublist.map _))
  exact (hc.sublist (listed_ids s)).sublist ((surplus_sublist keep _).map _)

/-- A cleanup that nobody disturbs does without the surplus attempts, and that is all it does. -/
theorem cycle_perform (hdry : b.dryRun = false) (hname : b.bucketName.isEmpty = false)
    (h : Calm d) (keep : Nat) :
    (cycle b keep).perform d =
      ((successful d.store).1.mapError .failed |>.map fun as => match surplus keep as with
        | [] => none
        | as => some (as.foldl (reportAttempt d) {}),
        withoutAttempts d (surplus keep (listed d.store))) := by
  have hstill : (Op.successful.run d.store).2 = d.store := successful_still _ h.ready
  rw [cycle, Job.perform_bind, Job.perform_audit, hstill]
  cases hs : (successful d.store).1 with
  | error e =>
    have hnone : surplus keep (listed d.store) = [] := by
      rw [listed, hs, show (Except.error e : Except Error _).toOption.getD [] = [] from rfl, surplus,
        List.filter_nil, List.drop_nil]
    simp only [Op.run, Op.query, hs, hnone]
    rfl
  | ok as =>
    have hlisted : listed d.store = as := by rw [listed, hs]; rfl
    rw [hlisted]
    simp only [Op.run, Op.query, hs, Except.mapError, Except.map]
    cases hsur : surplus keep as with
    | nil => rfl
    | cons a as' =>
      rw [← hlisted] at hsur
      have hmem : ∀ a' ∈ a :: as', a' ∈ surplus keep (listed d.store) := fun a' ha' => hsur ▸ ha'
      have hall := sweepAll_perform hdry hname h (hsur ▸ surplus_distinct h.numbered keep)
        (fun a' ha' => standing_of_surplus h.numbered (hmem a' ha')) {}
      simp only [Job.perform_bind, hall]
      rfl

end Attempts

end FleetSnapshot.Sweep
