import FleetSnapshot.Proofs.Nameless

/-! Cleanups one after the other, each with its own refusals of the bucket. What is left over is
tried again by the next, what has been deleted stays so, and the data of an upload is removed once.
The attempts that are spared are the same every time; when the others have gone, nothing is left to
do. -/

namespace FleetSnapshot

namespace Sweep

open Audit

section Lists

theorem sublist_source {α β : Type} {R : α → β → Prop} {as : List α} {bs bs' : List β}
    (h : List.Forall₂ R as bs) (hsub : bs'.Sublist bs) :
    ∃ as', as'.Sublist as ∧ List.Forall₂ R as' bs' := by
  induction hsub generalizing as with
  | slnil => exact ⟨[], List.nil_sublist _, .nil⟩
  | cons b _ ih =>
    obtain ⟨a, as', hab, has, rfl⟩ := List.forall₂_cons_right_iff.1 h
    obtain ⟨as'', hsub, hall⟩ := ih has
    exact ⟨as'', hsub.cons a, hall⟩
  | cons_cons b _ ih =>
    obtain ⟨a, as', hab, has, rfl⟩ := List.forall₂_cons_right_iff.1 h
    obtain ⟨as'', hsub, hall⟩ := ih has
    exact ⟨a :: as'', hsub.cons_cons a, .cons hab hall⟩

theorem filter_split {α : Type} {p : α → Bool} (n : Nat) (as : List α) :
    as.filter p = (as.take n).filter p ++ (as.drop n).filter p := by
  rw [← List.filter_append, List.take_append_drop]

/-- One list came of the other by deleting some of its rows, each in its place. -/
def Struck {ρ : Type} (delete : ρ → ρ) (rows rows' : List ρ) : Prop :=
  List.Forall₂ (fun r r' => r' = r ∨ r' = delete r) rows rows'

variable {ρ : Type} {delete : ρ → ρ} {rows rows' rows'' : List ρ}

theorem Struck.refl (delete : ρ → ρ) (rows : List ρ) : Struck delete rows rows :=
  List.forall₂_same.2 fun _ _ => Or.inl rfl

theorem Struck.trans (twice : ∀ r, delete (delete r) = delete r) (h : Struck delete rows rows')
    (h' : Struck delete rows' rows'') : Struck delete rows rows'' := by
  induction h generalizing rows'' with
  | nil => exact h'
  | cons hr _ ih =>
    obtain ⟨r'', rows, hr', hrows, rfl⟩ := List.forall₂_cons_left_iff.1 h'
    refine .cons ?_ (ih hrows)
    rcases hr with rfl | rfl
    · exact hr'
    · exact Or.inr (hr'.elim id fun hr => hr.trans (twice _))

theorem struck_map {f : ρ → ρ} (h : ∀ r, f r = r ∨ f r = delete r) (rows : List ρ) :
    Struck delete rows (rows.map f) :=
  List.forall₂_map_right_iff.2 (List.forall₂_same.2 fun r _ => h r)

theorem Struck.map_eq {κ : Type} (h : Struck delete rows rows') {f : ρ → κ}
    (hf : ∀ r, f (delete r) = f r) : rows'.map f = rows.map f :=
  map_eq_of_forall h fun r r' hr => by
    rcases hr with rfl | rfl
    · rfl
    · exact hf r

/-- Whatever is deleted stays so. -/
theorem Struck.countP_le (h : Struck delete rows rows') {p : ρ → Bool}
    (hp : ∀ r, p r = true → p (delete r) = true) : rows.countP p ≤ rows'.countP p := by
  induction h with
  | nil => exact Nat.le_refl _
  | @cons r r' _ _ hr _ ih =>
    have hhead : p r = true → p r' = true := by
      rcases hr with rfl | rfl
      · exact id
      · exact hp r
    rw [List.countP_cons, List.countP_cons]
    cases hpr : p r with
    | true => rw [hhead hpr]; omega
    | false => simp only [Bool.false_eq_true, if_false]; omega

end Lists

section Step

variable {b : Broom} {d : Deployment} {keep : Nat} {gone : List AttemptRow}

theorem legible_of_ok {s : Store} {as : List Attempt} (h : (successful s).1 = .ok as) : s.Legible := by
  intro r hr hstatus hdeleted
  have hmem : r ∈ candidates s := by
    rw [candidates, (Order.sort_perm _ _).mem_iff, List.mem_filter]
    exact ⟨hr, by simp [hstatus, hdeleted]⟩
  obtain ⟨a, -, hrec⟩ := image_of_mem (successful_ok h) hmem
  obtain ⟨a', hread, -⟩ := hrec.own
  refine ⟨⟨a', hread⟩, fun u hu hid => ?_⟩
  obtain ⟨v, -, hv⟩ := hrec.readable hu hid
  exact ⟨v, hv⟩

/-- The surplus attempts and their rows. -/
theorem surplus_rows {s : Store} {as : List Attempt} (h : (successful s).1 = .ok as) (keep : Nat) :
    List.Forall₂ (Records s) ((ranked s).drop keep) (surplus keep as) := by
  refine List.forall₂_drop keep (List.rel_filter (fun r a hrec => ?_) (successful_ok h))
  change (!r.persisted) = true ↔ (!a.persisted) = true
  rw [hrec.reads.persisted]

/-- Told of the rows: a cleanup goes through some of the attempts beyond those that are spared. -/
theorem cycle_swept (hdry : b.dryRun = false) (h : Calm d) (keep : Nat) :
    ∃ gone, gone.Sublist ((ranked d.store).drop keep) ∧ ((cycle b keep).perform d).2 = swept d gone ∧
      (Clean ((cycle b keep).perform d).1 →
        d.store.Legible ∧ gone = (ranked d.store).drop keep ∧ ∀ r ∈ gone, clear d r = true) := by
  obtain ⟨as, hsub, hrun, hclean⟩ := cycle_without hdry h keep
  rw [hrun]
  cases hok : (successful d.store).1 with
  | error e =>
    have hlisted : listed d.store = [] := by rw [listed, hok]; rfl
    have hnone : as = [] := List.eq_nil_of_sublist_nil (by simpa [hlisted, surplus] using hsub)
    subst hnone
    refine ⟨[], List.nil_sublist _, (swept_nil d).symm, fun hcl => ?_⟩
    obtain ⟨as', has'⟩ := (hclean hcl).1
    rw [hok] at has'
    cases has'
  | ok as' =>
    have hlisted : listed d.store = as' := by rw [listed, hok]; rfl
    rw [hlisted] at hsub hclean
    have hrows := surplus_rows hok keep
    obtain ⟨gone, hgone, hall⟩ := sublist_source hrows hsub
    have hmem : ∀ r ∈ gone, r ∈ d.store.attempts ∧ r.removable = true :=
      fun r hr => mem_of_ranked (List.mem_of_mem_drop (hgone.subset hr))
    have hpers : ∀ r ∈ gone, r.persisted = false := by
      intro r hr
      have hgoes := (hmem r hr).2
      simp only [AttemptRow.removable, Bool.and_eq_true, Bool.not_eq_true'] at hgoes
      exact hgoes.2
    refine ⟨gone, hgone, swept_rows h.numbered hpers (fun r hr => (hmem r hr).1) hall, fun hcl => ?_⟩
    obtain ⟨-, has, hspotless⟩ := hclean hcl
    refine ⟨legible_of_ok hok, ?_, fun r hr => ?_⟩
    · refine hgone.eq_of_length ?_
      rw [hall.length_eq, has, hrows.length_eq]
    · obtain ⟨a, ha, hrec⟩ := image_of_mem hall hr
      rw [← spotless_row hrec]
      exact hspotless a ha

theorem sweptAttempt_struck (d : Deployment) (gone : List AttemptRow) (r : AttemptRow) :
    sweptAttempt d gone r = r ∨ sweptAttempt d gone r = deleteAttempt r := by
  rw [sweptAttempt]
  split
  · exact Or.inr rfl
  · exact Or.inl rfl

theorem sweptUpload_struck (d : Deployment) (gone : List AttemptRow) (r : UploadRow) :
    sweptUpload d gone r = r ∨ sweptUpload d gone r = deleteUpload r := by
  rw [sweptUpload]
  split
  · exact Or.inr rfl
  · exact Or.inl rfl

theorem swept_attempts (d : Deployment) (gone : List AttemptRow) :
    (swept d gone).store.attempts = d.store.attempts.map (sweptAttempt d gone) := by
  rw [swept, Store.mapUploads_attempts, Store.mapAttempts_attempts]

theorem swept_uploads (d : Deployment) (gone : List AttemptRow) :
    (swept d gone).store.uploads = d.store.uploads.map (sweptUpload d gone) := by
  rw [swept, Store.mapUploads_uploads, Store.mapAttempts_uploads]

theorem swept_calm (h : Calm d) (gone : List AttemptRow) : Calm (swept d gone) := by
  refine ⟨h.alone, (h.ready.mapAttempts _).mapUploads _, ?_, ?_⟩
  · rw [swept_attempts, (struck_map (sweptAttempt_struck d gone) _).map_eq fun _ => rfl]
    exact h.numbered.attempts
  · rw [swept_uploads, (struck_map (sweptUpload_struck d gone) _).map_eq fun _ => rfl]
    exact h.numbered.uploads

/-- The attempts that are marked may not go any more. The others stay as they are. -/
theorem ranked_swept (d : Deployment) (gone : List AttemptRow) :
    ranked (swept d gone).store =
      (ranked d.store).filter fun r => !gone.any fun a => a.id == r.id && clear d a := by
  let marked : AttemptRow → Bool := fun r => gone.any fun a => a.id == r.id && clear d a
  let complete : AttemptRow → Bool := fun r => r.status == Progress.success.text && !r.deleted
  have hrow : ∀ r, sweptAttempt d gone r = if marked r then deleteAttempt r else r := fun _ => rfl
  have hcomplete : (d.store.attempts.map (sweptAttempt d gone)).filter complete =
      (d.store.attempts.filter complete).filter (!marked ·) := by
    rw [List.filter_map, List.filter_filter]
    have hp : (complete ∘ sweptAttempt d gone) = fun r => !marked r && complete r := by
      funext r
      rw [Function.comp_apply, hrow]
      cases marked r <;> simp [complete, deleteAttempt]
    rw [hp]
    refine (List.map_congr_left fun r hr => ?_).trans (List.map_id _)
    rw [hrow, if_neg]
    · rfl
    · have := (List.mem_filter.1 hr).2
      simp only [Bool.and_eq_true, Bool.not_eq_true'] at this
      simp [this.1]
  rw [ranked, candidates, swept_attempts, hcomplete,
    Order.sort_filter AttemptRow.highestFirst_trans AttemptRow.highestFirst_total, List.filter_filter,
    ranked, candidates, List.filter_filter]
  exact List.filter_congr fun r _ => Bool.and_comm _ _

/-- The attempts that are spared are the same before and after. -/
theorem kept_swept (hn : d.store.Numbered) (hgone : gone.Sublist ((ranked d.store).drop keep)) :
    (ranked (swept d gone).store).take keep = (ranked d.store).take keep := by
  rcases Nat.lt_or_ge (ranked d.store).length keep with hfew | hmany
  · rw [List.drop_eq_nil_of_le (by omega)] at hgone
    rw [List.eq_nil_of_sublist_nil hgone, swept_nil]
  have hids := ranked_ids hn
  rw [← List.take_append_drop keep (ranked d.store), List.map_append] at hids
  have hspared : ∀ r ∈ (ranked d.store).take keep,
      (!gone.any fun a => a.id == r.id && clear d a) = true := by
    intro r hr
    rw [Bool.not_eq_true', List.any_eq_false]
    intro a ha hsame
    rw [Bool.and_eq_true, beq_iff_eq] at hsame
    exact List.disjoint_of_nodup_append hids (List.mem_map_of_mem hr)
      (hsame.1 ▸ List.mem_map_of_mem (hgone.subset ha))
  have hsplit : (ranked (swept d gone).store) = (ranked d.store).take keep ++
      ((ranked d.store).drop keep).filter fun r => !gone.any fun a => a.id == r.id && clear d a := by
    rw [ranked_swept, filter_split keep, List.filter_eq_self.2 hspared]
  rw [hsplit, List.take_left' (by rw [List.length_take]; omega)]

/-- If all of the surplus attempts have gone, only those are left that are spared. -/
theorem ranked_cleared (hclear : ∀ r ∈ (ranked d.store).drop keep, clear d r = true) :
    (ranked (swept d ((ranked d.store).drop keep)).store).length ≤ keep := by
  have hnone : ((ranked d.store).drop keep).filter (fun r =>
      !((ranked d.store).drop keep).any fun a => a.id == r.id && clear d a) = [] := by
    rw [List.filter_eq_nil_iff]
    intro r hr hno
    rw [Bool.not_eq_true', List.any_eq_false] at hno
    exact hno r hr (by simp [hclear r hr])
  rw [ranked_swept, filter_split keep, hnone, List.append_nil]
  exact Nat.le_trans (List.length_filter_le _ _) (List.length_take_le _ _)

/-- What could be read can be read again. -/
theorem swept_legible (h : d.store.Legible) (gone : List AttemptRow) :
    (swept d gone).store.Legible := by
  intro r hr hstatus hdeleted
  rw [swept_attempts] at hr
  obtain ⟨r', hr', rfl⟩ := List.mem_map.1 hr
  have hsame : sweptAttempt d gone r' = r' := by
    refine (sweptAttempt_struck d gone r').resolve_right fun hstruck => ?_
    rw [hstruck] at hdeleted
    cases hdeleted
  rw [hsame] at hstatus hdeleted ⊢
  obtain ⟨hread, hus⟩ := h r' hr' hstatus hdeleted
  refine ⟨hread, fun u hu hid => ?_⟩
  rw [swept_uploads] at hu
  obtain ⟨u', hu', rfl⟩ := List.mem_map.1 hu
  have hmarks : Marks (sweptUpload d gone) := sweptUpload_struck d gone
  rw [hmarks.attemptId] at hid
  obtain ⟨v, hv⟩ := hus u' hu' hid
  exact hmarks.readable hv

def removed (id : Int) : Event → Bool
  | .removalClosed upload _ accepted => upload == id && accepted
  | _ => false

def marked (id : Int) (s : Store) : Nat := s.uploads.countP fun r => r.id == id && r.deleted

theorem countP_le_one {rows : List UploadRow} (hn : (rows.map (·.id)).Nodup) (id : Int)
    (p : UploadRow → Bool) : (rows.countP fun r => r.id == id && p r) ≤ 1 := by
  refine Nat.le_trans ?_ (List.nodup_iff_count_le_one.1 hn id)
  rw [List.count, List.countP_map]
  exact List.countP_mono_left fun r _ hr => (Bool.and_eq_true _ _ ▸ hr).1

theorem marked_le_one {s : Store} (hn : s.Numbered) (id : Int) : marked id s ≤ 1 :=
  countP_le_one hn.uploads id _

theorem mem_offered {s : Store} {r : UploadRow} :
    r ∈ offered s gone ↔ r ∈ s.uploads ∧ r.eligible = true ∧ ∃ a ∈ gone, a.id = r.attemptId := by
  simp only [offered, List.mem_flatMap, List.mem_filter, Store.mem_uploadRowsOf]
  constructor
  · rintro ⟨a, ha, ⟨hr, hid⟩, helig⟩
    exact ⟨hr, helig, a, ha, hid.symm⟩
  · rintro ⟨hr, helig, a, ha, hid⟩
    exact ⟨a, ha, ⟨hr, hid.symm⟩, helig⟩

/-- No row is offered twice. -/
theorem offered_ids {s : Store} (hn : s.Numbered) (hgone : (gone.map (·.id)).Nodup) :
    ((offered s gone).map (·.id)).Nodup := by
  rw [offered, List.map_flatMap, List.nodup_flatMap]
  constructor
  · intro a _
    have hrows := (Order.sort_perm (fun r r' => UploadRow.latestFirst r' r)
      (s.uploads.filter (·.attemptId == a.id))).map (·.id)
    exact (hrows.nodup_iff.2 (hn.uploads.sublist (List.filter_sublist.map _))).sublist
      (List.filter_sublist.map _)
  · refine (List.pairwise_map.1 hgone).imp fun {a a'} hne id hid hid' => hne ?_
    obtain ⟨r, hr, rfl⟩ := List.mem_map.1 hid
    obtain ⟨r', hr', hsame⟩ := List.mem_map.1 hid'
    obtain ⟨hmem, hattempt⟩ := Store.mem_uploadRowsOf.1 (List.mem_filter.1 hr).1
    obtain ⟨hmem', hattempt'⟩ := Store.mem_uploadRowsOf.1 (List.mem_filter.1 hr').1
    rw [← hattempt, ← hattempt', List.inj_on_of_nodup_map hn.uploads hmem hmem' hsame.symm]

theorem countP_removals (d : Deployment) (id : Int) (rows : List UploadRow) :
    (rows.flatMap fun r => [Event.removalOpened r.id r.uploadPrefix,
      .removalClosed r.id r.uploadPrefix (!locked d r.uploadPrefix)]).countP (removed id) =
        rows.countP fun r => r.id == id && !locked d r.uploadPrefix := by
  induction rows with
  | nil => rfl
  | cons r rows ih =>
    rw [List.flatMap_cons, List.countP_append, ih, List.countP_cons]
    simp [List.countP_cons, removed, Nat.add_comm]

/-- What the bucket has removed in a cleanup has been marked in it, and was not marked before. -/
theorem removed_swept (hn : d.store.Numbered) (hgone : (gone.map (·.id)).Nodup) :
    ∃ es, (swept d gone).journal = d.journal ++ es ∧
      ∀ id, es.countP (removed id) + marked id d.store ≤ marked id (swept d gone).store := by
  refine ⟨_, rfl, fun id => ?_⟩
  rw [countP_removals]
  rcases Nat.eq_zero_or_pos ((offered d.store gone).countP fun r =>
    r.id == id && !locked d r.uploadPrefix) with hnone | hsome
  · rw [hnone, Nat.zero_add, marked, marked, swept_uploads]
    exact (struck_map (sweptUpload_struck d gone) _).countP_le fun r hr => by
      rw [Bool.and_eq_true] at hr ⊢
      exact ⟨hr.1, rfl⟩
  · obtain ⟨r, hr, hremoved⟩ := List.countP_pos_iff.1 hsome
    obtain ⟨hmem, helig, a, ha, hid⟩ := mem_offered.1 hr
    rw [Bool.and_eq_true, beq_iff_eq, Bool.not_eq_true'] at hremoved
    have honce := countP_le_one (offered_ids hn hgone) id fun r => !locked d r.uploadPrefix
    have hbefore : marked id d.store = 0 := by
      rw [marked, List.countP_eq_zero]
      intro r' hr' hmarked
      rw [Bool.and_eq_true, beq_iff_eq] at hmarked
      obtain rfl := List.inj_on_of_nodup_map hn.uploads hr' hmem (hmarked.1.trans hremoved.1.symm)
      simp [UploadRow.eligible, hmarked.2] at helig
    have hafter : 0 < marked id (swept d gone).store := by
      rw [marked, swept_uploads, List.countP_pos_iff]
      refine ⟨sweptUpload d gone r, List.mem_map_of_mem hmem, ?_⟩
      have hany : (gone.any fun a => a.id == r.attemptId &&
          (r.eligible && !locked d r.uploadPrefix || clear d a && !r.persisted)) = true :=
        List.any_eq_true.2 ⟨a, ha, by simp [hid, helig, hremoved.2]⟩
      rw [sweptUpload, if_pos hany]
      simp [hremoved.1]
    omega

end Step

section Runs

def retry (b : Broom) (keep : Nat) (d : Deployment) (refused : List String) :
    Except Stop (Option Report) × Deployment :=
  (cycle b keep).perform { d with refusesRemoval := refused }

def retries (b : Broom) (keep : Nat) (d : Deployment) (rounds : List (List String)) : Deployment :=
  rounds.foldl (fun d refused => (retry b keep d refused).2) d

variable {b : Broom} {keep : Nat} {d d' d'' : Deployment}

theorem retries_append (rounds later : List (List String)) :
    retries b keep d (rounds ++ later) = retries b keep (retries b keep d rounds) later :=
  List.foldl_append

structure Tidied (keep : Nat) (d d' : Deployment) : Prop where
  calm : Calm d'
  attempts : Struck deleteAttempt d.store.attempts d'.store.attempts
  uploads : Struck deleteUpload d.store.uploads d'.store.uploads
  kept : (ranked d'.store).take keep = (ranked d.store).take keep
  removals : ∃ es, d'.journal = d.journal ++ es ∧
    ∀ id, es.countP (removed id) + marked id d.store ≤ marked id d'.store

theorem Tidied.refl (h : Calm d) : Tidied keep d d where
  calm := h
  attempts := Struck.refl _ _
  uploads := Struck.refl _ _
  kept := rfl
  removals := ⟨[], (List.append_nil _).symm, fun _ => Nat.le_of_eq (Nat.zero_add _)⟩

theorem Tidied.trans (h : Tidied keep d d') (h' : Tidied keep d' d'') : Tidied keep d d'' where
  calm := h'.calm
  attempts := h.attempts.trans (fun _ => rfl) h'.attempts
  uploads := h.uploads.trans (fun _ => rfl) h'.uploads
  kept := h'.kept.trans h.kept
  removals := by
    obtain ⟨es, hes, hcount⟩ := h.removals
    obtain ⟨es', hes', hcount'⟩ := h'.removals
    refine ⟨es ++ es', by rw [hes', hes, List.append_assoc], fun id => ?_⟩
    rw [List.countP_append]
    have := hcount id
    have := hcount' id
    omega

theorem retry_swept (hdry : b.dryRun = false) (h : Calm d) (keep : Nat) (refused : List String) :
    ∃ gone, gone.Sublist ((ranked d.store).drop keep) ∧
      (retry b keep d refused).2 = swept { d with refusesRemoval := refused } gone ∧
      (Clean (retry b keep d refused).1 → d.store.Legible ∧ gone = (ranked d.store).drop keep ∧
        ∀ r ∈ gone, clear { d with refusesRemoval := refused } r = true) :=
  cycle_swept (d := { d with refusesRemoval := refused }) hdry ⟨h.alone, h.ready, h.numbered⟩ keep

theorem retry_tidies (hdry : b.dryRun = false) (h : Calm d) (keep : Nat) (refused : List String) :
    Tidied keep d (retry b keep d refused).2 := by
  obtain ⟨gone, hgone, hrun, -⟩ := retry_swept hdry h keep refused
  let d' : Deployment := { d with refusesRemoval := refused }
  have h' : Calm d' := ⟨h.alone, h.ready, h.numbered⟩
  have hids : (gone.map (·.id)).Nodup :=
    (ranked_ids h.numbered).sublist ((hgone.trans (List.drop_sublist _ _)).map _)
  rw [hrun]
  exact {
    calm := swept_calm h' gone
    attempts := swept_attempts d' gone ▸ struck_map (sweptAttempt_struck d' gone) _
    uploads := swept_uploads d' gone ▸ struck_map (sweptUpload_struck d' gone) _
    kept := kept_swept (d := d') h.numbered hgone
    removals := removed_swept (d := d') h.numbered hids }

theorem retries_tidy (hdry : b.dryRun = false) (h : Calm d) (keep : Nat)
    (rounds : List (List String)) :
    Tidied keep d (retries b keep d rounds) := by
  induction rounds generalizing d with
  | nil => exact Tidied.refl h
  | cons refused rounds ih =>
    have hfirst := retry_tidies hdry h keep refused
    exact hfirst.trans (ih hfirst.calm)

structure Settled (keep : Nat) (d : Deployment) : Prop where
  calm : Calm d
  legible : d.store.Legible
  few : (ranked d.store).length ≤ keep

theorem Settled.retry (h : Settled keep d) (b : Broom) (refused : List String) :
    retry b keep d refused = (.ok none, { d with refusesRemoval := refused }) := by
  let d' : Deployment := { d with refusesRemoval := refused }
  have h' : Calm d' := ⟨h.calm.alone, h.calm.ready, h.calm.numbered⟩
  have hlisted := h.legible.listed h.calm.ready
  have hok : (successful d'.store).1 = .ok (listed d.store) := by
    rw [successful_ready h.calm.ready hlisted]
  have hnone : surplus keep (listed d.store) = [] := by
    have hlength := (surplus_rows hok keep).length_eq
    rw [List.drop_eq_nil_of_le h.few, List.length_nil] at hlength
    exact List.eq_nil_of_length_eq_zero hlength.symm
  rw [Sweep.retry, cycle_listed h', hok]
  exact if_pos hnone

theorem Settled.retries (h : Settled keep d) (b : Broom) (rounds : List (List String)) :
    Settled keep (retries b keep d rounds) := by
  induction rounds generalizing d with
  | nil => exact h
  | cons refused rounds ih =>
    refine ih (d := (Sweep.retry b keep d refused).2) ?_
    rw [h.retry b refused]
    exact ⟨⟨h.calm.alone, h.calm.ready, h.calm.numbered⟩, h.legible, h.few⟩

/-- A cleanup without an error settles it. -/
theorem retry_settles (hdry : b.dryRun = false) (h : Calm d) {refused : List String}
    (hclean : Clean (retry b keep d refused).1) : Settled keep (retry b keep d refused).2 := by
  obtain ⟨gone, hgone, hrun, hall⟩ := retry_swept hdry h keep refused
  obtain ⟨hlegible, rfl, hclear⟩ := hall hclean
  have hcalm := (retry_tidies hdry h keep refused).calm
  rw [hrun] at hcalm ⊢
  exact ⟨hcalm, swept_legible (d := { d with refusesRemoval := refused }) hlegible _,
    ranked_cleared (d := { d with refusesRemoval := refused }) hclear⟩

/-- What is to be said of cleanups one after the other, whatever the bucket refuses in each. -/
structure Converges (b : Broom) (keep : Nat) (d : Deployment) : Prop where
  /-- The data of an upload is removed at most once. -/
  once : ∀ rounds id,
    ((retries b keep d rounds).journal.drop d.journal.length).countP (removed id) ≤ 1
  /-- Rows only change by being deleted, and then stay so. -/
  attempts : ∀ rounds later, Struck deleteAttempt (retries b keep d rounds).store.attempts
    (retries b keep d (rounds ++ later)).store.attempts
  uploads : ∀ rounds later, Struck deleteUpload (retries b keep d rounds).store.uploads
    (retries b keep d (rounds ++ later)).store.uploads
  /-- The attempts that may go come in the order of their heights. -/
  ranks : ∀ rounds, (ranked (retries b keep d rounds).store).Perm
      ((retries b keep d rounds).store.attempts.filter (·.removable)) ∧
    (ranked (retries b keep d rounds).store).Pairwise AttemptRow.Above
  /-- A cleanup deals with none of the highest of them, and these are the same every time. -/
  spares : ∀ rounds refused, ∃ gone,
    gone.Sublist ((ranked (retries b keep d rounds).store).drop keep) ∧
    (retry b keep (retries b keep d rounds) refused).2 =
      swept { retries b keep d rounds with refusesRemoval := refused } gone
  kept : ∀ rounds,
    (ranked (retries b keep d rounds).store).take keep = (ranked d.store).take keep
  /-- When one has no error to report, no more are left than are spared, and there is nothing to do
  for those that follow. -/
  settles : ∀ rounds refused, Clean (retry b keep (retries b keep d rounds) refused).1 →
    (retries b keep d (rounds ++ [refused])).store.attempts.countP (·.removable) ≤ keep ∧
    ∀ later refused', retry b keep (retries b keep d (rounds ++ refused :: later)) refused' =
      (.ok none, { retries b keep d (rounds ++ refused :: later) with refusesRemoval := refused' })

theorem retries_converge (b : Broom) (hdry : b.dryRun = false) (keep : Nat) (d : Deployment)
    (h : Calm d) (hheights : ∀ r ∈ d.store.attempts, r.height.toUInt64 < 0x8000000000000000) :
    Converges b keep d := by
  have htidy := fun rounds => retries_tidy hdry h keep rounds
  have hlater := fun rounds later => retries_tidy hdry (htidy rounds).calm keep later
  refine {
    once := fun rounds id => ?_
    attempts := fun rounds later => retries_append rounds later ▸ (hlater rounds later).attempts
    uploads := fun rounds later => retries_append rounds later ▸ (hlater rounds later).uploads
    ranks := fun rounds => ⟨ranked_perm _, ranked_above (htidy rounds).calm.numbered fun r hr => ?_⟩
    spares := fun rounds refused => ?_
    kept := fun rounds => (htidy rounds).kept
    settles := fun rounds refused hclean => ?_ }
  · obtain ⟨es, hes, hcount⟩ := (htidy rounds).removals
    have hbound := marked_le_one (htidy rounds).calm.numbered id
    have := hcount id
    rw [hes, List.drop_left]
    omega
  · obtain ⟨r', hr', hstruck⟩ := source_of_mem (htidy rounds).attempts hr
    rcases hstruck with rfl | rfl
    · exact hheights r hr'
    · exact hheights r' hr'
  · obtain ⟨gone, hgone, hrun, -⟩ := retry_swept hdry (htidy rounds).calm keep refused
    exact ⟨gone, hgone, hrun⟩
  · have hsettled := retry_settles hdry (htidy rounds).calm hclean
    constructor
    · rw [retries_append, List.countP_eq_length_filter, ← (ranked_perm _).length_eq]
      exact hsettled.few
    · intro later refused'
      rw [retries_append]
      exact (hsettled.retries b later).retry b refused'

/-- Of two snapshots one is to go. The bucket refuses it at first, and the next cleanup gets it done. -/
theorem retries_converge_refused :
    Calm keeper ∧ (∀ r ∈ keeper.store.attempts, r.height.toUInt64 < 0x8000000000000000) ∧
      Converges ⟨false, "bucket"⟩ 1 keeper ∧
      ¬ Clean (retry ⟨false, "bucket"⟩ 1 keeper ["p/1000"]).1 ∧
      Clean (retry ⟨false, "bucket"⟩ 1 (retries ⟨false, "bucket"⟩ 1 keeper [["p/1000"]]) []).1 := by
  have hcalm : Calm keeper := ⟨rfl, twoSnapshots_ready, by decide +kernel, by decide +kernel⟩
  have hheights : ∀ r ∈ keeper.store.attempts, r.height.toUInt64 < 0x8000000000000000 := by
    decide +kernel
  exact ⟨hcalm, hheights, retries_converge ⟨false, "bucket"⟩ rfl 1 keeper hcalm hheights,
    by decide +kernel, by decide +kernel⟩

end Runs

end Sweep

end FleetSnapshot
