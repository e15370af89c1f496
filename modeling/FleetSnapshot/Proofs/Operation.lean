import FleetSnapshot.Proofs.Statement

/-! What the operations of the audit store leave of it, whichever of their statements are refused.
Reading changes no table. The others change rows one by one, so each is described by the rows that
it may reach and by what becomes of them. -/

namespace FleetSnapshot.Audit

namespace Query

variable {α β : Type}

/-- Every run of the query leads to a store in this relation to the one it began with. -/
def Leads (R : Store → Store → Prop) (q : Query α) : Prop := ∀ s, R s (q s).2

section Leads

variable {R : Store → Store → Prop}

theorem leads_pure (refl : ∀ s, R s s) (a : α) : Leads R (pure a : Query α) := fun s => refl s

theorem leads_throw (refl : ∀ s, R s s) (e : Error) : Leads R (throw e : Query α) := fun s => refl s

/-- The relation of a sequence, from those of its parts. -/
theorem leads_seq {R' R'' : Store → Store → Prop} (stop : ∀ ⦃a b⦄, R a b → R'' a b)
    (comp : ∀ ⦃a b c⦄, R a b → R' b c → R'' a c) {q : Query α} {f : α → Query β}
    (hq : Leads R q) (hf : ∀ a, Leads R' (f a)) : Leads R'' (q >>= f) := by
  intro s
  have h := hq s
  rw [bind_apply]
  rcases hs : q s with ⟨e | a, s'⟩ <;> rw [hs] at h
  · exact stop h
  · exact comp h (hf a s')

theorem leads_bind (trans : ∀ ⦃a b c⦄, R a b → R b c → R a c) {q : Query α} {f : α → Query β}
    (hq : Leads R q) (hf : ∀ a, Leads R (f a)) : Leads R (q >>= f) :=
  leads_seq (fun _ _ => id) trans hq hf

theorem leads_mapM (refl : ∀ s, R s s) (trans : ∀ ⦃a b c⦄, R a b → R b c → R a c)
    {f : α → Query β} (hf : ∀ a, Leads R (f a)) (as : List α) : Leads R (as.mapM f) := by
  induction as with
  | nil => exact leads_pure refl []
  | cons a as ih =>
    rw [List.mapM_cons]
    exact leads_bind trans (hf a) fun b => leads_bind trans ih fun bs => leads_pure refl _

theorem leads_ofRead (refl : ∀ s, R s s) (x : Except StoreFault α) : Leads R (ofRead x) := by
  cases x <;> exact fun s => refl s

end Leads

/-- Both stores hold the same rows under the same triggers. -/
structure Alike (s s' : Store) : Prop where
  tables : s'.tables = s.tables
  triggers : s'.triggers = s.triggers

theorem Alike.refl (s : Store) : Alike s s := ⟨rfl, rfl⟩

theorem Alike.trans ⦃a b c : Store⦄ (h : Alike a b) (h' : Alike b c) : Alike a c :=
  ⟨h'.tables.trans h.tables, h'.triggers.trans h.triggers⟩

theorem Alike.attempts {s s' : Store} (h : Alike s s') : s'.attempts = s.attempts := by
  rw [Store.attempts, h.tables, Store.attempts]

theorem Alike.uploads {s s' : Store} (h : Alike s s') : s'.uploads = s.uploads := by
  rw [Store.uploads, h.tables, Store.uploads]

theorem selectAttempts_alike : Leads Alike selectAttempts := by
  intro s
  rw [selectAttempts, statement_apply, attemptRows_apply]
  cases s.refusal? with
  | some f => exact ⟨rfl, rfl⟩
  | none => cases s.begun.tables.attempts <;> exact ⟨rfl, rfl⟩

theorem selectUploads_alike : Leads Alike selectUploads := by
  intro s
  rw [selectUploads, statement_apply, uploadRows_apply]
  cases s.refusal? with
  | some f => exact ⟨rfl, rfl⟩
  | none => cases s.begun.tables.uploads <;> exact ⟨rfl, rfl⟩

theorem now_alike : Leads Alike now := fun _ => ⟨rfl, rfl⟩

end Query

open Query

theorem uploadsOf_alike (attemptId : Int) : Leads Alike (uploadsOf attemptId) :=
  leads_bind Alike.trans selectUploads_alike fun _ => leads_ofRead Alike.refl _

theorem attemptWithUploads_alike (r : AttemptRow) : Leads Alike (attemptWithUploads r) :=
  leads_bind Alike.trans (leads_ofRead Alike.refl _) fun a =>
    leads_bind Alike.trans (uploadsOf_alike a.id) fun _ => leads_pure Alike.refl _

theorem getUpload_alike (id : Int) : Leads Alike (getUpload id) := by
  refine leads_bind Alike.trans selectUploads_alike fun rows => ?_
  cases rows.find? (·.id == id) with
  | none => exact leads_pure Alike.refl _
  | some r => exact leads_bind Alike.trans (leads_ofRead Alike.refl _) fun _ => leads_pure Alike.refl _

theorem getAttempt_alike (id : Int) : Leads Alike (getAttempt id) := by
  refine leads_bind Alike.trans selectAttempts_alike fun rows => ?_
  cases rows.find? (·.id == id) with
  | none => exact leads_pure Alike.refl _
  | some r => exact leads_bind Alike.trans (attemptWithUploads_alike r) fun _ => leads_pure Alike.refl _

theorem successful_alike : Leads Alike successful :=
  leads_bind Alike.trans selectAttempts_alike fun _ =>
    leads_mapM Alike.refl Alike.trans attemptWithUploads_alike _

/-- From the one store to the other some of these uploads have changed in this way, and no other. -/
def Reaches (selects : UploadRow → Bool) (change : UploadRow → UploadRow) (s s' : Store) : Prop :=
  ∃ p : UploadRow → Bool, (∀ r, p r = true → selects r = true) ∧
    s'.uploads = s.uploads.map fun r => if p r then change r else r

section Reaches

variable {selects : UploadRow → Bool} {change : UploadRow → UploadRow} {s s' s'' : Store}

theorem reaches_same (h : s'.uploads = s.uploads) : Reaches selects change s s' :=
  ⟨fun _ => false, by simp, by simp [h]⟩

theorem Reaches.after (h : s'.uploads = s.uploads) (h' : Reaches selects change s' s'') :
    Reaches selects change s s'' := by
  rwa [Reaches, ← h]

theorem Reaches.before (h : Reaches selects change s s') (h' : s''.uploads = s'.uploads) :
    Reaches selects change s s'' := by
  rwa [Reaches, h']

theorem updateUploads_reaches (columns : List String) :
    Leads (Reaches selects change) (updateUploads columns selects change) := by
  intro s
  rcases updateUploads_cases s columns selects change with ⟨e, h⟩ | ⟨p, hp, -, h⟩
  · exact reaches_same (by rw [h, Store.begun_uploads])
  · exact ⟨p, hp, by rw [h, Store.mapUploads_uploads, Store.begun_uploads]⟩

theorem updateAttempts_uploads (columns : List String) (selects : AttemptRow → Bool)
    (change : AttemptRow → AttemptRow) :
    Leads (fun s s' => s'.uploads = s.uploads) (updateAttempts columns selects change) := by
  intro s
  rcases updateAttempts_cases s columns selects change with ⟨e, h⟩ | ⟨p, -, -, h⟩
  · rw [h, Store.begun_uploads]
  · rw [h, Store.mapAttempts_uploads, Store.begun_uploads]

theorem reaches_seq {α β : Type} {q : Query α} {f : α → Query β}
    (hq : Leads (Reaches selects change) q) (hf : ∀ a, Leads Alike (f a)) :
    Leads (Reaches selects change) (q >>= f) :=
  leads_seq (fun _ _ h => h) (fun _ _ _ h h' => h.before (Alike.uploads h')) hq hf

theorem seq_reaches {α β : Type} {q : Query α} {f : α → Query β}
    (hq : Leads (fun s s' => s'.uploads = s.uploads) q)
    (hf : ∀ a, Leads (Reaches selects change) (f a)) :
    Leads (Reaches selects change) (q >>= f) := by
  refine leads_seq ?_ ?_ hq hf
  · exact fun _ _ h => reaches_same h
  · exact fun _ _ _ h h' => Reaches.after h h'

theorem alike_reaches {α : Type} {q : Query α} (h : Leads Alike q) :
    Leads (Reaches selects change) q :=
  fun s => reaches_same (h s).uploads

theorem transaction_reaches {α : Type} {body : Query (Ending α)}
    (h : Leads (Reaches selects change) body) :
    Leads (Reaches selects change) (transaction body) := by
  intro s
  rcases transaction_cases s body with ht | ⟨a, s', hb, ht⟩
  · exact reaches_same (by rw [Store.uploads, ht, Store.uploads])
  · have hs := h s.begun
    rw [hb] at hs
    rw [ht]
    exact hs

end Reaches

theorem release_reaches (id : Int) :
    Leads (Reaches (·.id == id) ({ · with deleted := false })) (release id) :=
  reaches_seq (updateUploads_reaches ["deleted"]) fun _ => leads_pure Alike.refl _

theorem markDeleted_reaches (id : Int) :
    Leads (Reaches (fun r => r.attemptId == id && !r.persisted) ({ · with deleted := true }))
      (markDeleted id) := by
  refine transaction_reaches (seq_reaches (updateAttempts_uploads _ _ _) fun n => ?_)
  split
  · refine alike_reaches (leads_bind Alike.trans selectAttempts_alike fun rows => ?_)
    split
    · split
      · exact leads_throw Alike.refl _
      · exact leads_pure Alike.refl _
    · exact leads_pure Alike.refl _
  · exact reaches_seq (updateUploads_reaches ["deleted"]) fun _ => leads_pure Alike.refl _

theorem persistAttempt_reaches (id : Int) (value : Bool) :
    Leads (Reaches (fun r => r.attemptId == id && (!r.deleted || !value))
      ({ · with persisted := value })) (persistAttempt id value) := by
  refine transaction_reaches (seq_reaches (updateAttempts_uploads _ _ _) fun n => ?_)
  split
  · exact alike_reaches
      (leads_bind Alike.trans selectAttempts_alike fun rows => leads_pure Alike.refl _)
  · exact reaches_seq (updateUploads_reaches ["persisted"]) fun _ => leads_pure Alike.refl _

theorem persistUpload_reaches (id : Int) (value : Bool) :
    Leads (Reaches (fun r => r.id == id && (!r.deleted || !value)) ({ · with persisted := value }))
      (persistUpload id value) := by
  refine reaches_seq (updateUploads_reaches ["persisted"]) fun n => ?_
  split
  · exact leads_pure Alike.refl _
  · exact leads_bind Alike.trans (getUpload_alike id) fun _ => leads_pure Alike.refl _

/-- A claim is won where just one row is marked. -/
theorem claim_cases (id : Int) (s : Store) :
    (∃ e, claim id s = (.error e, s.begun)) ∨
      ∃ p : UploadRow → Bool,
        (∀ r, p r = true →
          r.id = id ∧ r.persisted = false ∧ r.deleted = false ∧ r.status = Progress.success.text) ∧
        claim id s = (.ok (s.uploads.countP p == 1),
          s.begun.mapUploads fun r => if p r then { r with deleted := true } else r) := by
  rw [claim, bind_apply]
  rcases updateUploads_cases s ["deleted"] (fun r => r.id == id && !r.persisted && !r.deleted &&
    r.status == Progress.success.text) ({ · with deleted := true }) with ⟨e, h⟩ | ⟨p, hp, -, h⟩
  · exact Or.inl ⟨e, by rw [h]⟩
  · refine Or.inr ⟨p, fun r hr => ?_, by rw [h]; rfl⟩
    simpa [and_assoc] using hp r hr

end FleetSnapshot.Audit
