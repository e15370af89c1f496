import FleetSnapshot.Audit

/-! Single statements and transactions on the audit store. A statement that is refused, or that a
trigger stops, changes no row; one that goes through changes those of the rows it selects that no
trigger passes over. -/

namespace FleetSnapshot.Audit

namespace Store

/-- The rows at hand; none of a table that has been dropped. -/
def attempts (s : Store) : List AttemptRow := s.tables.attempts.getD []

def uploads (s : Store) : List UploadRow := s.tables.uploads.getD []

def refusal? (s : Store) : Option StoreFault := s.refusals.head?.join

def begun (s : Store) : Store := { s with refusals := s.refusals.tail }

def mapAttempts (f : AttemptRow → AttemptRow) (s : Store) : Store :=
  { s with tables := { s.tables with attempts := s.tables.attempts.map (List.map f) } }

def mapUploads (f : UploadRow → UploadRow) (s : Store) : Store :=
  { s with tables := { s.tables with uploads := s.tables.uploads.map (List.map f) } }

variable (s : Store)

theorem begun_of_nil {s : Store} (h : s.refusals = []) : s.begun = s := by
  cases s
  simp only at h
  subst h
  rfl

@[simp] theorem begun_tables : s.begun.tables = s.tables := rfl
@[simp] theorem begun_triggers : s.begun.triggers = s.triggers := rfl
@[simp] theorem begun_attempts : s.begun.attempts = s.attempts := rfl
@[simp] theorem begun_uploads : s.begun.uploads = s.uploads := rfl

@[simp] theorem mapUploads_attempts (f : UploadRow → UploadRow) :
    (s.mapUploads f).attempts = s.attempts := rfl
@[simp] theorem mapAttempts_uploads (f : AttemptRow → AttemptRow) :
    (s.mapAttempts f).uploads = s.uploads := rfl

@[simp] theorem mapUploads_uploads (f : UploadRow → UploadRow) :
    (s.mapUploads f).uploads = s.uploads.map f := by
  simp only [uploads, mapUploads]
  cases s.tables.uploads <;> rfl

@[simp] theorem mapAttempts_attempts (f : AttemptRow → AttemptRow) :
    (s.mapAttempts f).attempts = s.attempts.map f := by
  simp only [attempts, mapAttempts]
  cases s.tables.attempts <;> rfl

end Store

section Rows

variable {ρ : Type} {verdict : ρ → Verdict} {selects : ρ → Bool} {set : ρ → ρ}

/-- The rows that an update changes: selected, and let through by the triggers. -/
def reaches (verdict : ρ → Verdict) (selects : ρ → Bool) (set : ρ → ρ) (r : ρ) : Bool :=
  selects r && verdict (set r) == .pass

theorem reaches_selects {r : ρ} (h : reaches verdict selects set r = true) : selects r = true :=
  (Bool.and_eq_true_iff.1 h).1

theorem reaches_of_pass (h : ∀ r, verdict r = .pass) : reaches verdict selects set = selects :=
  funext fun r => by simp [reaches, h]

theorem updateRows_ok {rows rows' : List ρ} {n : Nat}
    (h : updateRows verdict selects set rows = .ok (rows', n)) :
    rows' = rows.map (fun r => if reaches verdict selects set r then set r else r) ∧
      n = rows.countP (reaches verdict selects set) := by
  induction rows generalizing rows' n with
  | nil => simp_all [updateRows]
  | cons r rs ih =>
    have tail : ∀ {f : List ρ × Nat → List ρ × Nat},
        (updateRows verdict selects set rs).map f = .ok (rows', n) →
        f (rs.map (fun r => if reaches verdict selects set r then set r else r),
          rs.countP (reaches verdict selects set)) = (rows', n) := by
      intro f hf
      cases hu : updateRows verdict selects set rs with
      | error e => rw [hu] at hf; cases hf
      | ok x =>
        obtain ⟨h1, h2⟩ := ih hu
        rw [hu] at hf
        rw [← h1, ← h2]
        exact Except.ok.inj hf
    simp only [updateRows] at h
    split at h
    case isTrue hs =>
      split at h
      case h_1 hv =>
        have := tail h
        simp only [Prod.mk.injEq] at this
        simp [reaches, hs, hv, ← this.1, ← this.2]
      case h_2 hv =>
        have := tail h
        simp only [Prod.mk.injEq] at this
        simp [reaches, hs, hv, ← this.1, ← this.2]
      case h_3 => cases h
    case isFalse hs =>
      have := tail h
      simp only [Prod.mk.injEq] at this
      simp [reaches, hs, ← this.1, ← this.2]

theorem updateRows_pass (h : ∀ r, verdict r = .pass) (rows : List ρ) :
    updateRows verdict selects set rows =
      .ok (rows.map (fun r => if selects r then set r else r), rows.countP selects) := by
  induction rows with
  | nil => rfl
  | cons r rs ih =>
    simp only [updateRows, h, ih, List.map_cons, List.countP_cons]
    split <;> simp_all [Except.map]

end Rows

namespace Query

variable {α β : Type} (s : Store)

theorem pure_apply (a : α) : (pure a : Query α) s = (.ok a, s) := rfl

theorem bind_apply (q : Query α) (f : α → Query β) :
    (q >>= f) s = match q s with
      | (.ok a, s') => f a s'
      | (.error e, s') => (.error e, s') := by
  change (ExceptT.bindCont f (q s).1 : StateM Store _) (q s).2 = _
  rcases q s with ⟨_ | _, s'⟩ <;> rfl

theorem get_apply : (get : Query Store) s = (.ok s, s) := rfl

theorem modify_apply (f : Store → Store) : (modify f : Query PUnit) s = (.ok ⟨⟩, f s) := rfl

theorem throw_apply (e : Error) : (throw e : Query α) s = (.error e, s) := rfl

theorem tryCatch_apply (q : Query α) (h : Error → Query α) :
    (tryCatch q h) s = match q s with
      | (.ok a, s') => (.ok a, s')
      | (.error e, s') => h e s' := by
  simp only [tryCatch, tryCatchThe, MonadExceptOf.tryCatch, ExceptT.tryCatch, ExceptT.mk, bind,
    StateT.bind]
  rcases q s with ⟨_ | _, s'⟩ <;> rfl

theorem statement_apply (body : Query α) :
    statement body s = match s.refusal? with
      | some f => (.error (.store f), s.begun)
      | none => body s.begun := by
  simp only [statement, due?, bind_apply, get_apply]
  rcases h : s.refusals with _ | ⟨_ | f, rest⟩
  · simp [Store.refusal?, Store.begun_of_nil h, h, pure_apply]
  · simp [Store.refusal?, Store.begun, h, bind_apply, modify_apply, pure_apply]
  · simp [Store.refusal?, Store.begun, h, bind_apply, modify_apply, pure_apply, raise, throw_apply]

theorem uploadRows_apply : uploadRows s = match s.tables.uploads with
    | some rows => (.ok rows, s)
    | none => (.error (.store (.engine 1 s!"no such table: {TableName.uploads.text}")), s) := by
  simp only [uploadRows, bind_apply, get_apply]
  cases s.tables.uploads <;> rfl

theorem attemptRows_apply : attemptRows s = match s.tables.attempts with
    | some rows => (.ok rows, s)
    | none => (.error (.store (.engine 1 s!"no such table: {TableName.attempts.text}")), s) := by
  simp only [attemptRows, bind_apply, get_apply]
  cases s.tables.attempts <;> rfl

theorem ofRead_apply (x : Except StoreFault α) : ofRead x s = match x with
    | .ok a => (.ok a, s)
    | .error f => (.error (.store f), s) := by
  cases x <;> rfl

variable (columns : List String)

/-- An update fails and changes nothing, or changes some of the rows it selects, all of them where
there are no triggers. -/
theorem updateUploads_cases (selects : UploadRow → Bool) (change : UploadRow → UploadRow) :
    (∃ e, updateUploads columns selects change s = (.error e, s.begun)) ∨
      ∃ p : UploadRow → Bool, (∀ r, p r = true → selects r = true) ∧
        (s.triggers = [] → p = selects) ∧
        updateUploads columns selects change s =
          (.ok (s.uploads.countP p), s.begun.mapUploads fun r => if p r then change r else r) := by
  simp only [updateUploads, statement_apply, bind_apply, uploadRows_apply, get_apply]
  cases s.refusal? with
  | some f => exact Or.inl ⟨_, rfl⟩
  | none =>
    simp only [Store.begun_tables]
    cases hu : s.tables.uploads with
    | none => exact Or.inl ⟨_, rfl⟩
    | some rows =>
      simp only [ofRead_apply]
      cases hr : updateRows (fun r => judge s.begun.triggers .uploads (.update columns) r.shows)
          selects change rows with
      | error f => exact Or.inl ⟨_, rfl⟩
      | ok x =>
        obtain ⟨h1, h2⟩ := updateRows_ok hr
        refine Or.inr ⟨reaches (fun r => judge s.begun.triggers .uploads (.update columns) r.shows)
          selects change, fun r => reaches_selects, fun ht => ?_, ?_⟩
        · exact reaches_of_pass fun r => by rw [Store.begun_triggers, ht, judge_nil]
        · simp only [setUploads, modify_apply, pure_apply, h1, h2, Store.uploads, hu,
            Option.getD_some, Store.mapUploads, Store.begun_tables, Option.map_some]

theorem updateAttempts_cases (selects : AttemptRow → Bool) (change : AttemptRow → AttemptRow) :
    (∃ e, updateAttempts columns selects change s = (.error e, s.begun)) ∨
      ∃ p : AttemptRow → Bool, (∀ r, p r = true → selects r = true) ∧
        (s.triggers = [] → p = selects) ∧
        updateAttempts columns selects change s =
          (.ok (s.attempts.countP p), s.begun.mapAttempts fun r => if p r then change r else r) := by
  simp only [updateAttempts, statement_apply, bind_apply, attemptRows_apply, get_apply]
  cases s.refusal? with
  | some f => exact Or.inl ⟨_, rfl⟩
  | none =>
    simp only [Store.begun_tables]
    cases hu : s.tables.attempts with
    | none => exact Or.inl ⟨_, rfl⟩
    | some rows =>
      simp only [ofRead_apply]
      cases hr : updateRows (fun r => judge s.begun.triggers .attempts (.update columns) r.shows)
          selects change rows with
      | error f => exact Or.inl ⟨_, rfl⟩
      | ok x =>
        obtain ⟨h1, h2⟩ := updateRows_ok hr
        refine Or.inr ⟨reaches (fun r => judge s.begun.triggers .attempts (.update columns) r.shows)
          selects change, fun r => reaches_selects, fun ht => ?_, ?_⟩
        · exact reaches_of_pass fun r => by rw [Store.begun_triggers, ht, judge_nil]
        · simp only [setAttempts, modify_apply, pure_apply, h1, h2, Store.attempts, hu,
            Option.getD_some, Store.mapAttempts, Store.begun_tables, Option.map_some]

/-- A transaction takes the tables back unless its body and the commit go through. -/
theorem transaction_apply (body : Query (Ending α)) :
    transaction body s = match s.refusal? with
      | some f => (.error (.store f), s.begun)
      | none => match body s.begun with
        | (.ok (.commit a), s') => match s'.refusal? with
          | some f => (.error (.store f), { s'.begun with tables := s.tables })
          | none => (.ok a, s'.begun)
        | (.ok (.rollback a), s') => (.ok a, { s' with tables := s.tables })
        | (.error e, s') => (.error e, { s' with tables := s.tables }) := by
  simp only [transaction, bind_apply, statement_apply, get_apply, pure_apply, tryCatch_apply]
  cases s.refusal? with
  | some f => rfl
  | none =>
    dsimp only
    rcases body s.begun with ⟨e | a | a, s'⟩
    · rfl
    · simp only [bind_apply, statement_apply, pure_apply]
      cases s'.refusal? <;> rfl
    · rfl

theorem transaction_cases (body : Query (Ending α)) :
    (transaction body s).2.tables = s.tables ∨
      ∃ a s', body s.begun = (.ok (.commit a), s') ∧ transaction body s = (.ok a, s'.begun) := by
  rw [transaction_apply]
  cases s.refusal? with
  | some f => exact Or.inl rfl
  | none =>
    rcases h : body s.begun with ⟨e | a | a, s'⟩
    · exact Or.inl rfl
    · cases hr : s'.refusal? with
      | some f => left; simp only [hr]
      | none => right; exact ⟨a, s', rfl, by simp only [hr]⟩
    · exact Or.inl rfl

end Query

end FleetSnapshot.Audit
