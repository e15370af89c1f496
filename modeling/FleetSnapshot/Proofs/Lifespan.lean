import Mathlib.Logic.Relation
import FleetSnapshot.Proofs.Filed

/-! The life of a row. A row begins as running, ends once at most, and keeps the end it came to. Its
flags may still change, but never so that it is protected and deleted at once. No row is taken away,
and what tells which row it is stays as it was put down. -/

namespace FleetSnapshot

namespace Audit

/-- What may change about a row. -/
structure Standing where
  status : String
  endTime : Option Stamp
  errorMessage : Option String
  deleted : Bool
  persisted : Bool

namespace Standing

structure Sound (x : Standing) : Prop where
  apart : ¬ (x.persisted = true ∧ x.deleted = true)
  ended : x.endTime.isSome = true ↔ x.status ≠ Progress.running.text

/-- What a row may be found as later on: only what is running changes its status, into that of a
success or a failure, and the end of anything else is settled. -/
structure Becomes (x y : Standing) : Prop where
  status : y.status = x.status ∨ x.status = Progress.running.text ∧
    (y.status = Progress.success.text ∨ y.status = Progress.failed.text)
  settled : x.status ≠ Progress.running.text →
    y.status = x.status ∧ y.errorMessage = x.errorMessage ∧ y.endTime = x.endTime

/-- All that any operation does to a row, where rows are given no ends but these. -/
inductive Turn (ends : Progress → Stamp → Prop) (x : Standing) : Standing → Prop where
  | finish (p : Progress) (t : Stamp) (message : Option String) (hp : ends p t)
      (h : x.status = Progress.running.text) :
      Turn ends x { x with status := p.text, endTime := some t, errorMessage := message }
  | delete (h : x.persisted = false) : Turn ends x { x with deleted := true }
  | release : Turn ends x { x with deleted := false }
  | protect (value : Bool) (h : x.deleted = false ∨ value = false) :
      Turn ends x { x with persisted := value }

abbrev Turns (ends : Progress → Stamp → Prop) : Standing → Standing → Prop :=
  Relation.ReflTransGen (Turn ends)

theorem Becomes.refl (x : Standing) : x.Becomes x := ⟨Or.inl rfl, fun _ => ⟨rfl, rfl, rfl⟩⟩

theorem Becomes.trans {x y z : Standing} (h : x.Becomes y) (h' : y.Becomes z) : x.Becomes z := by
  by_cases hx : x.status = Progress.running.text
  · refine ⟨?_, fun hne => absurd hx hne⟩
    rcases h.status with hy | ⟨-, hy⟩
    · rw [← hy]
      exact h'.status
    · have hended : y.status ≠ Progress.running.text := by
        rcases hy with hy | hy <;> rw [hy] <;> decide
      rw [(h'.settled hended).1]
      exact Or.inr ⟨hx, hy⟩
  · obtain ⟨hstatus, hmessage, hend⟩ := h.settled hx
    obtain ⟨hstatus', hmessage', hend'⟩ := h'.settled (hstatus ▸ hx)
    exact ⟨Or.inl (hstatus'.trans hstatus),
      fun _ => ⟨hstatus'.trans hstatus, hmessage'.trans hmessage, hend'.trans hend⟩⟩

abbrev ending (p : Progress) (_ : Stamp) : Prop := p ≠ .running

theorem Turn.becomes {x y : Standing} (h : Turn ending x y) : x.Becomes y := by
  cases h with
  | finish p t message hp hx =>
    refine ⟨Or.inr ⟨hx, ?_⟩, fun hne => absurd hx hne⟩
    cases p with
    | running => exact absurd rfl hp
    | success => exact Or.inl rfl
    | failed => exact Or.inr rfl
  | delete => exact ⟨Or.inl rfl, fun _ => ⟨rfl, rfl, rfl⟩⟩
  | release => exact ⟨Or.inl rfl, fun _ => ⟨rfl, rfl, rfl⟩⟩
  | protect => exact ⟨Or.inl rfl, fun _ => ⟨rfl, rfl, rfl⟩⟩

theorem Turn.sound {x y : Standing} (h : Turn ending x y) (hx : x.Sound) : y.Sound := by
  cases h with
  | finish p t message hp =>
    refine ⟨hx.apart, ⟨fun _ => ?_, fun _ => rfl⟩⟩
    cases p with
    | running => exact absurd rfl hp
    | success => exact (by decide : Progress.success.text ≠ Progress.running.text)
    | failed => exact (by decide : Progress.failed.text ≠ Progress.running.text)
  | delete h => exact ⟨fun both => by simp [h] at both, hx.ended⟩
  | release => exact ⟨fun both => by simp at both, hx.ended⟩
  | protect value h =>
    refine ⟨fun both => ?_, hx.ended⟩
    rcases h with h | h
    · exact Bool.false_ne_true (h.symm.trans both.2)
    · exact Bool.false_ne_true (h.symm.trans both.1)

theorem Turns.becomes {x y : Standing} (h : Turns ending x y) : x.Becomes y := by
  induction h with
  | refl => exact Becomes.refl x
  | tail _ h ih => exact ih.trans h.becomes

/-- What every turn keeps is kept for good. -/
theorem Turns.preserves {ends : Progress → Stamp → Prop} {P : Standing → Prop} {x y : Standing}
    (h : Turns ends x y) (hturn : ∀ x y, Turn ends x y → P x → P y) (hx : P x) : P y := by
  induction h with
  | refl => exact hx
  | tail _ h ih => exact hturn _ _ h ih

def fresh : Standing where
  status := Progress.running.text
  endTime := none
  errorMessage := none
  deleted := false
  persisted := false

theorem fresh_sound : fresh.Sound := ⟨by decide, by decide⟩

end Standing

open Standing

def AttemptRow.standing (r : AttemptRow) : Standing where
  status := r.status
  endTime := r.endTime
  errorMessage := r.errorMessage
  deleted := r.deleted
  persisted := r.persisted

def UploadRow.standing (r : UploadRow) : Standing where
  status := r.status
  endTime := r.endTime
  errorMessage := r.errorMessage
  deleted := r.deleted
  persisted := r.persisted

def AttemptRow.fixed (r : AttemptRow) : Int × Int64 × Stamp × Bool :=
  (r.id, r.height, r.startTime, r.dryRun)

def UploadRow.fixed (r : UploadRow) : Int × Int × String × String × Stamp × Bool :=
  (r.id, r.attemptId, r.target, r.uploadPrefix, r.startTime, r.dryRun)

section Rows

variable {ρ κ : Type} {fixed : ρ → κ} {standing : ρ → Standing} {ends : Progress → Stamp → Prop}

/-- A row, and the same row later on. -/
structure Lives (fixed : ρ → κ) (standing : ρ → Standing) (ends : Progress → Stamp → Prop)
    (r r' : ρ) : Prop where
  fixed : fixed r' = fixed r
  turns : Turns ends (standing r) (standing r')

theorem Lives.refl (r : ρ) : Lives fixed standing ends r r := ⟨rfl, .refl⟩

theorem Lives.trans {r r' r'' : ρ} (h : Lives fixed standing ends r r')
    (h' : Lives fixed standing ends r' r'') : Lives fixed standing ends r r'' :=
  ⟨h'.fixed.trans h.fixed, h.turns.trans h'.turns⟩

def Ages (fixed : ρ → κ) (standing : ρ → Standing) (ends : Progress → Stamp → Prop)
    (rows rows' : List ρ) : Prop :=
  ∃ f : ρ → ρ, (∀ r, Lives fixed standing ends r (f r)) ∧ rows' = rows.map f

/-- The rows there were live on at their places, and those behind them were added fresh. -/
def Grows (fixed : ρ → κ) (standing : ρ → Standing) (ends : Progress → Stamp → Prop)
    (rows rows' : List ρ) : Prop :=
  ∃ (f : ρ → ρ) (added : List ρ), (∀ r, Lives fixed standing ends r (f r)) ∧
    (∀ r ∈ added, Turns ends fresh (standing r)) ∧ rows' = rows.map f ++ added

variable {rows rows' rows'' : List ρ}

namespace Ages

theorem of_eq (h : rows' = rows) : Ages fixed standing ends rows rows' :=
  ⟨id, Lives.refl, by simp [h]⟩

theorem trans (h : Ages fixed standing ends rows rows') (h' : Ages fixed standing ends rows' rows'') :
    Ages fixed standing ends rows rows'' := by
  obtain ⟨f, hf, rfl⟩ := h
  obtain ⟨f', hf', rfl⟩ := h'
  exact ⟨f' ∘ f, fun r => (hf r).trans (hf' _), by simp⟩

theorem grows (h : Ages fixed standing ends rows rows') : Grows fixed standing ends rows rows' := by
  obtain ⟨f, hf, rfl⟩ := h
  exact ⟨f, [], hf, List.forall_mem_nil _, (List.append_nil _).symm⟩

end Ages

namespace Grows

theorem snoc {r : ρ} (h : standing r = fresh) : Grows fixed standing ends rows (rows ++ [r]) :=
  ⟨id, [r], Lives.refl, fun _ hr => List.mem_singleton.1 hr ▸ h ▸ .refl, by simp⟩

theorem trans (h : Grows fixed standing ends rows rows')
    (h' : Grows fixed standing ends rows' rows'') : Grows fixed standing ends rows rows'' := by
  obtain ⟨f, added, hf, hadded, rfl⟩ := h
  obtain ⟨f', added', hf', hadded', rfl⟩ := h'
  refine ⟨f' ∘ f, added.map f' ++ added', fun r => (hf r).trans (hf' _), fun r hr => ?_, by simp⟩
  rcases List.mem_append.1 hr with hr | hr
  · obtain ⟨r₀, hr₀, rfl⟩ := List.mem_map.1 hr
    exact (hadded r₀ hr₀).trans (hf' r₀).turns
  · exact hadded' r hr

theorem sound (h : Grows fixed standing ending rows rows')
    (hrows : ∀ r ∈ rows, (standing r).Sound) : ∀ r ∈ rows', (standing r).Sound := by
  obtain ⟨f, added, hf, hadded, rfl⟩ := h
  intro r hr
  rcases List.mem_append.1 hr with hr | hr
  · obtain ⟨r₀, hr₀, rfl⟩ := List.mem_map.1 hr
    exact Turns.preserves (hf r₀).turns (fun _ _ => Turn.sound) (hrows r₀ hr₀)
  · exact Turns.preserves (hadded r hr) (fun _ _ => Turn.sound) fresh_sound

/-- Each row is still at its place. -/
theorem get (h : Grows fixed standing ends rows rows') {i : Nat} {r : ρ} (hr : rows[i]? = some r) :
    ∃ r', rows'[i]? = some r' ∧ Lives fixed standing ends r r' := by
  obtain ⟨f, added, hf, -, rfl⟩ := h
  refine ⟨f r, ?_, hf r⟩
  have hi : i < (rows.map f).length := by
    rw [List.length_map]
    exact (List.getElem?_eq_some_iff.1 hr).1
  rw [List.getElem?_append_left hi, List.getElem?_map, hr, Option.map_some]

end Grows

end Rows

/-- From the one store to the other no row has been added. -/
structure Alters (ends : Progress → Stamp → Prop) (s s' : Store) : Prop where
  attempts : Ages AttemptRow.fixed AttemptRow.standing ends s.attempts s'.attempts
  uploads : Ages UploadRow.fixed UploadRow.standing ends s.uploads s'.uploads

structure Evolves (ends : Progress → Stamp → Prop) (s s' : Store) : Prop where
  attempts : Grows AttemptRow.fixed AttemptRow.standing ends s.attempts s'.attempts
  uploads : Grows UploadRow.fixed UploadRow.standing ends s.uploads s'.uploads

section Operations

open Query

variable {α β : Type} {ends : Progress → Stamp → Prop}

namespace Alters

theorem of_rows ⦃s s' : Store⦄ (ha : s'.attempts = s.attempts) (hu : s'.uploads = s.uploads) :
    Alters ends s s' :=
  ⟨.of_eq ha, .of_eq hu⟩

theorem of_alike ⦃s s' : Store⦄ (h : Alike s s') : Alters ends s s' := .of_rows h.attempts h.uploads

theorem trans ⦃a b c : Store⦄ (h : Alters ends a b) (h' : Alters ends b c) : Alters ends a c :=
  ⟨h.attempts.trans h'.attempts, h.uploads.trans h'.uploads⟩

theorem evolves {s s' : Store} (h : Alters ends s s') : Evolves ends s s' :=
  ⟨h.attempts.grows, h.uploads.grows⟩

end Alters

theorem Evolves.trans ⦃a b c : Store⦄ (h : Evolves ends a b) (h' : Evolves ends b c) :
    Evolves ends a c :=
  ⟨h.attempts.trans h'.attempts, h.uploads.trans h'.uploads⟩

theorem alike_alters {q : Query α} (h : Leads Alike q) : Leads (Alters ends) q :=
  fun s => .of_alike (h s)

theorem alters_bind {q : Query α} {f : α → Query β} (hq : Leads (Alters ends) q)
    (hf : ∀ a, Leads (Alters ends) (f a)) : Leads (Alters ends) (q >>= f) :=
  leads_bind Alters.trans hq hf

theorem alters_pure (a : α) : Leads (Alters ends) (pure a : Query α) :=
  leads_pure (fun _ => .of_rows rfl rfl) a

/-- Rows that an update does not select stay as they are. -/
theorem updateAttempts_alters {selects : AttemptRow → Bool} {change : AttemptRow → AttemptRow}
    (columns : List String) (hfixed : ∀ r, (change r).fixed = r.fixed)
    (h : ∀ r, selects r = true → Turn ends r.standing (change r).standing) :
    Leads (Alters ends) (updateAttempts columns selects change) := by
  intro s
  rcases updateAttempts_cases s columns selects change with ⟨e, hs⟩ | ⟨p, hp, -, hs⟩ <;> rw [hs]
  · exact .of_rows rfl rfl
  · refine ⟨⟨fun r => if p r then change r else r, fun r => ?_, ?_⟩, .of_eq rfl⟩
    · dsimp only
      split
      case isTrue hr => exact ⟨hfixed r, .single (h r (hp r hr))⟩
      case isFalse => exact .refl r
    · rw [Store.mapAttempts_attempts, Store.begun_attempts]

theorem updateUploads_alters {selects : UploadRow → Bool} {change : UploadRow → UploadRow}
    (columns : List String) (hfixed : ∀ r, (change r).fixed = r.fixed)
    (h : ∀ r, selects r = true → Turn ends r.standing (change r).standing) :
    Leads (Alters ends) (updateUploads columns selects change) := by
  intro s
  rcases updateUploads_cases s columns selects change with ⟨e, hs⟩ | ⟨p, hp, -, hs⟩ <;> rw [hs]
  · exact .of_rows rfl rfl
  · refine ⟨.of_eq rfl, ⟨fun r => if p r then change r else r, fun r => ?_, ?_⟩⟩
    · dsimp only
      split
      case isTrue hr => exact ⟨hfixed r, .single (h r (hp r hr))⟩
      case isFalse => exact .refl r
    · rw [Store.mapUploads_uploads, Store.begun_uploads]

theorem transaction_alters {body : Query (Ending α)} (h : Leads (Alters ends) body) :
    Leads (Alters ends) (transaction body) := by
  intro s
  rcases transaction_cases s body with ht | ⟨a, s', hb, ht⟩
  · exact .of_rows (congrArg (·.attempts.getD []) ht) (congrArg (·.uploads.getD []) ht)
  · have hs := h s.begun
    rw [hb] at hs
    rw [ht]
    exact ⟨hs.attempts, hs.uploads⟩

theorem finishAttempt_alters (id : Int) {status : Progress} (message : Option String) {s : Store}
    (h : ends status (.ofInstant (s.clock s.ticks))) :
    Alters ends s (finishAttempt id status message s).2 := by
  have hupdate : Leads (Alters ends) (updateAttempts ["status", "end_time", "error_message"]
      (fun r => r.id == id && r.status == Progress.running.text) fun r => { r with
        status := status.text, endTime := some (.ofInstant (s.clock s.ticks))
        errorMessage := message }) := by
    refine updateAttempts_alters _ (fun _ => rfl) fun r hr => ?_
    simp only [Bool.and_eq_true, beq_iff_eq] at hr
    exact .finish status _ message h hr.2
  have hrest := (alters_bind hupdate fun _ => alters_pure ()) { s with ticks := s.ticks + 1 }
  rw [finishAttempt, bind_apply]
  exact ⟨hrest.attempts, hrest.uploads⟩

theorem finishUpload_alters (id : Int) {status : Progress} (message : Option String) {s : Store}
    (h : ends status (.ofInstant (s.clock s.ticks))) :
    Alters ends s (finishUpload id status message s).2 := by
  have hupdate : Leads (Alters ends) (updateUploads ["status", "end_time", "error_message"]
      (fun r => r.id == id && r.status == Progress.running.text) fun r => { r with
        status := status.text, endTime := some (.ofInstant (s.clock s.ticks))
        errorMessage := message }) := by
    refine updateUploads_alters _ (fun _ => rfl) fun r hr => ?_
    simp only [Bool.and_eq_true, beq_iff_eq] at hr
    exact .finish status _ message h hr.2
  have hrest := (alters_bind hupdate fun _ => alters_pure ()) { s with ticks := s.ticks + 1 }
  rw [finishUpload, bind_apply]
  exact ⟨hrest.attempts, hrest.uploads⟩

theorem claim_alters (id : Int) : Leads (Alters ends) (claim id) := by
  refine alters_bind (updateUploads_alters _ (fun _ => rfl) fun r hr => ?_) fun _ => alters_pure _
  simp only [Bool.and_eq_true, Bool.not_eq_true'] at hr
  exact .delete hr.1.1.2

theorem release_alters (id : Int) : Leads (Alters ends) (release id) :=
  alters_bind (updateUploads_alters _ (fun _ => rfl) fun _ _ => .release) fun _ => alters_pure _

theorem markDeleted_alters (id : Int) : Leads (Alters ends) (markDeleted id) := by
  refine transaction_alters (alters_bind (updateAttempts_alters _ (fun _ => rfl) fun r hr => ?_)
    fun n => ?_)
  · simp only [Bool.and_eq_true, Bool.not_eq_true'] at hr
    exact .delete hr.2
  · split
    · refine alters_bind (alike_alters selectAttempts_alike) fun rows => ?_
      split
      · split
        · exact leads_throw (fun _ => .of_rows rfl rfl) _
        · exact alters_pure _
      · exact alters_pure _
    · refine alters_bind (updateUploads_alters _ (fun _ => rfl) fun r hr => ?_)
        fun _ => alters_pure _
      simp only [Bool.and_eq_true, Bool.not_eq_true'] at hr
      exact .delete hr.2

theorem persistAttempt_alters (id : Int) (value : Bool) :
    Leads (Alters ends) (persistAttempt id value) := by
  refine transaction_alters (alters_bind (updateAttempts_alters _ (fun _ => rfl) fun r hr => ?_)
    fun n => ?_)
  · simp only [Bool.and_eq_true, Bool.or_eq_true, Bool.not_eq_true'] at hr
    exact .protect value hr.2
  · split
    · exact alters_bind (alike_alters selectAttempts_alike) fun _ => alters_pure _
    · refine alters_bind (updateUploads_alters _ (fun _ => rfl) fun r hr => ?_)
        fun _ => alters_pure _
      simp only [Bool.and_eq_true, Bool.or_eq_true, Bool.not_eq_true'] at hr
      exact .protect value hr.2

theorem persistUpload_alters (id : Int) (value : Bool) :
    Leads (Alters ends) (persistUpload id value) := by
  refine alters_bind (updateUploads_alters _ (fun _ => rfl) fun r hr => ?_) fun n => ?_
  · simp only [Bool.and_eq_true, Bool.or_eq_true, Bool.not_eq_true'] at hr
    exact .protect value hr.2
  · split
    · exact alters_pure _
    · exact alters_bind (alike_alters (getUpload_alike id)) fun _ => alters_pure _

def Op.Ends (kinds : Progress → Prop) (op : Op α) : Prop :=
  match op with
  | .finishAttempt _ status _ | .finishUpload _ status _ => kinds status
  | _ => True

/-- What an operation does to the rows, whether it succeeds or not. -/
theorem Op.alters (op : Op α) (hadds : ¬ op.Adds) {s : Store}
    (h : op.Ends fun p => ends p (.ofInstant (s.clock s.ticks))) : Alters ends s (op.run s).2 := by
  cases op with
  | createAttempt height dryRun => exact absurd trivial hadds
  | createUpload attemptId target pre dryRun => exact absurd trivial hadds
  | finishAttempt id status message => exact finishAttempt_alters id message h
  | finishUpload id status message => exact finishUpload_alters id message h
  | getAttempt id => exact .of_alike (getAttempt_alike id s)
  | getUpload id => exact .of_alike (getUpload_alike id s)
  | uploadsOf attemptId => exact .of_alike (uploadsOf_alike attemptId s)
  | mostRecent => exact .of_alike (mostRecent_alike s)
  | listAttempts page limit filter => exact .of_alike (listAttempts_alike page limit filter s)
  | uploadsByTarget target page limit filter =>
    exact .of_alike (uploadsByTarget_alike target page limit filter s)
  | successful => exact .of_alike (successful_alike s)
  | claim id => exact claim_alters id s
  | release id => exact release_alters id s
  | markDeleted id => exact markDeleted_alters id s
  | persistAttempt id value => exact persistAttempt_alters id value s
  | persistUpload id value => exact persistUpload_alters id value s

theorem Op.evolves (op : Op α) {s : Store} (ht : s.triggers = [])
    (h : op.Ends fun p => ends p (.ofInstant (s.clock s.ticks))) : Evolves ends s (op.run s).2 := by
  cases op with
  | createAttempt height dryRun =>
    change Evolves ends s (Audit.createAttempt height dryRun s).2
    rcases createAttempt_cases ht height dryRun with ⟨e, -, hs⟩ | ⟨a, -, hs⟩
    · exact (Alters.of_alike hs).evolves
    · rw [hs]
      exact ⟨.snoc rfl, (Ages.of_eq rfl).grows⟩
  | createUpload attemptId target pre dryRun =>
    change Evolves ends s (Audit.createUpload attemptId target pre dryRun s).2
    rcases createUpload_cases ht attemptId target pre dryRun with ⟨e, -, hs⟩ | ⟨u, -, -, hs⟩
    · exact (Alters.of_alike hs).evolves
    · rw [hs]
      exact ⟨(Ages.of_eq rfl).grows, .snoc rfl⟩
  | _ => exact (Op.alters _ id h).evolves

end Operations

abbrev Call : Type 1 := (α : Type) × Op α

def Store.after (s : Store) (calls : List Call) : Store := calls.foldl (fun s c => (c.2.run s).2) s

theorem Store.after_append (s : Store) (calls calls' : List Call) :
    s.after (calls ++ calls') = (s.after calls).after calls' := List.foldl_append

end Audit

open Audit Standing

theorem Filed.after {s : Store} (h : Filed s) (calls : List Call) : Filed (s.after calls) := by
  induction calls generalizing s with
  | nil => exact h
  | cons c calls ih => exact ih (h.op c.2)

theorem Filed.evolves {s : Store} (h : Filed s) {calls : List Call}
    (hends : ∀ c ∈ calls, c.2.Ends (· ≠ .running)) : Evolves ending s (s.after calls) := by
  induction calls generalizing s with
  | nil => exact (Alters.of_rows rfl rfl).evolves
  | cons c calls ih =>
    rw [List.forall_mem_cons] at hends
    exact (c.2.evolves h.plain.triggers hends.1).trans (ih (h.op c.2) hends.2)

/-- Whatever calls are made on an empty store, in any order and with any of their statements refused:
no row is both protected and deleted; it has an end time just if it is not running; rows keep their
places and what tells which they are; and whatever a row is found as at any time, later it is the same
unless it was running, so that it ends once at most. -/
theorem rows_end_once (s : Store) (hempty : s.tables = {}) (hquiet : s.triggers = [])
    (calls later : List Call) (hends : ∀ c ∈ calls ++ later, c.2.Ends (· ≠ .running)) :
    (s.after (calls ++ later)).Numbered ∧
      (∀ r ∈ (s.after (calls ++ later)).attempts, r.standing.Sound) ∧
      (∀ r ∈ (s.after (calls ++ later)).uploads, r.standing.Sound) ∧
      (∀ (i : Nat) (r : AttemptRow), (s.after calls).attempts[i]? = some r →
        ∃ r', (s.after (calls ++ later)).attempts[i]? = some r' ∧ r'.fixed = r.fixed ∧
          r.standing.Becomes r'.standing) ∧
      ∀ (i : Nat) (r : UploadRow), (s.after calls).uploads[i]? = some r →
        ∃ r', (s.after (calls ++ later)).uploads[i]? = some r' ∧ r'.fixed = r.fixed ∧
          r.standing.Becomes r'.standing := by
  have hfiled : Filed s := .fresh hempty hquiet
  have hall : Evolves ending s (s.after (calls ++ later)) := hfiled.evolves hends
  have hrest : Evolves ending (s.after calls) (s.after (calls ++ later)) := by
    rw [Store.after_append]
    exact (hfiled.after calls).evolves fun c hc => hends c (List.mem_append_right _ hc)
  have hattempts : s.attempts = [] := by rw [Store.attempts, hempty, Option.getD_some]
  have huploads : s.uploads = [] := by rw [Store.uploads, hempty, Option.getD_some]
  refine ⟨(hfiled.after _).numbered, hall.attempts.sound (by simp [hattempts]),
    hall.uploads.sound (by simp [huploads]), fun i r hr => ?_, fun i r hr => ?_⟩
  · obtain ⟨r', hr', hlives⟩ := hrest.attempts.get hr
    exact ⟨r', hr', hlives.fixed, hlives.turns.becomes⟩
  · obtain ⟨r', hr', hlives⟩ := hrest.uploads.get hr
    exact ⟨r', hr', hlives.fixed, hlives.turns.becomes⟩

def unused : Store := { clock := fun _ => default }

def protectedSnapshot : List Call :=
  [⟨_, .createAttempt 1000 false⟩, ⟨_, .createUpload 1 "geth" "p/1000" false⟩,
    ⟨_, .finishUpload 1 .success none⟩, ⟨_, .finishAttempt 1 .success none⟩,
    ⟨_, .persistAttempt 1 true⟩]

def contested : List Call :=
  [⟨_, .finishAttempt 1 .failed (some "late")⟩, ⟨_, .claim 1⟩, ⟨_, .release 1⟩, ⟨_, .markDeleted 1⟩]

theorem rows_end_once_contested :
    unused.tables = {} ∧ unused.triggers = [] ∧
      (∀ c ∈ protectedSnapshot ++ contested, c.2.Ends (· ≠ .running)) ∧
      ∃ r r' : AttemptRow, (unused.after protectedSnapshot).attempts[0]? = some r ∧
        (unused.after (protectedSnapshot ++ contested)).attempts[0]? = some r' ∧
        r.status = Progress.success.text ∧ r'.fixed = r.fixed ∧ r.standing.Becomes r'.standing ∧
        r'.standing.Sound := by
  have hends : ∀ c ∈ protectedSnapshot ++ contested, c.2.Ends (· ≠ .running) := by
    simp [protectedSnapshot, contested, Op.Ends]
  have hrow : ∃ r : AttemptRow, (unused.after protectedSnapshot).attempts[0]? = some r ∧
      r.status = Progress.success.text :=
    ⟨_, rfl, by decide +kernel⟩
  obtain ⟨r, hr, hstatus⟩ := hrow
  obtain ⟨-, hsound, -, hlater, -⟩ := rows_end_once unused rfl rfl protectedSnapshot contested hends
  obtain ⟨r', hr', hfixed, hbecomes⟩ := hlater 0 r hr
  exact ⟨rfl, rfl, hends, r, r', hr, hr', hstatus, hfixed, hbecomes,
    hsound r' (List.mem_of_getElem? hr')⟩

end FleetSnapshot
