import FleetSnapshot.Deployment
import FleetSnapshot.Proofs.Operation

/-! What stays of a row for good: its number, and where it belongs. Rows are only ever added, under
numbers that were not given before, and every other operation changes them in place. -/

namespace FleetSnapshot

namespace Audit

open Query

structure Touches (s s' : Store) : Prop where
  triggers : s'.triggers = s.triggers
  lastAttempt : s'.tables.lastAttempt = s.tables.lastAttempt
  lastUpload : s'.tables.lastUpload = s.tables.lastUpload
  attempts : ∃ g : AttemptRow → AttemptRow, (∀ r, (g r).id = r.id ∧ (g r).height = r.height) ∧
    s'.tables.attempts = s.tables.attempts.map (List.map g)
  uploads : ∃ f : UploadRow → UploadRow,
    (∀ r, (f r).id = r.id ∧ (f r).attemptId = r.attemptId ∧ (f r).uploadPrefix = r.uploadPrefix) ∧
      s'.tables.uploads = s.tables.uploads.map (List.map f)

namespace Touches

variable {s s' : Store}

theorem of_same (ht : s'.tables = s.tables) (h : s'.triggers = s.triggers) : Touches s s' := by
  refine ⟨h, by rw [ht], by rw [ht], ⟨fun r => r, fun _ => ⟨rfl, rfl⟩, ?_⟩,
    fun r => r, fun _ => ⟨rfl, rfl, rfl⟩, ?_⟩
  · rw [ht]
    cases s.tables.attempts <;> simp
  · rw [ht]
    cases s.tables.uploads <;> simp

theorem of_alike ⦃s s' : Store⦄ (h : Alike s s') : Touches s s' := of_same h.tables h.triggers

theorem refl (s : Store) : Touches s s := of_same rfl rfl

theorem trans ⦃a b c : Store⦄ (h : Touches a b) (h' : Touches b c) : Touches a c := by
  obtain ⟨g, hg, hattempts⟩ := h.attempts
  obtain ⟨g', hg', hattempts'⟩ := h'.attempts
  obtain ⟨f, hf, huploads⟩ := h.uploads
  obtain ⟨f', hf', huploads'⟩ := h'.uploads
  refine ⟨h'.triggers.trans h.triggers, h'.lastAttempt.trans h.lastAttempt,
    h'.lastUpload.trans h.lastUpload, ⟨g' ∘ g, fun r => ?_, ?_⟩, f' ∘ f, fun r => ?_, ?_⟩
  · exact ⟨(hg' _).1.trans (hg r).1, (hg' _).2.trans (hg r).2⟩
  · rw [hattempts', hattempts]
    cases a.tables.attempts <;> simp
  · exact ⟨(hf' _).1.trans (hf r).1, (hf' _).2.1.trans (hf r).2.1, (hf' _).2.2.trans (hf r).2.2⟩
  · rw [huploads', huploads]
    cases a.tables.uploads <;> simp

theorem attemptRows (h : Touches s s') : ∃ g : AttemptRow → AttemptRow,
    (∀ r, (g r).id = r.id ∧ (g r).height = r.height) ∧ s'.attempts = s.attempts.map g := by
  obtain ⟨g, hg, hattempts⟩ := h.attempts
  refine ⟨g, hg, ?_⟩
  rw [Store.attempts, hattempts, Store.attempts]
  cases s.tables.attempts <;> rfl

theorem uploadRows (h : Touches s s') : ∃ f : UploadRow → UploadRow,
    (∀ r, (f r).id = r.id ∧ (f r).attemptId = r.attemptId ∧ (f r).uploadPrefix = r.uploadPrefix) ∧
      s'.uploads = s.uploads.map f := by
  obtain ⟨f, hf, huploads⟩ := h.uploads
  refine ⟨f, hf, ?_⟩
  rw [Store.uploads, huploads, Store.uploads]
  cases s.tables.uploads <;> rfl

end Touches

section Touching

variable {α : Type}

theorem alike_touches {q : Query α} (h : Leads Alike q) : Leads Touches q :=
  fun s => Touches.of_alike (h s)

theorem leads_touches {β : Type} {q : Query α} {f : α → Query β} (hq : Leads Touches q)
    (hf : ∀ a, Leads Touches (f a)) : Leads Touches (q >>= f) :=
  leads_bind Touches.trans hq hf

theorem pure_touches (a : α) : Leads Touches (pure a : Query α) := leads_pure Touches.refl a

theorem updateUploads_touches {selects : UploadRow → Bool} {change : UploadRow → UploadRow}
    (columns : List String) (hc : ∀ r, (change r).id = r.id ∧ (change r).attemptId = r.attemptId ∧
      (change r).uploadPrefix = r.uploadPrefix) :
    Leads Touches (updateUploads columns selects change) := by
  intro s
  rcases updateUploads_cases s columns selects change with ⟨e, h⟩ | ⟨p, -, -, h⟩ <;> rw [h]
  · exact Touches.of_same rfl rfl
  · have hattempts := (Touches.refl s).attempts
    refine ⟨rfl, rfl, rfl, hattempts, fun r => if p r then change r else r, fun r => ?_, rfl⟩
    dsimp only
    split
    · exact hc r
    · exact ⟨rfl, rfl, rfl⟩

theorem updateAttempts_touches {selects : AttemptRow → Bool} {change : AttemptRow → AttemptRow}
    (columns : List String) (hc : ∀ r, (change r).id = r.id ∧ (change r).height = r.height) :
    Leads Touches (updateAttempts columns selects change) := by
  intro s
  rcases updateAttempts_cases s columns selects change with ⟨e, h⟩ | ⟨p, -, -, h⟩ <;> rw [h]
  · exact Touches.of_same rfl rfl
  · have huploads := (Touches.refl s).uploads
    refine ⟨rfl, rfl, rfl, ⟨fun r => if p r then change r else r, fun r => ?_, rfl⟩, huploads⟩
    dsimp only
    split
    · exact hc r
    · exact ⟨rfl, rfl⟩

theorem transaction_touches {body : Query (Ending α)} (h : Leads Touches body) :
    Leads Touches (transaction body) := by
  intro s
  have hbody := h s.begun
  rw [transaction_apply]
  cases s.refusal? with
  | some f => exact Touches.of_same rfl rfl
  | none =>
    rcases hb : body s.begun with ⟨e | a | a, s'⟩ <;> rw [hb] at hbody
    · exact Touches.of_same rfl hbody.triggers
    · have hbegun : Touches s s.begun := Touches.of_same rfl rfl
      have hend : Touches s' s'.begun := Touches.of_same rfl rfl
      have hkept : Touches s s'.begun := (hbegun.trans hbody).trans hend
      cases hr : s'.refusal? with
      | some f =>
        simp only [hr]
        exact Touches.of_same rfl hbody.triggers
      | none =>
        simp only [hr]
        exact hkept
    · exact Touches.of_same rfl hbody.triggers

theorem finishAttempt_touches (id : Int) (status : Progress) (message : Option String) :
    Leads Touches (finishAttempt id status message) :=
  leads_touches (alike_touches now_alike) fun _ =>
    leads_touches (updateAttempts_touches _ fun _ => ⟨rfl, rfl⟩) fun _ => pure_touches _

theorem finishUpload_touches (id : Int) (status : Progress) (message : Option String) :
    Leads Touches (finishUpload id status message) :=
  leads_touches (alike_touches now_alike) fun _ =>
    leads_touches (updateUploads_touches _ fun _ => ⟨rfl, rfl, rfl⟩) fun _ => pure_touches _

theorem mostRecent_alike : Leads Alike mostRecent := by
  refine leads_bind Alike.trans selectAttempts_alike fun rows => ?_
  cases Order.sort AttemptRow.latestFirst rows with
  | nil => exact leads_pure Alike.refl _
  | cons r rs => exact leads_bind Alike.trans (attemptWithUploads_alike r) fun _ => leads_pure Alike.refl _

theorem listAttempts_alike (page limit : Nat) (filter : Filter) :
    Leads Alike (listAttempts page limit filter) :=
  leads_bind Alike.trans selectAttempts_alike fun _ =>
    leads_mapM Alike.refl Alike.trans attemptWithUploads_alike _

theorem uploadsByTarget_alike (target : String) (page limit : Nat) (filter : Filter) :
    Leads Alike (uploadsByTarget target page limit filter) :=
  leads_bind Alike.trans selectUploads_alike fun _ => leads_ofRead Alike.refl _

theorem claim_touches (id : Int) : Leads Touches (claim id) :=
  leads_touches (updateUploads_touches _ fun _ => ⟨rfl, rfl, rfl⟩) fun _ => pure_touches _

theorem release_touches (id : Int) : Leads Touches (release id) :=
  leads_touches (updateUploads_touches _ fun _ => ⟨rfl, rfl, rfl⟩) fun _ => pure_touches _

theorem markDeleted_touches (id : Int) : Leads Touches (markDeleted id) := by
  refine transaction_touches ?_
  refine leads_touches (updateAttempts_touches _ fun _ => ⟨rfl, rfl⟩) fun n => ?_
  split
  · refine leads_touches (alike_touches selectAttempts_alike) fun rows => ?_
    split
    · split
      · exact leads_throw Touches.refl _
      · exact pure_touches _
    · exact pure_touches _
  · exact leads_touches (updateUploads_touches _ fun _ => ⟨rfl, rfl, rfl⟩) fun _ => pure_touches _

theorem persistAttempt_touches (id : Int) (value : Bool) :
    Leads Touches (persistAttempt id value) := by
  refine transaction_touches ?_
  refine leads_touches (updateAttempts_touches _ fun _ => ⟨rfl, rfl⟩) fun n => ?_
  split
  · exact leads_touches (alike_touches selectAttempts_alike) fun rows => pure_touches _
  · exact leads_touches (updateUploads_touches _ fun _ => ⟨rfl, rfl, rfl⟩) fun _ => pure_touches _

theorem persistUpload_touches (id : Int) (value : Bool) :
    Leads Touches (persistUpload id value) := by
  refine leads_touches (updateUploads_touches _ fun _ => ⟨rfl, rfl, rfl⟩) fun n => ?_
  split
  · exact pure_touches _
  · exact leads_touches (alike_touches (getUpload_alike id)) fun _ => pure_touches _

end Touching

section Adding

variable {s : Store}

theorem insertAttempt_cases (h : s.triggers = []) (row : AttemptRow) :
    (∃ e, insertAttempt row s = (.error e, s.begun)) ∨
      ∃ rows, s.tables.attempts = some rows ∧
        insertAttempt row s = (.ok (s.tables.lastAttempt + 1), { s.begun with
          lastRow := s.tables.lastAttempt + 1
          tables := { s.tables with
            attempts := some (rows ++ [{ row with id := s.tables.lastAttempt + 1 }])
            lastAttempt := s.tables.lastAttempt + 1 } }) := by
  rw [insertAttempt, statement_apply]
  cases s.refusal? with
  | some f => exact Or.inl ⟨_, rfl⟩
  | none =>
    simp only [bind_apply, attemptRows_apply, Store.begun_tables]
    cases hrows : s.tables.attempts with
    | none => exact Or.inl ⟨_, rfl⟩
    | some rows =>
      refine Or.inr ⟨rows, rfl, ?_⟩
      simp only [get_apply, bind_apply, Store.begun_triggers, h, judge_nil, setAttempts,
        modify_apply, pure_apply, Store.begun_tables]

theorem insertUpload_cases (h : s.triggers = []) (row : UploadRow) :
    (∃ e, (insertUpload row s).1 = .error e ∧ Alike s (insertUpload row s).2) ∨
      ∃ rows, s.tables.uploads = some rows ∧ (∃ a ∈ s.attempts, a.id = row.attemptId) ∧
        insertUpload row s = (.ok (s.tables.lastUpload + 1), { s.begun with
          lastRow := s.tables.lastUpload + 1
          tables := { s.tables with
            uploads := some (rows ++ [{ row with id := s.tables.lastUpload + 1 }])
            lastUpload := s.tables.lastUpload + 1 } }) := by
  rw [insertUpload, statement_apply]
  cases s.refusal? with
  | some f => exact Or.inl ⟨_, rfl, rfl, rfl⟩
  | none =>
    simp only [bind_apply, uploadRows_apply, get_apply, Store.begun_tables]
    cases hrows : s.tables.uploads with
    | none => exact Or.inl ⟨_, rfl, rfl, rfl⟩
    | some rows =>
      simp only [Store.begun_tables]
      cases hattempts : s.tables.attempts with
      | none => exact Or.inl ⟨_, rfl, rfl, rfl⟩
      | some attempts =>
        simp only [bind_apply, get_apply, Store.begun_triggers, h, judge_nil, modify_apply,
          Store.begun_tables]
        cases hany : attempts.any (·.id == row.attemptId) with
        | false =>
          simp only [Bool.false_eq_true, if_false]
          exact Or.inl ⟨_, rfl, rfl, h.symm⟩
        | true =>
          refine Or.inr ⟨rows, rfl, ?_, ?_⟩
          · rw [Store.attempts, hattempts, Option.getD_some]
            simpa using hany
          · simp only [if_true, setUploads, bind_apply, modify_apply, pure_apply,
              hattempts]

def Store.newAttempt (s : Store) (height : UInt64) (dryRun : Bool) : AttemptRow where
  id := s.tables.lastAttempt + 1
  height := height.toInt64
  startTime := .ofInstant (s.clock s.ticks)
  endTime := none
  status := Progress.running.text
  errorMessage := none
  dryRun := dryRun
  deleted := false
  persisted := false

def Store.newUpload (s : Store) (attemptId : Int) (target pre : String) (dryRun : Bool) :
    UploadRow where
  id := s.tables.lastUpload + 1
  attemptId := attemptId
  target := target
  uploadPrefix := pre
  startTime := .ofInstant (s.clock s.ticks)
  endTime := none
  status := Progress.running.text
  errorMessage := none
  dryRun := dryRun
  deleted := false
  persisted := false

/-- A row is added behind those that are there, under a number that was not given before. -/
def Store.addAttempt (s : Store) (row : AttemptRow) : Store :=
  { s.begun with
    ticks := s.ticks + 1
    lastRow := row.id
    tables := { s.tables with attempts := some (s.attempts ++ [row]), lastAttempt := row.id } }

def Store.addUpload (s : Store) (row : UploadRow) : Store :=
  { s.begun with
    ticks := s.ticks + 1
    lastRow := row.id
    tables := { s.tables with uploads := some (s.uploads ++ [row]), lastUpload := row.id } }

theorem createAttempt_cases (h : s.triggers = []) (height : UInt64) (dryRun : Bool) :
    (∃ e, (createAttempt height dryRun s).1 = .error e ∧
        Alike s (createAttempt height dryRun s).2) ∨
      ∃ a, a.id = s.tables.lastAttempt + 1 ∧ createAttempt height dryRun s =
        (.ok a, s.addAttempt (s.newAttempt height dryRun)) := by
  let s₁ := { s with ticks := s.ticks + 1 }
  have hnow : now s = (.ok (s.clock s.ticks), s₁) := rfl
  have h₁ : s₁.triggers = [] := h
  simp only [createAttempt, bind_apply, hnow]
  rcases insertAttempt_cases h₁ {
    id := 0, height := height.toInt64, startTime := .ofInstant (s.clock s.ticks), endTime := none
    status := Progress.running.text, errorMessage := none, dryRun := dryRun, deleted := false
    persisted := false } with ⟨e, hi⟩ | ⟨rows, hrows, hi⟩
  · rw [hi]
    exact Or.inl ⟨e, rfl, rfl, rfl⟩
  · have hattempts : s.attempts = rows := congrArg (·.getD []) hrows
    rw [hi, Store.addAttempt, hattempts]
    exact Or.inr ⟨_, rfl, rfl⟩

theorem createUpload_cases (h : s.triggers = []) (attemptId : Int) (target pre : String)
    (dryRun : Bool) :
    (∃ e, (createUpload attemptId target pre dryRun s).1 = .error e ∧
        Alike s (createUpload attemptId target pre dryRun s).2) ∨
      ∃ u, u.id = s.tables.lastUpload + 1 ∧ (∃ a ∈ s.attempts, a.id = attemptId) ∧
        createUpload attemptId target pre dryRun s =
          (.ok u, s.addUpload (s.newUpload attemptId target pre dryRun)) := by
  let s₁ := { s with ticks := s.ticks + 1 }
  have hnow : now s = (.ok (s.clock s.ticks), s₁) := rfl
  have h₁ : s₁.triggers = [] := h
  simp only [createUpload, bind_apply, hnow]
  rcases insertUpload_cases h₁ {
    id := 0, attemptId := attemptId, target := target, uploadPrefix := pre
    startTime := .ofInstant (s.clock s.ticks), endTime := none
    status := Progress.running.text, errorMessage := none, dryRun := dryRun, deleted := false
    persisted := false } with ⟨e, hi, ht⟩ | ⟨rows, hrows, hattempt, hi⟩
  · rcases hu : insertUpload _ s₁ with ⟨x, s'⟩
    rw [hu] at hi ht
    subst hi
    exact Or.inl ⟨e, rfl, ht.tables, ht.triggers⟩
  · have huploads : s.uploads = rows := congrArg (·.getD []) hrows
    rw [hi, Store.addUpload, huploads]
    exact Or.inr ⟨_, rfl, hattempt, rfl⟩

end Adding

def Op.Adds {α : Type} (op : Op α) : Prop :=
  match op with
  | .createAttempt _ _ | .createUpload _ _ _ _ => True
  | _ => False

theorem Op.touches {α : Type} (op : Op α) (h : ¬ op.Adds) : Leads Touches op.query := by
  cases op with
  | createAttempt height dryRun => exact absurd trivial h
  | createUpload attemptId target pre dryRun => exact absurd trivial h
  | finishAttempt id status message => exact finishAttempt_touches id status message
  | finishUpload id status message => exact finishUpload_touches id status message
  | getAttempt id => exact alike_touches (getAttempt_alike id)
  | getUpload id => exact alike_touches (getUpload_alike id)
  | uploadsOf attemptId => exact alike_touches (uploadsOf_alike attemptId)
  | mostRecent => exact alike_touches mostRecent_alike
  | listAttempts page limit filter => exact alike_touches (listAttempts_alike page limit filter)
  | uploadsByTarget target page limit filter =>
    exact alike_touches (uploadsByTarget_alike target page limit filter)
  | successful => exact alike_touches successful_alike
  | claim id => exact claim_touches id
  | release id => exact release_touches id
  | markDeleted id => exact markDeleted_touches id
  | persistAttempt id value => exact persistAttempt_touches id value
  | persistUpload id value => exact persistUpload_touches id value

end Audit

open Audit

def Act.Adds {β : Type} (act : Act β) : Prop :=
  match act with
  | .audit op => op.Adds
  | _ => False

/-- Acts that add no row only touch those there are, if no one else is at work. -/
theorem Deployment.perform_touches {β : Type} (act : Act β) (d : Deployment)
    (hcalm : d.meanwhile = []) (h : ¬ act.Adds) :
    (d.perform act).2.meanwhile = [] ∧ Touches d.store (d.perform act).2.store := by
  have same : ∀ {d' : Deployment}, d'.meanwhile = d.meanwhile → d'.store = d.store →
      d'.meanwhile = [] ∧ Touches d.store d'.store := by
    intro d' hm hs
    exact ⟨hm.trans hcalm, hs ▸ Touches.refl d.store⟩
  cases act with
  | audit op => exact ⟨hcalm, op.touches h d.store⟩
  | command node text =>
    refine same ?_ ?_ <;> simp only [perform, command] <;> split <;> rfl
  | put key text =>
    refine same ?_ ?_ <;> simp only [perform, put] <;> split <;> rfl
  | openRemoval upload pre =>
    refine same ?_ ?_ <;> simp only [perform, openRemoval, note, hcalm, takeEntry]
  | closeRemoval upload pre =>
    refine same ?_ ?_ <;> simp only [perform, closeRemoval] <;> split <;> rfl
  | enter =>
    simp only [perform, enter]
    split
    · exact same rfl rfl
    · exact ⟨hcalm, Touches.of_same rfl rfl⟩
  | leave => exact same rfl rfl
  | phase p => exact same rfl rfl
  | agreed height next => exact same rfl rfl

end FleetSnapshot
