import FleetSnapshot.Proofs.Commands
import FleetSnapshot.Proofs.Filed

/-! What an attempt writes. It puts a row of its own behind the attempts on record, and a row for each
of its uploads behind the uploads, and changes no row but those. The audit store is followed through
the run: what it answers is known, whatever the nodes and the bucket say. -/

namespace FleetSnapshot

open Audit

/-- Any act goes but the removal of data. The audit store answers as it stands. -/
def follows : Discipline Store where
  allows _ act := match act with
    | .openRemoval _ _ | .closeRemoval _ _ => False
    | _ => True
  expects s act := match act with
    | .audit op => fun r => r = (op.run s).1
    | _ => fun _ => True
  after s act := match act with
    | .audit op => fun _ => (op.run s).2
    | .enter => fun
      | .ok () => { s with ticks := s.ticks + 1 }
      | .error _ => s
    | _ => fun _ => s

theorem Deployment.perform_follows {β : Type} (act : Act β) (d : Deployment)
    (h : follows.allows d.store act) :
    follows.expects d.store act (d.perform act).1 ∧
      (d.perform act).2.store = follows.after d.store act (d.perform act).1 := by
  cases act with
  | audit op => exact ⟨rfl, rfl⟩
  | command node text =>
    refine ⟨trivial, ?_⟩
    simp only [perform, command]
    split <;> rfl
  | put key text =>
    refine ⟨trivial, ?_⟩
    simp only [perform, put]
    split <;> rfl
  | openRemoval upload pre => exact h.elim
  | closeRemoval upload pre => exact h.elim
  | enter =>
    refine ⟨trivial, ?_⟩
    simp only [perform, enter]
    split <;> rfl
  | leave => exact ⟨trivial, rfl⟩
  | phase p => exact ⟨trivial, rfl⟩
  | agreed height next => exact ⟨trivial, rfl⟩

theorem follows_unmoved : follows.Unmoved := fun _ _ _ => ⟨trivial, fun _ => rfl⟩

theorem follows_unphased : follows.Unphased := fun _ _ => ⟨trivial, fun _ => rfl⟩

theorem Job.perform_follows {α : Type} {j : Job α} {d : Deployment} {post : Store → Prop}
    (hj : j.Keeps follows d.store (fun s _ => post s) fun s _ => post s) :
    post (j.perform d).2.store := by
  obtain ⟨s, hs, hpost⟩ := Plan.run_maintains (I := fun s d => d.store = s)
    (fun act c d hallows hc => by subst hc; exact d.perform_follows act hallows) j.run hj rfl
  rw [show (j.perform d).2.store = s from hs]
  generalize (j.run.run d).1 = answer at hpost
  cases answer <;> exact hpost

section Finishing

variable {s : Store}

theorem finishUpload_plain (h : s.Plain) (id : Int) (status : Progress) (message : Option String) :
    finishUpload id status message s = match s.refusal? with
      | some f => (.error (.store f), { s.begun with ticks := s.ticks + 1 })
      | none => (.ok (), Store.mapUploads (fun r =>
          if r.id == id && r.status == Progress.running.text then
            { r with
              status := status.text
              endTime := some (.ofInstant (s.clock s.ticks))
              errorMessage := message }
          else r) { s.begun with ticks := s.ticks + 1 }) := by
  have hnow : Query.now s = (.ok (s.clock s.ticks), { s with ticks := s.ticks + 1 }) := rfl
  have hplain : Store.Plain { s with ticks := s.ticks + 1 } :=
    ⟨h.triggers, h.attemptTable, h.uploadTable⟩
  simp only [finishUpload, Query.bind_apply, hnow, updateUploads_plain hplain]
  have hsame : Store.refusal? { s with ticks := s.ticks + 1 } = s.refusal? := rfl
  rw [hsame]
  cases s.refusal? <;> rfl

theorem finishAttempt_plain (h : s.Plain) (id : Int) (status : Progress) (message : Option String) :
    finishAttempt id status message s = match s.refusal? with
      | some f => (.error (.store f), { s.begun with ticks := s.ticks + 1 })
      | none => (.ok (), Store.mapAttempts (fun r =>
          if r.id == id && r.status == Progress.running.text then
            { r with
              status := status.text
              endTime := some (.ofInstant (s.clock s.ticks))
              errorMessage := message }
          else r) { s.begun with ticks := s.ticks + 1 }) := by
  have hnow : Query.now s = (.ok (s.clock s.ticks), { s with ticks := s.ticks + 1 }) := rfl
  have hplain : Store.Plain { s with ticks := s.ticks + 1 } :=
    ⟨h.triggers, h.attemptTable, h.uploadTable⟩
  simp only [finishAttempt, Query.bind_apply, hnow, updateAttempts_plain hplain]
  have hsame : Store.refusal? { s with ticks := s.ticks + 1 } = s.refusal? := rfl
  rw [hsame]
  cases s.refusal? <;> rfl

/-- A row is put on record unless the statement is refused. -/
theorem createAttempt_goes (h : s.Plain) (hgoes : s.refusal? = none) (height : UInt64)
    (dryRun : Bool) : ∃ a, a.id = s.tables.lastAttempt + 1 ∧
      createAttempt height dryRun s = (.ok a, s.addAttempt (s.newAttempt height dryRun)) := by
  let s₁ := { s with ticks := s.ticks + 1 }
  have hplain : s₁.Plain := ⟨h.triggers, h.attemptTable, h.uploadTable⟩
  have hinsert : ∀ row, (Query.insertAttempt row s₁).1 = .ok (s₁.tables.lastAttempt + 1) := by
    intro row
    rw [Query.insertAttempt, Query.statement_apply, show s₁.refusal? = none from hgoes]
    simp only [Query.bind_apply, Query.attemptRows_apply, Store.begun_tables, hplain.attemptRows,
      Query.get_apply, Store.begun_triggers, hplain.triggers, judge_nil, Query.setAttempts,
      Query.modify_apply, Query.pure_apply]
  rcases createAttempt_cases h.triggers height dryRun with ⟨e, he, -⟩ | hcreated
  · rw [createAttempt, Query.bind_apply, show Query.now s = (.ok (s.clock s.ticks), s₁) from rfl] at he
    simp only [Query.bind_apply] at he
    split at he
    case h_1 => cases he
    case h_2 hrow =>
      have hgone := (congrArg Prod.fst hrow).symm.trans (hinsert _)
      cases hgone
  · exact hcreated

theorem createUpload_goes (h : s.Plain) (hgoes : s.refusal? = none) {attemptId : Int}
    (hattempt : ∃ a ∈ s.attempts, a.id = attemptId) (target pre : String) (dryRun : Bool) :
    ∃ u, u.id = s.tables.lastUpload + 1 ∧ createUpload attemptId target pre dryRun s =
      (.ok u, s.addUpload (s.newUpload attemptId target pre dryRun)) := by
  let s₁ := { s with ticks := s.ticks + 1 }
  have hplain : s₁.Plain := ⟨h.triggers, h.attemptTable, h.uploadTable⟩
  have hinsert : ∀ row : UploadRow, row.attemptId = attemptId →
      (Query.insertUpload row s₁).1 = .ok (s₁.tables.lastUpload + 1) := by
    rintro row rfl
    have hany : s.attempts.any (·.id == row.attemptId) = true := by simpa using hattempt
    rw [Query.insertUpload, Query.statement_apply, show s₁.refusal? = none from hgoes]
    simp only [Query.bind_apply, Query.uploadRows_apply, Store.begun_tables, hplain.uploadRows,
      Query.get_apply, hplain.attemptRows, Store.begun_triggers, hplain.triggers, judge_nil,
      Query.setUploads, Query.modify_apply, Query.pure_apply, show s₁.attempts = s.attempts from rfl,
      hany, if_true]
  rcases createUpload_cases h.triggers attemptId target pre dryRun with
    ⟨e, he, -⟩ | ⟨u, hid, -, hcreated⟩
  · rw [createUpload, Query.bind_apply, show Query.now s = (.ok (s.clock s.ticks), s₁) from rfl] at he
    simp only [Query.bind_apply] at he
    split at he
    case h_1 => cases he
    case h_2 hrow =>
      have hgone := (congrArg Prod.fst hrow).symm.trans (hinsert _ rfl)
      cases hgone
  · exact ⟨u, hid, hcreated⟩

end Finishing

def Audit.AttemptRow.ended (a : AttemptRow) (status : Progress) (message : Option String)
    (t : Instant) : AttemptRow :=
  { a with status := status.text, endTime := some (.ofInstant t), errorMessage := message }

def Audit.UploadRow.ended (u : UploadRow) (status : Progress) (message : Option String)
    (t : Instant) : UploadRow :=
  { u with status := status.text, endTime := some (.ofInstant t), errorMessage := message }

/-- An attempt is under way: behind the rows that were there stand its own and those of its
uploads. -/
structure Underway (s₀ : Store) (a : AttemptRow) (us : List UploadRow) (s : Store) : Prop where
  filed : Filed s
  attempts : s.attempts = s₀.attempts ++ [a]
  uploads : s.uploads = s₀.uploads ++ us
  own : ∀ u ∈ us, u.attemptId = a.id
  stands : a.deleted = false

/-- The last row alone is changed by what changes only rows with its number. -/
theorem map_last {ρ : Type} {key : ρ → Int} {rows : List ρ} {r : ρ}
    (hn : ((rows ++ [r]).map key).Nodup) {f : ρ → ρ} (hf : ∀ r', key r' ≠ key r → f r' = r') :
    (rows ++ [r]).map f = rows ++ [f r] := by
  rw [List.map_append, List.map_singleton]
  congr 1
  refine (List.map_congr_left fun r' hr' => hf r' fun heq => ?_).trans (List.map_id rows)
  rw [List.map_append, List.nodup_append] at hn
  exact hn.2.2 _ (List.mem_map_of_mem hr') _ List.mem_cons_self heq

namespace Underway

variable {s₀ s s' : Store} {a : AttemptRow} {us : List UploadRow}

theorem alike (h : Underway s₀ a us s) (hs : Query.Alike s s') : Underway s₀ a us s' :=
  ⟨h.filed.touches (Touches.of_alike hs), hs.attempts.trans h.attempts,
    hs.uploads.trans h.uploads, h.own, h.stands⟩

theorem of_create (h : Filed s) (height : UInt64) (dryRun : Bool) :
    Underway s (s.newAttempt height dryRun) [] (s.addAttempt (s.newAttempt height dryRun)) :=
  ⟨h.addAttempt rfl, rfl, (List.append_nil _).symm, List.forall_mem_nil _, rfl⟩

theorem addUpload (h : Underway s₀ a us s) (target pre : String) (dryRun : Bool) :
    Underway s₀ a (us ++ [s.newUpload a.id target pre dryRun])
      (s.addUpload (s.newUpload a.id target pre dryRun)) := by
  have howned : ∃ a' ∈ s.attempts, a'.id = a.id := by
    rw [h.attempts]
    exact ⟨a, List.mem_append_right _ List.mem_cons_self, rfl⟩
  refine ⟨h.filed.addUpload rfl howned, h.attempts, ?_, fun u hu => ?_, h.stands⟩
  · change s.uploads ++ _ = _
    rw [h.uploads, List.append_assoc]
  · rcases List.mem_append.1 hu with hu | hu
    · exact h.own u hu
    · rw [List.mem_singleton.1 hu]
      rfl

/-- The end of an upload goes into its row, and into no other. -/
theorem endUpload {u : UploadRow} (h : Underway s₀ a (us ++ [u]) s)
    (hrunning : u.status = Progress.running.text) (hgoes : s.refusal? = none) (status : Progress)
    (message : Option String) :
    Underway s₀ a (us ++ [u.ended status message (s.clock s.ticks)])
      (Audit.finishUpload u.id status message s).2 := by
  have hfiled := h.filed.touches (finishUpload_touches u.id status message s)
  rw [finishUpload_plain h.filed.plain, hgoes] at hfiled ⊢
  have hn := h.filed.numbered.uploads
  rw [h.uploads, ← List.append_assoc] at hn
  refine ⟨hfiled, h.attempts, ?_, fun u' hu' => ?_, h.stands⟩
  · rw [Store.mapUploads_uploads]
    change s.uploads.map _ = _
    rw [h.uploads, ← List.append_assoc, map_last hn, List.append_assoc]
    · simp [hrunning, UploadRow.ended]
    · intro r' hne
      rw [if_neg (by simp [hne])]
  · rcases List.mem_append.1 hu' with hu' | hu'
    · exact h.own u' (List.mem_append_left _ hu')
    · rw [List.mem_singleton.1 hu']
      exact h.own u (List.mem_append_right _ List.mem_cons_self)

/-- The same, where the statement may be refused. -/
theorem finishUpload {u : UploadRow} (h : Underway s₀ a (us ++ [u]) s)
    (hrunning : u.status = Progress.running.text) (status : Progress) (message : Option String) :
    ∃ u', Underway s₀ a (us ++ [u']) (finishUpload u.id status message s).2 ∧
      u'.target = u.target ∧ u'.uploadPrefix = u.uploadPrefix ∧
      u'.status = (if s.refusal?.isSome then Progress.running else status).text ∧
      (Audit.finishUpload u.id status message s).2.refusals = s.refusals.tail := by
  have hfiled := h.filed.touches (finishUpload_touches u.id status message s)
  have hended := fun hgoes => h.endUpload hrunning hgoes status message
  rw [finishUpload_plain h.filed.plain] at hfiled hended ⊢
  cases hr : s.refusal? with
  | some f =>
    rw [hr] at hfiled
    exact ⟨u, ⟨hfiled, h.attempts, h.uploads, h.own, h.stands⟩, rfl, rfl, hrunning, rfl⟩
  | none =>
    rw [hr] at hended
    exact ⟨_, hended rfl, rfl, rfl, rfl, rfl⟩

theorem endAttempt (h : Underway s₀ a us s) (hrunning : a.status = Progress.running.text)
    (hgoes : s.refusal? = none) (status : Progress) (message : Option String) :
    Underway s₀ (a.ended status message (s.clock s.ticks)) us
      (Audit.finishAttempt a.id status message s).2 := by
  have hfiled := h.filed.touches (finishAttempt_touches a.id status message s)
  rw [finishAttempt_plain h.filed.plain, hgoes] at hfiled ⊢
  have hn := h.filed.numbered.attempts
  rw [h.attempts] at hn
  refine ⟨hfiled, ?_, h.uploads, h.own, h.stands⟩
  rw [Store.mapAttempts_attempts]
  change s.attempts.map _ = _
  rw [h.attempts, map_last hn]
  · simp [hrunning, AttemptRow.ended]
  · intro r' hne
    rw [if_neg (by simp [hne])]

theorem finishAttempt (h : Underway s₀ a us s) (hrunning : a.status = Progress.running.text)
    (status : Progress) (message : Option String) :
    ∃ a', Underway s₀ a' us (finishAttempt a.id status message s).2 ∧ a'.id = a.id ∧
      a'.status = (if (Audit.finishAttempt a.id status message s).1.isOk then status
        else .running).text := by
  have hfiled := h.filed.touches (finishAttempt_touches a.id status message s)
  have hended := fun hgoes => h.endAttempt hrunning hgoes status message
  rw [finishAttempt_plain h.filed.plain] at hfiled hended ⊢
  cases hr : s.refusal? with
  | some f =>
    rw [hr] at hfiled
    exact ⟨a, ⟨hfiled, h.attempts, h.uploads, h.own, h.stands⟩, rfl, hrunning⟩
  | none =>
    rw [hr] at hended
    exact ⟨_, hended rfl, rfl, rfl⟩

end Underway

end FleetSnapshot
