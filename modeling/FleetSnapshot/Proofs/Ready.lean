import FleetSnapshot.Proofs.Listing
import Mathlib.Data.List.Nodup

/-! The audit store when nothing stands in the way: no trigger is set, no statement is refused and
both tables are there. Every operation then does just what it is for. -/

namespace FleetSnapshot.Audit

open Query

def UploadRow.eligible (r : UploadRow) : Bool :=
  r.status == Progress.success.text && !r.persisted && !r.deleted

theorem UploadRow.ReadsAs.eligible {r : UploadRow} {u : Upload} (h : r.ReadsAs u) :
    u.eligible = r.eligible := by
  have hs : (r.status == Progress.success.text) = (u.status == .success) := by
    rw [h.status]
    cases u.status <;> decide
  rw [Upload.eligible, UploadRow.eligible, hs, h.persisted, h.deleted]

namespace Store

/-- No trigger is set, and the tables are there. Statements may still be refused. -/
structure Plain (s : Store) : Prop where
  triggers : s.triggers = []
  attemptTable : s.tables.attempts.isSome = true
  uploadTable : s.tables.uploads.isSome = true

structure Ready (s : Store) : Prop where
  triggers : s.triggers = []
  refusals : s.refusals = []
  attemptTable : s.tables.attempts.isSome = true
  uploadTable : s.tables.uploads.isSome = true

structure Numbered (s : Store) : Prop where
  attempts : (s.attempts.map (·.id)).Nodup
  uploads : (s.uploads.map (·.id)).Nodup

section Maps

variable (s : Store)

@[simp] theorem mapUploads_mapUploads (f g : UploadRow → UploadRow) :
    (s.mapUploads f).mapUploads g = s.mapUploads (g ∘ f) := by
  simp [mapUploads, Option.map_map, Function.comp_def]

@[simp] theorem mapAttempts_mapAttempts (f g : AttemptRow → AttemptRow) :
    (s.mapAttempts f).mapAttempts g = s.mapAttempts (g ∘ f) := by
  simp [mapAttempts, Option.map_map, Function.comp_def]

@[simp] theorem mapAttempts_id : (s.mapAttempts fun r => r) = s := by
  obtain ⟨⟨attempts, uploads, lastAttempt, lastUpload⟩, _⟩ := s
  cases attempts <;> simp [mapAttempts]

theorem mapUploads_congr {s : Store} {f g : UploadRow → UploadRow}
    (h : ∀ r ∈ s.uploads, f r = g r) : s.mapUploads f = s.mapUploads g := by
  unfold mapUploads uploads at *
  cases hu : s.tables.uploads with
  | none => rfl
  | some rows =>
    rw [hu, Option.getD_some] at h
    rw [Option.map_some, Option.map_some, List.map_congr_left h]

theorem mapAttempts_congr {s : Store} {f g : AttemptRow → AttemptRow}
    (h : ∀ r ∈ s.attempts, f r = g r) : s.mapAttempts f = s.mapAttempts g := by
  unfold mapAttempts attempts at *
  cases hu : s.tables.attempts with
  | none => rfl
  | some rows =>
    rw [hu, Option.getD_some] at h
    rw [Option.map_some, Option.map_some, List.map_congr_left h]

theorem mapUploads_same {s : Store} {f : UploadRow → UploadRow} (h : ∀ r ∈ s.uploads, f r = r) :
    s.mapUploads f = s := by
  rw [mapUploads_congr h]
  obtain ⟨⟨attempts, uploads, lastAttempt, lastUpload⟩, _⟩ := s
  cases uploads <;> simp [mapUploads]

theorem mapAttempts_same {s : Store} {f : AttemptRow → AttemptRow} (h : ∀ r ∈ s.attempts, f r = r) :
    s.mapAttempts f = s :=
  (mapAttempts_congr h).trans (mapAttempts_id s)

end Maps

namespace Plain

variable {s : Store}

theorem attemptRows (h : s.Plain) : s.tables.attempts = some s.attempts := by
  obtain ⟨rows, hrows⟩ := Option.isSome_iff_exists.1 h.attemptTable
  rw [attempts, hrows, Option.getD_some]

theorem uploadRows (h : s.Plain) : s.tables.uploads = some s.uploads := by
  obtain ⟨rows, hrows⟩ := Option.isSome_iff_exists.1 h.uploadTable
  rw [uploads, hrows, Option.getD_some]

end Plain

namespace Ready

variable {s : Store}

theorem plain (h : s.Ready) : s.Plain := ⟨h.triggers, h.attemptTable, h.uploadTable⟩

theorem begun (h : s.Ready) : s.begun = s := begun_of_nil h.refusals

theorem refusal (h : s.Ready) : s.refusal? = none := by rw [refusal?, h.refusals]; rfl

theorem mapUploads (h : s.Ready) (f : UploadRow → UploadRow) : (s.mapUploads f).Ready :=
  ⟨h.triggers, h.refusals, h.attemptTable, by simpa [Store.mapUploads] using h.uploadTable⟩

theorem mapAttempts (h : s.Ready) (f : AttemptRow → AttemptRow) : (s.mapAttempts f).Ready :=
  ⟨h.triggers, h.refusals, by simpa [Store.mapAttempts] using h.attemptTable, h.uploadTable⟩

end Ready

end Store

section Ready

variable {s : Store}

theorem selectAttempts_plain (h : s.Plain) (hgoes : s.refusal? = none) :
    selectAttempts s = (.ok s.attempts, s.begun) := by
  rw [selectAttempts, statement_apply, hgoes]
  simp only [attemptRows_apply, Store.begun_tables, h.attemptRows]

theorem selectUploads_plain (h : s.Plain) (hgoes : s.refusal? = none) :
    selectUploads s = (.ok s.uploads, s.begun) := by
  rw [selectUploads, statement_apply, hgoes]
  simp only [uploadRows_apply, Store.begun_tables, h.uploadRows]

theorem selectAttempts_ready (h : s.Ready) : selectAttempts s = (.ok s.attempts, s) := by
  rw [selectAttempts_plain h.plain h.refusal, h.begun]

theorem selectUploads_ready (h : s.Ready) : selectUploads s = (.ok s.uploads, s) := by
  rw [selectUploads_plain h.plain h.refusal, h.begun]

theorem updateUploads_plain (h : s.Plain) (columns : List String) (selects : UploadRow → Bool)
    (change : UploadRow → UploadRow) :
    updateUploads columns selects change s = match s.refusal? with
      | some f => (.error (.store f), s.begun)
      | none => (.ok (s.uploads.countP selects),
          s.begun.mapUploads fun r => if selects r then change r else r) := by
  have pass : ∀ r : UploadRow, judge s.begun.triggers .uploads (.update columns) r.shows = .pass :=
    fun r => by rw [Store.begun_triggers, h.triggers, judge_nil]
  rw [updateUploads, statement_apply]
  cases s.refusal? with
  | some f => rfl
  | none =>
    simp only [bind_apply, uploadRows_apply, get_apply, ofRead_apply, updateRows_pass pass,
      setUploads, modify_apply, pure_apply, Store.mapUploads, Store.begun_tables, h.uploadRows,
      Option.map_some]

theorem updateAttempts_plain (h : s.Plain) (columns : List String) (selects : AttemptRow → Bool)
    (change : AttemptRow → AttemptRow) :
    updateAttempts columns selects change s = match s.refusal? with
      | some f => (.error (.store f), s.begun)
      | none => (.ok (s.attempts.countP selects),
          s.begun.mapAttempts fun r => if selects r then change r else r) := by
  have pass : ∀ r : AttemptRow, judge s.begun.triggers .attempts (.update columns) r.shows = .pass :=
    fun r => by rw [Store.begun_triggers, h.triggers, judge_nil]
  rw [updateAttempts, statement_apply]
  cases s.refusal? with
  | some f => rfl
  | none =>
    simp only [bind_apply, attemptRows_apply, get_apply, ofRead_apply, updateRows_pass pass,
      setAttempts, modify_apply, pure_apply, Store.mapAttempts, Store.begun_tables, h.attemptRows,
      Option.map_some]

theorem updateUploads_ready (h : s.Ready) (columns : List String) (selects : UploadRow → Bool)
    (change : UploadRow → UploadRow) :
    updateUploads columns selects change s =
      (.ok (s.uploads.countP selects), s.mapUploads fun r => if selects r then change r else r) := by
  rw [updateUploads_plain h.plain, h.refusal, h.begun]

theorem updateAttempts_ready (h : s.Ready) (columns : List String) (selects : AttemptRow → Bool)
    (change : AttemptRow → AttemptRow) :
    updateAttempts columns selects change s =
      (.ok (s.attempts.countP selects),
        s.mapAttempts fun r => if selects r then change r else r) := by
  rw [updateAttempts_plain h.plain, h.refusal, h.begun]

theorem transaction_ready {α : Type} (h : s.Ready) {body : Query (Ending α)} {a : α} {s' : Store}
    (hb : body s = (.ok (.commit a), s')) (h' : s'.Ready) : transaction body s = (.ok a, s') := by
  simp only [transaction_apply, h.refusal, h.begun, hb, h'.refusal, h'.begun]

/-- A transaction that finds nothing to change is taken back, to no effect. -/
theorem transaction_still {α : Type} (h : s.Ready) {body : Query (Ending α)} (hb : (body s).2 = s)
    (hc : ∀ a, (body s).1 ≠ .ok (.commit a)) : (transaction body s).2 = s := by
  rw [transaction_apply, h.refusal, h.begun]
  rcases hs : body s with ⟨e | a | a, s'⟩ <;> rw [hs] at hb hc
  · obtain rfl := hb
    rfl
  · exact absurd rfl (hc a)
  · obtain rfl := hb
    rfl

theorem uploadsOf_plain (h : s.Plain) (hgoes : s.refusal? = none) (attemptId : Int) :
    uploadsOf attemptId s = (ofRead ((s.uploadRowsOf attemptId).mapM UploadRow.read) s.begun) := by
  rw [uploadsOf, bind_apply, selectUploads_plain h hgoes]
  rfl

theorem attemptWithUploads_plain (h : s.Plain) (hgoes : s.refusal? = none) {r : AttemptRow}
    {a : Attempt} (hr : Records s r a) : attemptWithUploads r s = (.ok a, s.begun) := by
  obtain ⟨⟨a', hread, ha⟩, hus⟩ := hr
  have hu : uploadsOf a'.id s = (.ok a.uploads, s.begun) := by
    rw [uploadsOf_plain h hgoes, (AttemptRow.reads hread).id, hus, ofRead_apply]
  rw [attemptWithUploads, bind_apply, ofRead_apply, hread]
  simp only [bind_apply, hu, pure_apply]
  rw [← ha]

theorem attemptWithUploads_ready (h : s.Ready) {r : AttemptRow} {a : Attempt}
    (hr : Records s r a) : attemptWithUploads r s = (.ok a, s) := by
  rw [attemptWithUploads_plain h.plain h.refusal hr, h.begun]

theorem mapM_ready (h : s.Ready) {rows : List AttemptRow} {as : List Attempt}
    (hr : List.Forall₂ (Records s) rows as) : rows.mapM attemptWithUploads s = (.ok as, s) := by
  induction hr with
  | nil => rfl
  | cons ha _ ih =>
    rw [List.mapM_cons, bind_apply, attemptWithUploads_ready h ha]
    simp only [bind_apply, ih, pure_apply]

theorem successful_ready (h : s.Ready) {as : List Attempt}
    (hr : List.Forall₂ (Records s) (candidates s) as) : successful s = (.ok as, s) := by
  rw [successful, bind_apply, selectAttempts_ready h]
  exact mapM_ready h hr

theorem listed_ready (h : s.Ready) {as : List Attempt}
    (hr : List.Forall₂ (Records s) (candidates s) as) : listed s = as := by
  rw [listed, successful_ready h hr]
  rfl

/-- Reading leaves such a store as it is, also where the reading fails. -/
def Query.Still {α : Type} (q : Query α) : Prop := Leads (fun s s' => s.Ready → s' = s) q

section Still

variable {α β : Type}

theorem still_trans ⦃a b c : Store⦄ (hab : a.Ready → b = a) (hbc : b.Ready → c = b) (ha : a.Ready) :
    c = a := by
  obtain rfl := hab ha
  exact hbc ha

theorem still_bind {q : Query α} {f : α → Query β} (hq : Still q) (hf : ∀ a, Still (f a)) :
    Still (q >>= f) :=
  leads_bind still_trans hq hf

theorem still_pure (a : α) : Still (pure a : Query α) := fun _ _ => rfl

theorem still_ofRead (x : Except StoreFault α) : Still (ofRead x) := leads_ofRead (fun _ _ => rfl) x

theorem selectUploads_still : Still selectUploads := fun _ h => by rw [selectUploads_ready h]

theorem selectAttempts_still : Still selectAttempts := fun _ h => by rw [selectAttempts_ready h]

theorem attemptWithUploads_still (r : AttemptRow) : Still (attemptWithUploads r) :=
  still_bind (still_ofRead _) fun _ =>
    still_bind (still_bind selectUploads_still fun _ => still_ofRead _) fun _ => still_pure _

theorem successful_still : Still successful :=
  still_bind selectAttempts_still fun _ =>
    leads_mapM (fun _ _ => rfl) still_trans attemptWithUploads_still _

theorem getUpload_still (id : Int) : Still (getUpload id) := by
  refine still_bind selectUploads_still fun rows => ?_
  cases rows.find? (·.id == id) with
  | none => exact still_pure _
  | some r => exact still_bind (still_ofRead _) fun _ => still_pure _

theorem getAttempt_still (id : Int) : Still (getAttempt id) := by
  refine still_bind selectAttempts_still fun rows => ?_
  cases rows.find? (·.id == id) with
  | none => exact still_pure _
  | some r => exact still_bind (attemptWithUploads_still r) fun _ => still_pure _

theorem mostRecent_still : Still mostRecent := by
  refine still_bind selectAttempts_still fun rows => ?_
  cases Order.sort AttemptRow.latestFirst rows with
  | nil => exact still_pure _
  | cons r rs => exact still_bind (attemptWithUploads_still r) fun _ => still_pure _

end Still

theorem find_of_mem {ρ κ : Type} [BEq κ] [LawfulBEq κ] {f : ρ → κ} {rows : List ρ}
    (hn : (rows.map f).Nodup) {r : ρ} (hr : r ∈ rows) : rows.find? (f · == f r) = some r := by
  cases hf : rows.find? (f · == f r) with
  | none => exact absurd (List.find?_eq_none.1 hf r hr) (by simp)
  | some r' =>
    have hid : f r' = f r := by simpa using List.find?_some hf
    rw [List.inj_on_of_nodup_map hn (List.mem_of_find?_eq_some hf) hr hid]

/-- Of rows with numbers of their own, one at most is selected by its number. -/
theorem count_of_mem {ρ : Type} {f : ρ → Int} {rows : List ρ} (hn : (rows.map f).Nodup) {r : ρ}
    (hr : r ∈ rows) {p : ρ → Bool} (hp : p r = true) (hf : ∀ r', p r' = true → f r' = f r) :
    rows.countP p = 1 := by
  have hpos : 0 < rows.countP p := List.countP_pos_iff.2 ⟨r, hr, hp⟩
  have hle : rows.countP p ≤ (rows.map f).count (f r) := by
    rw [List.count, List.countP_map]
    exact List.countP_mono_left fun r' _ h => by simpa using hf r' h
  have hone := List.nodup_iff_count_le_one.1 hn (f r)
  omega

theorem getAttempt_plain (h : s.Plain) (hn : s.Numbered) (hgoes : s.refusal? = none)
    (hgoes' : s.begun.refusal? = none) {r : AttemptRow} {a : Attempt} (hmem : r ∈ s.attempts)
    (hr : Records s r a) : getAttempt r.id s = (.ok (some a), s.begun.begun) := by
  have hbegun : Records s.begun r a := hr.alike ⟨rfl, rfl⟩
  have hplain : s.begun.Plain := ⟨h.triggers, h.attemptTable, h.uploadTable⟩
  rw [getAttempt, bind_apply, selectAttempts_plain h hgoes]
  simp only [find_of_mem hn.attempts hmem, bind_apply,
    attemptWithUploads_plain hplain hgoes' hbegun, pure_apply]

theorem getAttempt_ready (h : s.Ready) (hn : s.Numbered) {r : AttemptRow} {a : Attempt}
    (hmem : r ∈ s.attempts) (hr : Records s r a) : getAttempt r.id s = (.ok (some a), s) := by
  have hgoes : s.begun.refusal? = none := by rw [h.begun, h.refusal]
  rw [getAttempt_plain h.plain hn h.refusal hgoes hmem hr, h.begun, h.begun]

/-- A row is marked by a claim just if it is a free one of this number. -/
theorem claim_exact (h : s.Ready) (id : Int) :
    claim id s = (.ok (s.uploads.countP (fun r => r.id == id && r.eligible) == 1),
      s.mapUploads fun r => if r.id == id && r.eligible then { r with deleted := true } else r) := by
  have hsel : (fun r : UploadRow => r.id == id && !r.persisted && !r.deleted &&
      r.status == Progress.success.text) = fun r => r.id == id && r.eligible := by
    funext r
    rw [UploadRow.eligible, Bool.and_assoc, Bool.and_assoc, Bool.and_comm (r.status == _),
      Bool.and_assoc, Bool.and_comm (r.status == _)]
  rw [claim, hsel, bind_apply, updateUploads_ready h]
  rfl

/-- The claim on a row that is free is won. -/
theorem claim_ready (h : s.Ready) (hn : s.Numbered) {r : UploadRow} (hmem : r ∈ s.uploads)
    (hfree : r.eligible = true) :
    claim r.id s = (.ok true,
      s.mapUploads fun r' => if r'.id == r.id then { r' with deleted := true } else r') := by
  have hone := count_of_mem (p := fun r' => r'.id == r.id && r'.eligible) hn.uploads hmem
    (by simp [hfree]) (by simp +contextual)
  rw [claim_exact h, hone]
  refine congrArg _ (Store.mapUploads_congr fun r' hr' => ?_)
  by_cases hid : r'.id = r.id
  · rw [List.inj_on_of_nodup_map hn.uploads hr' hmem hid]
    simp [hfree]
  · simp [hid]

theorem release_ready (h : s.Ready) (id : Int) :
    release id s = (.ok (),
      s.mapUploads fun r => if r.id == id then { r with deleted := false } else r) := by
  rw [release, bind_apply, updateUploads_ready h]
  rfl

/-- Attempts are changed together with their uploads. If there are none to change, then nothing is
changed, however the transaction goes on. -/
theorem cascade_ready {α : Type} (h : s.Ready) (columns : List String) (own : AttemptRow → Bool)
    (change : AttemptRow → AttemptRow) (theirs : UploadRow → Bool)
    (change' : UploadRow → UploadRow) {otherwise : Query (Ending α)} (a : α)
    (hstill : (otherwise s).2 = s) (hother : ∀ a, (otherwise s).1 ≠ .ok (.commit a)) :
    let ended := transaction (do
      let n ← updateAttempts columns own change
      if n == 0 then otherwise
      else
        let _ ← updateUploads columns theirs change'
        return .commit a) s
    if s.attempts.any own then
      ended = (.ok a, (s.mapAttempts fun r => if own r then change r else r).mapUploads
        fun r => if theirs r then change' r else r)
    else ended.2 = s := by
  have hupdate := updateAttempts_ready h columns own change
  dsimp only
  split
  case isTrue hany =>
    have hpos := List.countP_pos_iff.2 (List.any_eq_true.1 hany)
    refine transaction_ready h ?_ ((h.mapAttempts _).mapUploads _)
    rw [bind_apply, hupdate]
    dsimp only
    rw [if_neg (by simpa using Nat.ne_of_gt hpos), bind_apply,
      updateUploads_ready (h.mapAttempts _)]
    rfl
  case isFalse hnone =>
    have hout : ∀ r ∈ s.attempts, ¬ own r = true := fun r hr hown =>
      hnone (List.any_eq_true.2 ⟨r, hr, hown⟩)
    have hsame : (s.mapAttempts fun r => if own r then change r else r) = s :=
      Store.mapAttempts_same fun r hr => if_neg (hout r hr)
    rw [List.countP_eq_zero.2 hout, hsame] at hupdate
    refine transaction_still h ?_ ?_
    · rw [bind_apply, hupdate]
      exact hstill
    · rw [bind_apply, hupdate]
      exact hother

/-- An attempt without protection is marked, and with it what is unprotected of its uploads. -/
theorem markDeleted_exact (h : s.Ready) (id : Int) :
    if s.attempts.any fun a => a.id == id && !a.persisted then
      markDeleted id s = (.ok (),
        (s.mapAttempts fun a =>
          if a.id == id && !a.persisted then { a with deleted := true } else a).mapUploads fun u =>
          if u.attemptId == id && !u.persisted then { u with deleted := true } else u)
    else (markDeleted id s).2 = s := by
  refine cascade_ready h ["deleted"] (fun a => a.id == id && !a.persisted)
    ({ · with deleted := true }) (fun u => u.attemptId == id && !u.persisted)
    ({ · with deleted := true }) () ?_ ?_
  all_goals
    rw [bind_apply, selectAttempts_ready h]
    dsimp only
    cases s.attempts.find? (·.id == id) with
    | none => first | rfl | nofun
    | some r =>
      dsimp only
      split <;> first | rfl | nofun

/-- An attempt and its uploads are protected, or let go of, together. What is deleted is never
protected. -/
theorem persistAttempt_exact (h : s.Ready) (id : Int) (value : Bool) :
    if s.attempts.any fun a => a.id == id && (!a.deleted || !value) then
      persistAttempt id value s = (.ok true,
        (s.mapAttempts fun a =>
          if a.id == id && (!a.deleted || !value) then { a with persisted := value } else a).mapUploads
          fun u =>
          if u.attemptId == id && (!u.deleted || !value) then { u with persisted := value } else u)
    else (persistAttempt id value s).2 = s := by
  refine cascade_ready h ["persisted"] (fun a => a.id == id && (!a.deleted || !value))
    ({ · with persisted := value }) (fun u => u.attemptId == id && (!u.deleted || !value))
    ({ · with persisted := value }) true ?_ ?_
  all_goals
    rw [bind_apply, selectAttempts_ready h]
    first | rfl | nofun

theorem persistUpload_exact (h : s.Ready) (id : Int) (value : Bool) :
    (persistUpload id value s).2 = s.mapUploads fun u =>
      if u.id == id && (!u.deleted || !value) then { u with persisted := value } else u := by
  rw [persistUpload, bind_apply, updateUploads_ready h]
  dsimp only
  split
  · rfl
  · exact still_bind (getUpload_still id) (fun _ => still_pure _) _ (h.mapUploads _)

end Ready

end FleetSnapshot.Audit
