import FleetSnapshot.Proofs.Blame
import FleetSnapshot.Proofs.Ready
import FleetSnapshot.Proofs.Rows

/-! The order of the audit store: rows have numbers of their own, up to the last one given, and every
upload is on record under an attempt. Whatever is done to a deployment, its records stay in order. -/

namespace FleetSnapshot

open Audit

namespace Audit.Store

variable {s s' : Store}

theorem Plain.touches (h : s.Plain) (ht : Touches s s') : s'.Plain := by
  obtain ⟨g, -, hattempts⟩ := ht.attempts
  obtain ⟨f, -, huploads⟩ := ht.uploads
  refine ⟨ht.triggers.trans h.triggers, ?_, ?_⟩
  · rw [hattempts, Option.isSome_map, h.attemptTable]
  · rw [huploads, Option.isSome_map, h.uploadTable]

theorem Numbered.touches (h : s.Numbered) (ht : Touches s s') : s'.Numbered := by
  obtain ⟨g, hg, hattempts⟩ := ht.attemptRows
  obtain ⟨f, hf, huploads⟩ := ht.uploadRows
  have hgid : (fun r => (g r).id) = fun r : AttemptRow => r.id := funext fun r => (hg r).1
  have hfid : (fun r => (f r).id) = fun r : UploadRow => r.id := funext fun r => (hf r).1
  constructor
  · rw [hattempts, List.map_map, Function.comp_def, hgid]
    exact h.attempts
  · rw [huploads, List.map_map, Function.comp_def, hfid]
    exact h.uploads

/-- A refusal that is not due at the start is not due at the end. -/
theorem Plain.ready (h : s'.Plain) (hs : s.Ready) (hspent : s'.refusals <:+ s.refusals) : s'.Ready := by
  rw [hs.refusals, List.suffix_nil] at hspent
  exact ⟨h.triggers, hspent, h.attemptTable, h.uploadTable⟩

end Audit.Store

structure Filed (s : Store) : Prop where
  plain : s.Plain
  numbered : s.Numbered
  attemptBound : ∀ r ∈ s.attempts, r.id ≤ s.tables.lastAttempt
  uploadBound : ∀ r ∈ s.uploads, r.id ≤ s.tables.lastUpload
  owned : ∀ r ∈ s.uploads, ∃ a ∈ s.attempts, a.id = r.attemptId

namespace Filed

variable {s s' : Store}

theorem fresh (ht : s.tables = {}) (h : s.triggers = []) : Filed s := by
  have hattempts : s.attempts = [] := by rw [Store.attempts, ht, Option.getD_some]
  have huploads : s.uploads = [] := by rw [Store.uploads, ht, Option.getD_some]
  refine ⟨⟨h, ?_, ?_⟩, ⟨?_, ?_⟩, ?_, ?_, ?_⟩
  · rw [ht, Option.isSome_some]
  · rw [ht, Option.isSome_some]
  all_goals simp [hattempts, huploads]

theorem touches (h : Filed s) (ht : Touches s s') : Filed s' := by
  obtain ⟨g, hg, hattempts⟩ := ht.attemptRows
  obtain ⟨f, hf, huploads⟩ := ht.uploadRows
  refine ⟨h.plain.touches ht, h.numbered.touches ht, ?_, ?_, ?_⟩
  · intro r hr
    rw [hattempts] at hr
    obtain ⟨row, hrow, rfl⟩ := List.mem_map.1 hr
    rw [(hg row).1, ht.lastAttempt]
    exact h.attemptBound row hrow
  · intro r hr
    rw [huploads] at hr
    obtain ⟨row, hrow, rfl⟩ := List.mem_map.1 hr
    rw [(hf row).1, ht.lastUpload]
    exact h.uploadBound row hrow
  · intro r hr
    rw [huploads] at hr
    obtain ⟨row, hrow, rfl⟩ := List.mem_map.1 hr
    obtain ⟨a, ha, hid⟩ := h.owned row hrow
    exact ⟨g a, hattempts ▸ List.mem_map_of_mem ha, by rw [(hg a).1, hid, (hf row).2.1]⟩

/-- A number above all that were given is new. -/
theorem nodup_snoc {ρ κ : Type} {key : ρ → κ} {rows : List ρ} {row : ρ}
    (h : (rows.map key).Nodup) (hnew : ∀ r ∈ rows, key r ≠ key row) :
    ((rows ++ [row]).map key).Nodup := by
  rw [List.map_append, List.map_singleton, ← List.concat_eq_append]
  refine h.concat fun hmem => ?_
  obtain ⟨r, hr, heq⟩ := List.mem_map.1 hmem
  exact hnew r hr heq

theorem addAttempt (h : Filed s) {row : AttemptRow} (hid : row.id = s.tables.lastAttempt + 1) :
    Filed (s.addAttempt row) := by
  refine ⟨⟨h.plain.triggers, rfl, h.plain.uploadTable⟩, ⟨?_, h.numbered.uploads⟩, ?_,
    h.uploadBound, ?_⟩
  · refine nodup_snoc h.numbered.attempts fun r hr heq => ?_
    have := h.attemptBound r hr
    omega
  · intro r hr
    change r.id ≤ row.id
    rcases List.mem_append.1 hr with hr | hr
    · have := h.attemptBound r hr
      omega
    · exact Int.le_of_eq (congrArg (·.id) (List.mem_singleton.1 hr))
  · intro r hr
    obtain ⟨a, ha, hid⟩ := h.owned r hr
    exact ⟨a, List.mem_append_left _ ha, hid⟩

theorem addUpload (h : Filed s) {row : UploadRow} (hid : row.id = s.tables.lastUpload + 1)
    (howned : ∃ a ∈ s.attempts, a.id = row.attemptId) : Filed (s.addUpload row) := by
  refine ⟨⟨h.plain.triggers, h.plain.attemptTable, rfl⟩, ⟨h.numbered.attempts, ?_⟩,
    h.attemptBound, ?_, ?_⟩
  · refine nodup_snoc h.numbered.uploads fun r hr heq => ?_
    have := h.uploadBound r hr
    omega
  · intro r hr
    change r.id ≤ row.id
    rcases List.mem_append.1 hr with hr | hr
    · have := h.uploadBound r hr
      omega
    · exact Int.le_of_eq (congrArg (·.id) (List.mem_singleton.1 hr))
  · intro r hr
    rcases List.mem_append.1 hr with hr | hr
    · exact h.owned r hr
    · rw [List.mem_singleton.1 hr]
      exact howned

theorem op {α : Type} (h : Filed s) (op : Op α) : Filed (op.run s).2 := by
  cases op with
  | createAttempt height dryRun =>
    rcases createAttempt_cases h.plain.triggers height dryRun with ⟨e, -, hs⟩ | ⟨a, -, hs⟩
    · exact h.touches (Touches.of_alike hs)
    · change Filed (createAttempt height dryRun s).2
      rw [hs]
      exact h.addAttempt rfl
  | createUpload id target pre dryRun =>
    rcases createUpload_cases h.plain.triggers id target pre dryRun with
      ⟨e, -, hs⟩ | ⟨u, -, howned, hs⟩
    · exact h.touches (Touches.of_alike hs)
    · change Filed (createUpload id target pre dryRun s).2
      rw [hs]
      exact h.addUpload rfl howned
  | _ => exact h.touches (Op.touches _ id s)

end Filed

namespace Deployment

/-- Nothing but statements on the audit store meets with refusals. -/
theorem perform_spends {β : Type} (act : Act β) (d : Deployment) (halone : d.meanwhile = []) :
    (d.perform act).2.store.refusals <:+ d.store.refusals := by
  have same : ∀ {d' : Deployment}, d'.store.refusals = d.store.refusals →
      d'.store.refusals <:+ d.store.refusals := fun h => h ▸ List.suffix_refl _
  cases act with
  | audit op => exact op.spends d.store
  | command node text =>
    refine same ?_
    simp only [perform, command]
    split <;> rfl
  | put key text =>
    refine same ?_
    simp only [perform, put]
    split <;> rfl
  | openRemoval upload pre =>
    refine same ?_
    simp only [perform, openRemoval, note, halone, takeEntry]
  | closeRemoval upload pre =>
    refine same ?_
    simp only [perform, closeRemoval]
    split <;> rfl
  | enter =>
    refine same ?_
    simp only [perform, enter]
    split <;> rfl
  | leave => exact same rfl
  | phase p => exact same rfl
  | agreed height next => exact same rfl

/-- Nobody joins in. -/
theorem perform_alone {β : Type} (act : Act β) (d : Deployment) (halone : d.meanwhile = []) :
    (d.perform act).2.meanwhile = [] := by
  cases act with
  | audit op => exact halone
  | _ => exact (d.perform_touches _ halone id).1

end Deployment

theorem Plan.run_alone {α : Type} (p : Plan α) (d : Deployment) (halone : d.meanwhile = []) :
    (p.run d).2.meanwhile = [] ∧ (p.run d).2.store.refusals <:+ d.store.refusals := by
  induction p generalizing d with
  | done a => exact ⟨halone, List.suffix_refl _⟩
  | step act next ih =>
    obtain ⟨h, hspent⟩ := ih _ _ (d.perform_alone act halone)
    exact ⟨h, hspent.trans (d.perform_spends act halone)⟩

end FleetSnapshot
