import FleetSnapshot.Proofs.Undivided

/-! Protection of an attempt reaches its uploads, in one step and with the exception of what is
deleted already. From then on an upload is protected or let go of on its own, and the last word on it
stands. -/

namespace FleetSnapshot.Audit

open Query

section Flags

/-- The call is heeded for this upload: what is deleted has no data to protect any more. -/
def UploadRow.heeds (u : UploadRow) (call : Int × Bool) : Bool :=
  call.1 == u.id && (!u.deleted || !call.2)

def UploadRow.lastFlag (u : UploadRow) (calls : List (Int × Bool)) : Option Bool :=
  (calls.filter u.heeds).getLast?.map (·.2)

def persistEach (calls : List (Int × Bool)) (s : Store) : Store :=
  calls.foldl (fun s call => (persistUpload call.1 call.2 s).2) s

def Store.cascaded (id : Int) (value : Bool) (s : Store) : Store :=
  if ∃ a ∈ s.attempts, a.id = id ∧ (value = false ∨ a.deleted = false) then
    (s.mapAttempts fun a => if a.id = id then { a with persisted := value } else a).mapUploads
      fun u => if u.attemptId = id ∧ (value = false ∨ u.deleted = false) then
        { u with persisted := value } else u
  else s

def Store.Reflagged (s s' : Store) : Prop :=
  ∃ f, (∀ u, ∃ v, f u = { u with persisted := v }) ∧ s'.uploads = s.uploads.map f

def Store.LegibleUpload (s : Store) (id : Int) : Prop :=
  ∀ u ∈ s.uploads, u.id = id → u.deleted = true → ∃ v, u.read = .ok v

variable {u : UploadRow} {calls : List (Int × Bool)} {s s' s'' : Store} {id : Int} {value : Bool}

theorem lastFlag_cons (u : UploadRow) (call : Int × Bool) (calls : List (Int × Bool)) :
    u.lastFlag (call :: calls) =
      if u.heeds call then some ((u.lastFlag calls).getD call.2) else u.lastFlag calls := by
  unfold UploadRow.lastFlag
  rw [List.filter_cons]
  split
  case isTrue =>
    rw [List.getLast?_cons]
    cases (calls.filter u.heeds).getLast? <;> rfl
  case isFalse => rfl

theorem heeds_iff {call : Int × Bool} :
    u.heeds call = true ↔ call.1 = u.id ∧ (call.2 = false ∨ u.deleted = false) := by
  simp [UploadRow.heeds, or_comm]

theorem lastFlag_some (h : u.lastFlag calls = some value) :
    (u.id, value) ∈ calls ∧ (value = true → u.deleted = false) := by
  obtain ⟨⟨id, value⟩, hlast, rfl⟩ := Option.map_eq_some_iff.1 h
  obtain ⟨hmem, hheeds⟩ := List.mem_filter.1 (List.mem_of_getLast? hlast)
  obtain ⟨rfl, hfree⟩ := heeds_iff.1 hheeds
  exact ⟨hmem, fun htrue => hfree.resolve_left fun hfalse => nomatch htrue.symm.trans hfalse⟩

theorem Store.Reflagged.trans (h : s.Reflagged s') (h' : s'.Reflagged s'') : s.Reflagged s'' := by
  obtain ⟨f, hf, hs⟩ := h
  obtain ⟨g, hg, hs'⟩ := h'
  refine ⟨g ∘ f, fun u => ?_, by rw [hs', hs, List.map_map]⟩
  obtain ⟨v, hv⟩ := hf u
  obtain ⟨v', hv'⟩ := hg (f u)
  exact ⟨v', by rw [Function.comp_apply, hv', hv]⟩

theorem Store.Reflagged.any (h : s.Reflagged s') (id : Int) :
    s'.uploads.any (·.id == id) = s.uploads.any (·.id == id) := by
  obtain ⟨f, hf, hs⟩ := h
  rw [hs, List.any_map]
  congr 1
  funext u
  obtain ⟨v, hv⟩ := hf u
  rw [Function.comp_apply, hv]

theorem Store.Reflagged.legible (h : s.Reflagged s') (hread : s.LegibleUpload id) : s'.LegibleUpload id := by
  obtain ⟨f, hf, hs⟩ := h
  unfold LegibleUpload
  rw [hs]
  refine List.forall_mem_map.2 fun u hu hid hdeleted => ?_
  obtain ⟨v, hv⟩ := hf u
  rw [hv] at hid hdeleted ⊢
  exact (UploadRow.readable_iff _).2 ((UploadRow.readable_iff u).1 (hread u hu hid hdeleted))

end Flags

section Protection

variable {s : Store} {id : Int}

/-- An upload that is there is found if its row can be read. -/
theorem getUpload_ready (h : s.Ready)
    (hread : ∀ u ∈ s.uploads, u.id = id → ∃ v, u.read = .ok v) :
    ∃ found, getUpload id s = (.ok found, s) ∧ found.isSome = s.uploads.any (·.id == id) := by
  rw [getUpload, bind_apply, selectUploads_ready h, ← List.isSome_find?]
  dsimp only
  cases hfind : s.uploads.find? (·.id == id) with
  | none => exact ⟨none, rfl, rfl⟩
  | some u =>
    have hid := List.find?_some hfind
    obtain ⟨v, hv⟩ := hread u (List.mem_of_find?_eq_some hfind) (beq_iff_eq.1 hid)
    refine ⟨some v, ?_, rfl⟩
    dsimp only
    rw [bind_apply, ofRead_apply, hv]
    rfl

/-- A single call tells whether the upload is there, also where it does nothing. -/
theorem persistUpload_answer (h : s.Ready) (hread : s.LegibleUpload id) (value : Bool) :
    (persistUpload id value s).1 = .ok (s.uploads.any (·.id == id)) := by
  rw [persistUpload, bind_apply, updateUploads_ready h]
  dsimp only
  split
  case isTrue hpos =>
    obtain ⟨u, hu, hheeded⟩ := List.countP_pos_iff.1 hpos
    have hany : s.uploads.any (·.id == id) = true :=
      List.any_eq_true.2 ⟨u, hu, (Bool.and_eq_true_iff.1 hheeded).1⟩
    rw [hany]
    rfl
  case isFalse hnone =>
    have hout := List.countP_eq_zero.1 (Nat.eq_zero_of_not_pos hnone)
    rw [Store.mapUploads_same fun u hu => if_neg (hout u hu)]
    have hspent : ∀ u ∈ s.uploads, u.id = id → u.deleted = true ∧ value = true := fun u hu hid => by
      simpa [hid] using hout u hu
    obtain ⟨found, hfound, hsome⟩ :=
      getUpload_ready h fun u hu hid => hread u hu hid (hspent u hu hid).1
    rw [bind_of_ok _ hfound, hsome]
    rfl

theorem persistUpload_heeded (h : s.Ready) (call : Int × Bool) :
    (persistUpload call.1 call.2 s).2 =
      s.mapUploads fun u => if u.heeds call then { u with persisted := call.2 } else u := by
  rw [persistUpload_exact h]
  refine Store.mapUploads_congr fun u _ => ?_
  rw [UploadRow.heeds, Bool.beq_comm]

theorem persistEach_exact (h : s.Ready) (calls : List (Int × Bool)) :
    persistEach calls s =
      s.mapUploads fun u => { u with persisted := (u.lastFlag calls).getD u.persisted } := by
  induction calls generalizing s with
  | nil => exact (Store.mapUploads_same fun _ _ => rfl).symm
  | cons call calls ih =>
    rw [persistEach, List.foldl_cons, persistUpload_heeded h]
    refine (ih (h.mapUploads _)).trans ?_
    rw [Store.mapUploads_mapUploads]
    refine Store.mapUploads_congr fun u _ => ?_
    -- what a call heeds is in the number and the deletion of a row, which no call changes
    rw [Function.comp_apply, lastFlag_cons]
    split <;> rfl

theorem persistEach_reflagged (h : s.Ready) (calls : List (Int × Bool)) :
    s.Reflagged (persistEach calls s) := by
  rw [persistEach_exact h]
  exact ⟨_, fun u => ⟨_, rfl⟩, Store.mapUploads_uploads _ _⟩

theorem persistEach_ready (h : s.Ready) (calls : List (Int × Bool)) : (persistEach calls s).Ready := by
  rw [persistEach_exact h]
  exact h.mapUploads _

theorem Store.cascaded_ready (h : s.Ready) (id : Int) (value : Bool) : (s.cascaded id value).Ready := by
  unfold cascaded
  split
  · exact (h.mapAttempts _).mapUploads _
  · exact h

theorem Store.cascaded_reflagged (s : Store) (id : Int) (value : Bool) :
    s.Reflagged (s.cascaded id value) := by
  unfold cascaded
  split
  · refine ⟨_, fun u => ?_, by rw [mapUploads_uploads, mapAttempts_uploads]⟩
    split
    · exact ⟨value, rfl⟩
    · exact ⟨u.persisted, rfl⟩
  · exact ⟨fun u => u, fun u => ⟨u.persisted, rfl⟩, (List.map_id' _).symm⟩

theorem persistAttempt_cascaded (h : s.Ready) (hn : s.Numbered) (id : Int) (value : Bool) :
    persistAttempt id value s = (.ok (s.attempts.any (·.id == id)), s.cascaded id value) := by
  have hexact := persistAttempt_exact h id value
  have hselected (number : Int) (deleted : Bool) : (number == id && (!deleted || !value)) = true ↔
      number = id ∧ (value = false ∨ deleted = false) := by
    simp [or_comm]
  by_cases hown : ∃ a ∈ s.attempts, a.id = id ∧ (value = false ∨ a.deleted = false)
  · rw [Store.cascaded, if_pos hown]
    obtain ⟨a, ha, hid, hfree⟩ := hown
    rw [if_pos (List.any_eq_true.2 ⟨a, ha, (hselected _ _).2 ⟨hid, hfree⟩⟩)] at hexact
    have hthere : s.attempts.any (·.id == id) = true := List.any_eq_true.2 ⟨a, ha, beq_iff_eq.2 hid⟩
    rw [hexact, hthere]
    simp only [hselected]
    congr 2
    refine Store.mapAttempts_congr fun r hr => ?_
    by_cases hrid : r.id = id
    · rw [List.inj_on_of_nodup_map hn.attempts hr ha (hrid.trans hid.symm), if_pos ⟨hid, hfree⟩,
        if_pos hid]
    · rw [if_neg fun hsel => hrid hsel.1, if_neg hrid]
  · rw [Store.cascaded, if_neg hown]
    have hnone : s.attempts.any (fun a => a.id == id && (!a.deleted || !value)) = false :=
      List.any_eq_false.2 fun a ha hsel => hown ⟨a, ha, (hselected _ _).1 hsel⟩
    rw [if_neg (by rw [hnone]; nofun)] at hexact
    have hidle := persistAttempt_idle h.plain hnone
    rw [h.refused] at hidle
    exact Prod.ext hidle.1 hexact

/-- Protecting an attempt, or letting go of it, tells whether it is there, and it reaches all its
uploads but the deleted ones. Single calls for uploads after that set flags of these uploads alone. -/
theorem protection_cascades (h : s.Ready) (hn : s.Numbered) (id : Int) (value : Bool) :
    persistAttempt id value s = (.ok (s.attempts.any (·.id == id)), s.cascaded id value) ∧
    ∀ calls : List (Int × Bool),
      persistEach calls (s.cascaded id value) = ((s.cascaded id value).mapUploads fun u =>
        { u with persisted := (u.lastFlag calls).getD u.persisted }) ∧
      (∀ (u : UploadRow) value, u.lastFlag calls = some value →
        (u.id, value) ∈ calls ∧ (value = true → u.deleted = false)) ∧
      ∀ id' value', s.LegibleUpload id' →
        (persistUpload id' value' (persistEach calls (s.cascaded id value))).1 =
          .ok (s.uploads.any (·.id == id')) := by
  have hready := Store.cascaded_ready h id value
  refine ⟨persistAttempt_cascaded h hn id value, fun calls => ⟨persistEach_exact hready calls,
    fun _ _ => lastFlag_some, fun id' value' hread => ?_⟩⟩
  have hsame := (s.cascaded_reflagged id value).trans (persistEach_reflagged hready calls)
  rw [persistUpload_answer (persistEach_ready hready calls) (hsame.legible hread), hsame.any]

end Protection

section Halved

def halfGone : Store :=
  Sweep.twoSnapshots.mapUploads fun u => { u with attemptId := 1, deleted := u.id == 1 }

/-- The attempt is protected with the upload that is left, which is then let go of again; the one that
is gone is not protected by a call of its own either. -/
theorem protection_cascades_halved :
    (persistAttempt 1 true halfGone).1 = .ok true ∧
    ((persistAttempt 1 true halfGone).2.attempts.map (·.persisted),
      (persistAttempt 1 true halfGone).2.uploads.map (·.persisted)) =
        ([true, false], [false, true]) ∧
    ((persistEach [(2, false), (1, true)] (persistAttempt 1 true halfGone).2).attempts.map
      (·.persisted), (persistEach [(2, false), (1, true)]
        (persistAttempt 1 true halfGone).2).uploads.map (·.persisted)) =
          ([true, false], [false, false]) ∧
    (persistUpload 1 true (persistEach [(2, false), (1, true)]
      (persistAttempt 1 true halfGone).2)).1 = .ok true := by
  have hready : halfGone.Ready := Sweep.twoSnapshots_ready.mapUploads _
  have hnumbered : halfGone.Numbered := ⟨by decide +kernel, by decide +kernel⟩
  have hrows : ∀ u ∈ halfGone.uploads, u.read.isOk = true := by decide +kernel
  obtain ⟨hfirst, hafter⟩ := protection_cascades hready hnumbered 1 true
  obtain ⟨heach, -, hanswer⟩ := hafter [(2, false), (1, true)]
  have hlast := hanswer 1 true fun u hu _ _ => exists_of_isOk (hrows u hu)
  rw [hfirst]
  refine ⟨by decide +kernel, by decide +kernel, ?_, hlast.trans (by decide +kernel)⟩
  rw [heach]
  decide +kernel

end Halved

end FleetSnapshot.Audit
