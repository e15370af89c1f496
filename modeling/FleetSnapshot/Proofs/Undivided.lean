import FleetSnapshot.Proofs.Removed

/-! Changes to an attempt and its uploads that are made together or not at all. Whichever statement
on the way is refused, the rows are then as they were, and a deletion that would hit a protected
attempt is refused by the store itself. -/

namespace FleetSnapshot.Audit

open Query

/-- The first refusal among those due for this many statements. -/
def Store.refused (s : Store) (statements : Nat) : Option StoreFault :=
  (s.refusals.take statements).findSome? id

theorem Store.refused_succ (s : Store) (statements : Nat) :
    s.refused (statements + 1) = s.refusal?.or (s.begun.refused statements) := by
  unfold refused refusal? begun
  rcases s.refusals with _ | ⟨_ | f, rest⟩ <;> simp

theorem Store.refused_zero (s : Store) : s.refused 0 = none := by
  rw [refused, List.take_zero, List.findSome?_nil]

theorem Store.refused_after_two (s : Store) (statements : Nat) :
    s.refused (statements + 2) = (s.refused 2).or (s.begun.begun.refused statements) := by
  simp only [refused_succ, refused_zero, Option.or_none, Option.or_assoc]

theorem Store.refused_of_le {s : Store} {m n : Nat} (hle : m ≤ n) (h : s.refused n = none) :
    s.refused m = none := by
  rw [refused, List.findSome?_eq_none_iff] at h ⊢
  exact fun f hf => h f ((List.take_prefix_take_left hle).subset hf)

theorem Store.Ready.refused {s : Store} (h : s.Ready) (statements : Nat) :
    s.refused statements = none := by
  rw [Store.refused, h.refusals, List.take_nil, List.findSome?_nil]

namespace Query

variable {α β : Type} {s s' : Store} {e : Error}

theorem bind_of_error {q : Query α} (f : α → Query β) (h : (q s).1 = .error e) :
    ((q >>= f) s).1 = .error e := by
  rw [bind_apply]
  rcases hq : q s with ⟨e' | a, s'⟩ <;> rw [hq] at h <;> cases h
  rfl

theorem bind_of_ok {q : Query α} (f : α → Query β) {a : α} (h : q s = (.ok a, s')) :
    (q >>= f) s = f a s' := by
  rw [bind_apply, h]

def Undone (s : Store) (e : Error) (outcome : Except Error α × Store) : Prop :=
  outcome.1 = .error e ∧ outcome.2.tables = s.tables

section Transaction

variable {body : Query (Ending α)}

theorem transaction_error (h : (transaction body s).1 = .error e) : Undone s e (transaction body s) := by
  refine ⟨h, ?_⟩
  rcases transaction_cases s body with hsame | ⟨a, s', -, hcommit⟩
  · exact hsame
  · rw [hcommit] at h
    cases h

theorem transaction_refused {f : StoreFault} (h : s.refusal? = some f) (body : Query (Ending α)) :
    Undone s (.store f) (transaction body s) := by
  refine transaction_error ?_
  rw [transaction_apply, h]

theorem transaction_failed (h : s.refusal? = none) (hbody : (body s.begun).1 = .error e) :
    Undone s e (transaction body s) := by
  refine transaction_error ?_
  rw [transaction_apply, h]
  rcases hb : body s.begun with ⟨e' | a, s'⟩ <;> rw [hb] at hbody <;> cases hbody
  rfl

theorem transaction_rolled {a : α} (h : s.refusal? = none)
    (hbody : (body s.begun).1 = .ok (.rollback a)) :
    (transaction body s).1 = .ok a ∧ (transaction body s).2.tables = s.tables := by
  rw [transaction_apply, h]
  rcases hb : body s.begun with ⟨e' | a', s'⟩ <;> rw [hb] at hbody <;> cases hbody
  exact ⟨rfl, rfl⟩

theorem transaction_committed {a : α} (h : s.refusal? = none)
    (hbody : body s.begun = (.ok (.commit a), s')) (hcommit : s'.refusal? = none) :
    (transaction body s).1 = .ok a ∧ (transaction body s).2.tables = s'.tables := by
  rw [transaction_apply, h, hbody]
  simp only [hcommit, true_and]
  rfl

theorem transaction_uncommitted {a : α} {f : StoreFault} (h : s.refusal? = none)
    (hbody : body s.begun = (.ok (.commit a), s')) (hcommit : s'.refusal? = some f) :
    Undone s (.store f) (transaction body s) := by
  refine transaction_error ?_
  rw [transaction_apply, h, hbody]
  simp only [hcommit]

end Transaction

end Query

section Cascade

variable {α : Type} {s : Store}

theorem Store.Plain.begun (h : s.Plain) : s.begun.Plain := ⟨h.triggers, h.attemptTable, h.uploadTable⟩

theorem Store.Plain.mapAttempts (h : s.Plain) (f : AttemptRow → AttemptRow) :
    (s.mapAttempts f).Plain :=
  ⟨h.triggers, by simpa [Store.mapAttempts] using h.attemptTable, h.uploadTable⟩

theorem updateAttempts_refused {f : StoreFault} (h : s.Plain) (hrefused : s.refusal? = some f)
    (columns : List String) (selects : AttemptRow → Bool) (change : AttemptRow → AttemptRow) :
    (updateAttempts columns selects change s).1 = .error (.store f) := by
  rw [updateAttempts_plain h, hrefused]

theorem updateUploads_refused {f : StoreFault} (h : s.Plain) (hrefused : s.refusal? = some f)
    (columns : List String) (selects : UploadRow → Bool) (change : UploadRow → UploadRow) :
    (updateUploads columns selects change s).1 = .error (.store f) := by
  rw [updateUploads_plain h, hrefused]

variable (columns : List String) (own : AttemptRow → Bool) (change : AttemptRow → AttemptRow)
  (theirs : UploadRow → Bool) (change' : UploadRow → UploadRow) (look : List AttemptRow → Query (Ending α))
  (a : α)

/-- Attempts are changed, and then their uploads. If there are no attempts to change, those there are
are looked at once more. -/
def cascadeSteps : Query (Ending α) := do
  let n ← updateAttempts columns own change
  if n == 0 then look (← selectAttempts)
  else
    let _ ← updateUploads columns theirs change'
    return .commit a

def cascade : Query α := transaction (cascadeSteps columns own change theirs change' look a)

variable {columns own change theirs change' look a}

/-- A transaction that is not begun, or whose first update is refused. -/
theorem cascade_early {f : StoreFault} (h : s.Plain) (hearly : s.refused 2 = some f) :
    Undone s (.store f) (cascade columns own change theirs change' look a s) := by
  simp only [Store.refused_succ, Store.refused_zero, Option.or_none] at hearly
  cases hfirst : s.refusal? with
  | some f' =>
    obtain rfl : f' = f := by simpa [hfirst] using hearly
    exact transaction_refused hfirst _
  | none =>
    have hsecond : s.begun.refusal? = some f := by simpa [hfirst] using hearly
    exact transaction_failed hfirst (bind_of_error _ (updateAttempts_refused h.begun hsecond ..))

theorem cascade_begun (h : s.Plain) (hearly : s.refused 2 = none) (columns : List String)
    (own : AttemptRow → Bool) (change : AttemptRow → AttemptRow) :
    s.refusal? = none ∧ updateAttempts columns own change s.begun = (.ok (s.attempts.countP own),
      s.begun.begun.mapAttempts fun r => if own r then change r else r) := by
  simp only [Store.refused_succ, Store.refused_zero, Option.or_none, Option.or_eq_none_iff] at hearly
  refine ⟨hearly.1, ?_⟩
  rw [updateAttempts_plain h.begun, hearly.2]
  rfl

/-- The four statements of a cascade all go through, or nothing changes. -/
theorem cascade_taken (h : s.Plain) (hown : s.attempts.any own = true) :
    match s.refused 4 with
    | some f => Undone s (.store f) (cascade columns own change theirs change' look a s)
    | none => (cascade columns own change theirs change' look a s).1 = .ok a ∧
        (cascade columns own change theirs change' look a s).2.tables =
          ((s.mapAttempts fun r => if own r then change r else r).mapUploads
            fun r => if theirs r then change' r else r).tables := by
  have hcount : ¬ (s.attempts.countP own == 0) = true := by
    have hpos := List.countP_pos_iff.2 (List.any_eq_true.1 hown)
    rw [beq_iff_eq]
    omega
  rw [Store.refused_after_two]
  cases hearly : s.refused 2 with
  | some f => exact cascade_early h hearly
  | none =>
    obtain ⟨hfirst, hupdate⟩ := cascade_begun h hearly columns own change
    -- the store after each of the two updates; what is refused depends on the statements alone
    let s₂ := s.begun.begun.mapAttempts fun r => if own r then change r else r
    let s₃ := s₂.begun.mapUploads fun r => if theirs r then change' r else r
    have hplain : s₂.Plain := h.begun.begun.mapAttempts _
    simp only [Option.none_or, Store.refused_succ, Store.refused_zero, Option.or_none]
    cases hthird : s.begun.begun.refusal? with
    | some f =>
      refine transaction_failed hfirst ?_
      rw [cascadeSteps, bind_of_ok _ hupdate, if_neg hcount]
      exact bind_of_error _ (updateUploads_refused hplain hthird ..)
    | none =>
      have hgoes : s₂.refusal? = none := hthird
      have hupdate' : updateUploads columns theirs change' s₂ = (.ok (s₂.uploads.countP theirs), s₃) := by
        rw [updateUploads_plain hplain, hgoes]
      have hcommits : cascadeSteps columns own change theirs change' look a s.begun =
          (.ok (.commit a), s₃) := by
        rw [cascadeSteps, bind_of_ok _ hupdate, if_neg hcount, bind_of_ok _ hupdate']
        rfl
      cases hfourth : s.begun.begun.begun.refusal? with
      | some f => exact transaction_uncommitted hfirst hcommits hfourth
      | none =>
        obtain ⟨hresult, htables⟩ := transaction_committed hfirst hcommits hfourth
        exact ⟨hresult, htables⟩

/-- With no attempt to change, a cascade comes to what the last look says, and nothing changes. -/
theorem cascade_idle (h : s.Plain) (hown : s.attempts.any own = false) {verdict : Except Error α}
    (hlook : ∀ s', (look s.attempts s').1 = verdict.map .rollback) :
    match s.refused 3 with
    | some f => Undone s (.store f) (cascade columns own change theirs change' look a s)
    | none => (cascade columns own change theirs change' look a s).1 = verdict ∧
        (cascade columns own change theirs change' look a s).2.tables = s.tables := by
  have hnone : ∀ r ∈ s.attempts, ¬ own r = true := List.any_eq_false.1 hown
  have hcount : (s.attempts.countP own == 0) = true := beq_iff_eq.2 (List.countP_eq_zero.2 hnone)
  have hsame : (s.begun.begun.mapAttempts fun r => if own r then change r else r) = s.begun.begun :=
    Store.mapAttempts_same fun r hr => if_neg (hnone r hr)
  rw [Store.refused_after_two]
  cases hearly : s.refused 2 with
  | some f => exact cascade_early h hearly
  | none =>
    obtain ⟨hfirst, hupdate⟩ := cascade_begun h hearly columns own change
    rw [hsame] at hupdate
    simp only [Option.none_or, Store.refused_succ, Store.refused_zero, Option.or_none]
    cases hthird : s.begun.begun.refusal? with
    | some f =>
      refine transaction_failed hfirst ?_
      rw [cascadeSteps, bind_of_ok _ hupdate, if_pos hcount]
      refine bind_of_error _ ?_
      rw [selectAttempts, statement_apply, hthird]
    | none =>
      have hbody : (cascadeSteps columns own change theirs change' look a s.begun).1 =
          verdict.map .rollback := by
        rw [cascadeSteps, bind_of_ok _ hupdate, if_pos hcount,
          bind_of_ok _ (selectAttempts_plain h.begun.begun hthird)]
        exact hlook _
      cases verdict with
      | error e => exact transaction_failed hfirst hbody
      | ok a => exact transaction_rolled hfirst hbody

end Cascade

section Operations

variable {s : Store} {id : Int}

theorem markDeleted_eq (id : Int) : markDeleted id =
    cascade ["deleted"] (fun r => r.id == id && !r.persisted) ({ · with deleted := true })
      (fun r => r.attemptId == id && !r.persisted) ({ · with deleted := true })
      (fun rows => match rows.find? (·.id == id) with
        | some r => if r.persisted then throw (.kept s!"attempt {id}") else return .rollback ()
        | none => return .rollback ()) () := rfl

theorem persistAttempt_eq (id : Int) (value : Bool) : persistAttempt id value =
    cascade ["persisted"] (fun r => r.id == id && (!r.deleted || !value))
      ({ · with persisted := value }) (fun r => r.attemptId == id && (!r.deleted || !value))
      ({ · with persisted := value }) (fun rows => return .rollback (rows.any (·.id == id))) true := rfl

/-- An attempt without protection is marked with its unprotected uploads, or nothing is. -/
theorem markDeleted_taken (h : s.Plain) (hn : s.Numbered) {a : AttemptRow} (ha : a ∈ s.attempts)
    (hid : a.id = id) (hfree : a.persisted = false) :
    match s.refused 4 with
    | some f => Undone s (.store f) (markDeleted id s)
    | none => (markDeleted id s).1 = .ok () ∧ (markDeleted id s).2.tables =
        ((s.mapAttempts fun r => if r.id = id then { r with deleted := true } else r).mapUploads
          fun u => if u.attemptId = id ∧ u.persisted = false then { u with deleted := true }
            else u).tables := by
  have hown : s.attempts.any (fun r => r.id == id && !r.persisted) = true :=
    List.any_eq_true.2 ⟨a, ha, by simp [hid, hfree]⟩
  have hattempts : (s.mapAttempts fun r => if r.id == id && !r.persisted then
      { r with deleted := true } else r) =
        s.mapAttempts fun r => if r.id = id then { r with deleted := true } else r := by
    refine Store.mapAttempts_congr fun r hr => ?_
    by_cases hrid : r.id = id
    · rw [List.inj_on_of_nodup_map hn.attempts hr ha (hrid.trans hid.symm)]
      simp [hid, hfree]
    · simp [hrid]
  have huploads : (fun u : UploadRow => if u.attemptId = id ∧ u.persisted = false then
      { u with deleted := true } else u) =
        fun u => if u.attemptId == id && !u.persisted then { u with deleted := true } else u := by
    funext u
    simp
  rw [markDeleted_eq, ← hattempts, huploads]
  exact cascade_taken h hown

/-- An attempt that is protected, or not there, is left as it is. -/
theorem markDeleted_idle (h : s.Plain) (hkept : ∀ a ∈ s.attempts, a.id = id → a.persisted = true) :
    match s.refused 3 with
    | some f => Undone s (.store f) (markDeleted id s)
    | none => (markDeleted id s).1 =
        (if s.attempts.any (·.id == id) then .error (.kept s!"attempt {id}") else .ok ()) ∧
          (markDeleted id s).2.tables = s.tables := by
  have hown : s.attempts.any (fun r => r.id == id && !r.persisted) = false := by
    refine List.any_eq_false.2 fun r hr => ?_
    by_cases hrid : r.id = id
    · simp [hkept r hr hrid]
    · simp [hrid]
  rw [markDeleted_eq, ← List.isSome_find?]
  refine cascade_idle h hown fun s' => ?_
  cases hfind : s.attempts.find? (·.id == id) with
  | none => rfl
  | some r =>
    have hid := List.find?_some hfind
    have hkept' := hkept r (List.mem_of_find?_eq_some hfind) (beq_iff_eq.1 hid)
    simp only [hkept']
    rfl

/-- With no attempt to protect or to let go of, it is only said whether there is one at all. -/
theorem persistAttempt_idle {value : Bool} (h : s.Plain)
    (hnone : s.attempts.any (fun a => a.id == id && (!a.deleted || !value)) = false) :
    match s.refused 3 with
    | some f => Undone s (.store f) (persistAttempt id value s)
    | none => (persistAttempt id value s).1 = .ok (s.attempts.any (·.id == id)) ∧
        (persistAttempt id value s).2.tables = s.tables := by
  rw [persistAttempt_eq]
  exact cascade_idle h hnone fun _ => rfl

theorem markDeleted_kept_iff (h : s.Plain) (hn : s.Numbered) (hgoes : s.refused 4 = none)
    (record : String) : (markDeleted id s).1 = .error (.kept record) ↔
      record = s!"attempt {id}" ∧ ∃ a ∈ s.attempts, a.id = id ∧ a.persisted = true := by
  by_cases hfree : ∃ a ∈ s.attempts, a.id = id ∧ a.persisted = false
  · obtain ⟨a, ha, hid, hfree⟩ := hfree
    have htaken := markDeleted_taken h hn ha hid hfree
    rw [hgoes] at htaken
    refine iff_of_false (by rw [htaken.1]; nofun) fun ⟨_, a', ha', hid', hkept⟩ => ?_
    rw [List.inj_on_of_nodup_map hn.attempts ha' ha (hid'.trans hid.symm), hfree] at hkept
    cases hkept
  · have hkept : ∀ a ∈ s.attempts, a.id = id → a.persisted = true := fun a ha hid => by
      simpa using fun hfalse => hfree ⟨a, ha, hid, hfalse⟩
    have hidle := markDeleted_idle h hkept
    rw [Store.refused_of_le (by decide) hgoes] at hidle
    rw [hidle.1]
    cases hany : s.attempts.any (·.id == id) with
    | true =>
      obtain ⟨a, ha, hid⟩ := List.any_eq_true.1 hany
      have hid := beq_iff_eq.1 hid
      have hthere : ∃ a ∈ s.attempts, a.id = id ∧ a.persisted = true := ⟨a, ha, hid, hkept a ha hid⟩
      constructor
      · intro hwords
        injection hwords with hwords
        injection hwords with hwords
        exact ⟨hwords.symm, hthere⟩
      · rintro ⟨rfl, -⟩
        rfl
    | false =>
      have habsent : ¬ ∃ a ∈ s.attempts, a.id = id ∧ a.persisted = true := fun ⟨a, ha, hid, _⟩ =>
        List.any_eq_false.1 hany a ha (beq_iff_eq.2 hid)
      exact iff_of_false nofun fun hkept => habsent hkept.2

/-- An operation on an attempt and its uploads that fails has changed nothing, whichever of its
statements is refused. Marking is refused by the store itself just for an attempt that is protected,
and it takes any other with all its unprotected uploads. -/
theorem updates_undivided (s : Store) (id : Int) :
    (∀ value e, (persistAttempt id value s).1 = .error e →
      (persistAttempt id value s).2.tables = s.tables) ∧
    (∀ e, (markDeleted id s).1 = .error e → (markDeleted id s).2.tables = s.tables) ∧
    (s.Plain → s.Numbered →
      (s.refused 4 = none → ∀ record, (markDeleted id s).1 = .error (.kept record) ↔
        record = s!"attempt {id}" ∧ ∃ a ∈ s.attempts, a.id = id ∧ a.persisted = true) ∧
      ∀ a ∈ s.attempts, a.id = id → a.persisted = false →
        ((markDeleted id s).1 = .ok () ↔ s.refused 4 = none) ∧
        ((markDeleted id s).1 = .ok () → (markDeleted id s).2.tables =
          ((s.mapAttempts fun r => if r.id = id then { r with deleted := true } else r).mapUploads
            fun u => if u.attemptId = id ∧ u.persisted = false then { u with deleted := true }
              else u).tables)) := by
  refine ⟨fun value e he => (transaction_error he).2, fun e he => (transaction_error he).2,
    fun h hn => ⟨markDeleted_kept_iff h hn, fun a ha hid hfree => ?_⟩⟩
  have htaken := markDeleted_taken h hn ha hid hfree
  cases hgoes : s.refused 4 with
  | none =>
    rw [hgoes] at htaken
    exact ⟨iff_of_true htaken.1 rfl, fun _ => htaken.2⟩
  | some f =>
    rw [hgoes] at htaken
    have hfails : ¬ (markDeleted id s).1 = .ok () := by rw [htaken.1]; nofun
    exact ⟨iff_of_false hfails nofun, fun hok => absurd hok hfails⟩

end Operations

section Shaken

/-- The third statement from now on fails: the update of the uploads, if there is one. -/
def shaken : Store :=
  { Sweep.twoSnapshots with refusals := [none, none, some (.engine 10 "disk I/O error")] }

def guarded : Store :=
  Sweep.twoSnapshots.mapAttempts fun a => { a with persisted := a.id == 1 }

/-- Updates that fail half-way, and an attempt that is marked beside one that is protected. -/
theorem updates_undivided_shaken :
    (persistAttempt 1 true shaken).2.tables = shaken.tables ∧
    (markDeleted 1 shaken).2.tables = shaken.tables ∧
    (markDeleted 1 guarded).1 = .error (.kept "attempt 1") ∧
    (markDeleted 1 guarded).2.tables = guarded.tables ∧
    (markDeleted 2 guarded).1 = .ok () ∧
    (markDeleted 2 guarded).2.tables = ((guarded.mapAttempts fun r =>
      if r.id = 2 then { r with deleted := true } else r).mapUploads fun u =>
        if u.attemptId = 2 ∧ u.persisted = false then { u with deleted := true } else u).tables := by
  have hplain : guarded.Plain := Sweep.twoSnapshots_ready.plain.mapAttempts _
  have hnumbered : guarded.Numbered := ⟨by decide +kernel, by decide +kernel⟩
  obtain ⟨hpersist, hmark, -⟩ := updates_undivided shaken 1
  obtain ⟨-, hsame, hprotected⟩ := updates_undivided guarded 1
  obtain ⟨-, -, hfree⟩ := updates_undivided guarded 2
  have hkept := ((hprotected hplain hnumbered).1 rfl "attempt 1").2 ⟨by decide, by decide +kernel⟩
  obtain ⟨hok, htaken⟩ := (hfree hplain hnumbered).2
    { Sweep.snapshotRow 2 2000 with persisted := false } (by decide +kernel) rfl rfl
  have hdone := hok.2 rfl
  exact ⟨hpersist true (.store (.engine 10 "disk I/O error")) (by decide +kernel),
    hmark (.store (.engine 10 "disk I/O error")) (by decide +kernel), hkept, hsame _ hkept, hdone,
    htaken hdone⟩

end Shaken

end FleetSnapshot.Audit
