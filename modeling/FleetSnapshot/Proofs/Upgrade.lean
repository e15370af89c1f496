import FleetSnapshot.Audit.Schema
import Mathlib.Data.List.Flatten
import Mathlib.Data.List.Nodup

/-! How tables that are found get the columns they lack. A step is taken as a whole or leaves no
trace, steps are taken in order up to the first that fails, and a step that stands in the ledger is
not taken again. What a table holds of its own stays in it as it is. -/

namespace FleetSnapshot.Audit.Schema

/-- The table with columns of these names behind its own, unset in all its rows. -/
def Table.widened (t : Table) (added : List String) : Table where
  columns := t.columns ++ added.map plain
  rows := t.rows.map (· ++ added.map fun _ => .int 0)

def Table.has (t : Table) (name : String) : Bool := t.columns.any (·.name == name)

def has (s : Schema) (table : TableName) (name : String) : Bool := (s.table? table).any (·.has name)

def Ledger.with (l : Ledger) (entries : List (Int × String)) : Ledger :=
  { l with entries := l.entries ++ entries }

def Step.entry (step : Step) : Int × String := (step.id, step.name)

section Tables

variable {s : Schema} {t : Table} {table : TableName} {name : String} {added added' : List String}

theorem Table.widened_nil (t : Table) : t.widened [] = t := by
  simp [widened]

theorem Table.widened_widened (t : Table) (added added' : List String) :
    (t.widened added).widened added' = t.widened (added ++ added') := by
  simp [widened, Function.comp_def]

theorem Table.has_widened : (t.widened added).has name = true ↔ t.has name = true ∨ name ∈ added := by
  simp [has, widened, plain]

theorem table?_setTable (s : Schema) (table table' : TableName) (t : Table) :
    (setTable table t s).table? table' = if table' = table then some t else s.table? table' := by
  cases table <;> cases table' <;> rfl

theorem setTable_ledger (table : TableName) (t : Table) : (setTable table t s).ledger = s.ledger := by
  cases table <;> rfl

end Tables

structure Untouched (s s' : Schema) : Prop where
  table? : ∀ table, s'.table? table = s.table? table
  ledger : s'.ledger = s.ledger

theorem Untouched.refl (s : Schema) : Untouched s s := ⟨fun _ => rfl, rfl⟩

theorem has_untouched {s s' : Schema} (h : Untouched s s') (table : TableName) (name : String) :
    s'.has table name = s.has table name := by
  rw [has, h.table?, has]

theorem untouched_restore (s s' : Schema) : Untouched s (restore s s') :=
  ⟨fun table => by cases table <;> rfl, rfl⟩

/-- From the one schema to the other the tables have got those of these columns that they did not have,
the ledger has got these entries, and nothing else has changed. -/
structure Brings (flags : List (TableName × String)) (entries : List (Int × String))
    (s s' : Schema) : Prop where
  there : ∀ flag ∈ flags, (s.table? flag.1).isSome = true
  tables : ∀ table, ∃ added : List String, added.Nodup ∧
    (∀ name, name ∈ added ↔ (table, name) ∈ flags ∧ s.has table name = false) ∧
      s'.table? table = (s.table? table).map (·.widened added)
  ledger : s'.ledger = s.ledger.map (·.with entries)

namespace Brings

variable {flags flags' : List (TableName × String)} {entries entries' : List (Int × String)}
  {s s' s'' : Schema}

theorem of_untouched (h : Untouched s s') : Brings [] [] s s' := by
  refine ⟨nofun, fun table => ⟨[], List.nodup_nil, by simp, ?_⟩, ?_⟩
  · rw [h.table?]
    cases s.table? table with
    | none => rfl
    | some t => rw [Option.map_some, Table.widened_nil]
  · rw [h.ledger]
    cases s.ledger <;> simp [Ledger.with]

/-- A column is there afterwards if it was before or has been brought. -/
theorem has_iff (h : Brings flags entries s s') (table : TableName) (name : String) :
    s'.has table name = true ↔ s.has table name = true ∨ (table, name) ∈ flags := by
  obtain ⟨added, -, hadded, htable⟩ := h.tables table
  have hthere := h.there (table, name)
  unfold has at *
  rw [htable]
  cases ht : s.table? table with
  | none =>
    rw [ht] at hthere
    simp only [Option.map_none, Option.any_none, Bool.false_eq_true, false_or, false_iff]
    intro hmem
    exact absurd (hthere hmem) Bool.false_ne_true
  | some t =>
    rw [ht] at hadded
    simp only [Option.any_some] at hadded
    rw [Option.map_some, Option.any_some, Option.any_some, Table.has_widened, hadded]
    cases t.has name <;> simp

theorem trans (h : Brings flags entries s s') (h' : Brings flags' entries' s' s'') :
    Brings (flags ++ flags') (entries ++ entries') s s'' := by
  refine ⟨fun flag hflag => ?_, fun table => ?_, ?_⟩
  · rcases List.mem_append.1 hflag with hflag | hflag
    · exact h.there flag hflag
    · have hthere := h'.there flag hflag
      obtain ⟨added, -, -, htable⟩ := h.tables flag.1
      rwa [htable, Option.isSome_map] at hthere
  · obtain ⟨added, hnodup, hadded, htable⟩ := h.tables table
    obtain ⟨added', hnodup', hadded', htable'⟩ := h'.tables table
    have hnew : ∀ name ∈ added', s.has table name = false ∧ (table, name) ∉ flags := by
      intro name hname
      have hlacks := ((hadded' name).1 hname).2
      rw [← Bool.not_eq_true, h.has_iff] at hlacks
      simpa using hlacks
    refine ⟨added ++ added', ?_, fun name => ?_, ?_⟩
    · refine List.nodup_append.2 ⟨hnodup, hnodup', fun name hname name' hname' heq => ?_⟩
      subst heq
      exact (hnew name hname').2 ((hadded name).1 hname).1
    · rw [List.mem_append, List.mem_append, hadded]
      constructor
      · rintro (⟨hflag, hlacks⟩ | hname)
        · exact ⟨Or.inl hflag, hlacks⟩
        · exact ⟨Or.inr ((hadded' name).1 hname).1, (hnew name hname).1⟩
      · rintro ⟨hflag, hlacks⟩
        by_cases hbrought : (table, name) ∈ flags
        · exact Or.inl ⟨hbrought, hlacks⟩
        · refine Or.inr ((hadded' name).2 ⟨hflag.resolve_left hbrought, ?_⟩)
          rw [← Bool.not_eq_true, h.has_iff]
          simp [hlacks, hbrought]
    · rw [htable', htable, Option.map_map]
      congr 1
      funext t
      exact t.widened_widened added added'
  · rw [h'.ledger, h.ledger, Option.map_map]
    congr 1
    funext l
    simp [Ledger.with]

end Brings

/-! ### Running -/

section Running

variable {ε α β : Type} (s : Schema)

theorem bind_apply (q : ExceptT ε (StateM Schema) α) (f : α → ExceptT ε (StateM Schema) β) :
    (q >>= f) s = match q s with
      | (.ok a, s') => f a s'
      | (.error e, s') => (.error e, s') := by
  change (ExceptT.bindCont f (q s).1 : StateM Schema _) (q s).2 = _
  rcases q s with ⟨_ | _, s'⟩ <;> rfl

theorem pure_apply (a : α) : (pure a : ExceptT ε (StateM Schema) α) s = (.ok a, s) := rfl

theorem get_apply : (get : ExceptT ε (StateM Schema) Schema) s = (.ok s, s) := rfl

theorem modify_apply (f : Schema → Schema) :
    (modify f : ExceptT ε (StateM Schema) PUnit) s = (.ok ⟨⟩, f s) := rfl

theorem throw_apply (e : ε) : (throw e : ExceptT ε (StateM Schema) α) s = (.error e, s) := rfl

theorem tryCatch_apply (q : ExceptT ε (StateM Schema) α) (h : ε → ExceptT ε (StateM Schema) α) :
    (tryCatch q h) s = match q s with
      | (.ok a, s') => (.ok a, s')
      | (.error e, s') => h e s' := by
  simp only [tryCatch, tryCatchThe, MonadExceptOf.tryCatch, ExceptT.tryCatch, ExceptT.mk, bind,
    StateT.bind]
  rcases q s with ⟨_ | _, s'⟩ <;> rfl

def refusal? : Option StoreFault := s.refusals.head?.join

def begun : Schema := { s with refusals := s.refusals.tail }

theorem begun_of_nil {s : Schema} (h : s.refusals = []) : s.begun = s := by
  cases s
  simp only at h
  subst h
  rfl

theorem untouched_begun : Untouched s s.begun := ⟨fun table => by cases table <;> rfl, rfl⟩

theorem statement_apply (body : Change α) :
    statement body s = match s.refusal? with
      | some f => (.error f, s.begun)
      | none => body s.begun := by
  simp only [statement, due?, bind_apply, get_apply]
  rcases h : s.refusals with _ | ⟨_ | f, rest⟩
  · simp [refusal?, begun_of_nil h, h, pure_apply]
  · simp [refusal?, begun, h, bind_apply, modify_apply, pure_apply]
  · simp [refusal?, begun, h, bind_apply, modify_apply, pure_apply, throw_apply]

end Running

/-! ### Steps -/

/-- The fault is with no column in particular, or with one that this step adds. -/
def Step.Blamed (step : Step) : Fault → Prop
  | .refused _ => True
  | .step name table column _ =>
    name = step.name ∧ ∃ t : TableName, t.text = table ∧ (t, column) ∈ step.flags

/-- How part of a step ends: it has brought these columns and entries, or it has failed. -/
inductive Step.Ends (step : Step) (flags : List (TableName × String))
    (entries : List (Int × String)) (s : Schema) : Except Fault Unit × Schema → Prop where
  | done {s' : Schema} (h : Brings flags entries s s') : Ends step flags entries s (.ok (), s')
  | failed {f : Fault} {s' : Schema} (h : step.Blamed f) : Ends step flags entries s (.error f, s')

section Steps

variable {step : Step} {flags flags' : List (TableName × String)}
  {entries entries' : List (Int × String)} {s s' : Schema} {table : TableName} {name : String}

theorem hasColumn_apply (table : TableName) (name : String) (s : Schema) :
    hasColumn table name s = match s.refusal? with
      | some f => (.error f, s.begun)
      | none => (.ok (s.has table name), s.begun) := by
  rw [hasColumn, statement_apply]
  cases s.refusal? with
  | some f => rfl
  | none => cases table <;> rfl

/-- A column is added behind the others, unless another one has its name but for the case. -/
theorem addColumn_cases (table : TableName) (name : String) (s : Schema) :
    (∃ f s', addColumn table name s = (.error f, s')) ∨
      ∃ t, s.table? table = some t ∧
        addColumn table name s = (.ok (), setTable table (t.widened [name]) s.begun) := by
  rw [addColumn, statement_apply]
  cases s.refusal? with
  | some f => exact Or.inl ⟨f, _, rfl⟩
  | none =>
    simp only [bind_apply, get_apply, (untouched_begun s).table?]
    cases ht : s.table? table with
    | none => exact Or.inl ⟨_, _, rfl⟩
    | some t =>
      dsimp only
      split
      · exact Or.inl ⟨_, _, rfl⟩
      · exact Or.inr ⟨t, rfl, rfl⟩

theorem brings_column {t : Table} (ht : s.table? table = some t) (hlacks : s.has table name = false) :
    Brings [(table, name)] [] s (setTable table (t.widened [name]) s) := by
  refine ⟨by simp [ht], fun table' => ?_, ?_⟩
  · rw [table?_setTable]
    by_cases htable : table' = table
    · subst htable
      refine ⟨[name], List.nodup_singleton name, fun name' => ?_, by simp [ht]⟩
      rw [List.mem_singleton, List.mem_singleton, Prod.mk.injEq]
      constructor
      · rintro rfl
        exact ⟨⟨rfl, rfl⟩, hlacks⟩
      · exact fun h => h.1.2
    · refine ⟨[], List.nodup_nil, fun name' => by simp [htable], ?_⟩
      rw [if_neg htable]
      cases s.table? table' <;> simp [Table.widened_nil]
  · rw [setTable_ledger]
    cases s.ledger <;> simp [Ledger.with]

theorem brings_present (ht : s.has table name = true) : Brings [(table, name)] [] s s := by
  have hthere : (s.table? table).isSome = true := by
    unfold has at ht
    cases h : s.table? table with
    | none => simp [h] at ht
    | some t => rfl
  refine ⟨by simpa using hthere, fun table' => ⟨[], List.nodup_nil, fun name' => ?_, ?_⟩, ?_⟩
  · simp only [List.not_mem_nil, false_iff, List.mem_singleton, Prod.mk.injEq]
    rintro ⟨⟨rfl, rfl⟩, hlacks⟩
    rw [ht] at hlacks
    cases hlacks
  · cases s.table? table' <;> simp [Table.widened_nil]
  · cases s.ledger <;> simp [Ledger.with]

theorem Brings.begun (h : Brings flags entries s.begun s') : Brings flags entries s s' :=
  (of_untouched (untouched_begun s)).trans h

theorem addFlag_ends (hflag : (table, name) ∈ step.flags) (s : Schema) :
    step.Ends [(table, name)] [] s (addFlag step table name s) := by
  simp only [addFlag, bind_apply, lift, hasColumn_apply]
  cases s.refusal? with
  | some f => exact .failed trivial
  | none =>
    dsimp only
    cases hhas : s.has table name with
    | true => exact .done (brings_present (s := s.begun) hhas).begun
    | false =>
      rcases addColumn_cases table name s.begun with ⟨f, s', hadd⟩ | ⟨t, ht, hadd⟩
      · simp only [hadd, Bool.false_eq_true, if_false]
        exact .failed ⟨rfl, table, rfl, hflag⟩
      · simp only [hadd, Bool.false_eq_true, if_false]
        exact .done (brings_column (s := s.begun.begun) ht hhas).begun.begun

theorem Step.Ends.bind {q r : Upgrade Unit} (hq : step.Ends flags entries s (q s))
    (hr : ∀ s', step.Ends flags' entries' s' (r s')) :
    step.Ends (flags ++ flags') (entries ++ entries') s ((q >>= fun _ => r) s) := by
  rw [bind_apply]
  cases hq' : q s with
  | mk outcome s' =>
    rw [hq'] at hq
    cases hq with
    | failed hblamed => exact .failed hblamed
    | done h =>
      have hrest := hr s'
      cases hr' : r s' with
      | mk outcome' s'' =>
        rw [hr'] at hrest
        dsimp only
        rw [hr']
        cases hrest with
        | failed hblamed => exact .failed hblamed
        | done h' => exact .done (h.trans h')

theorem addFlags_ends (hflags : flags ⊆ step.flags) (s : Schema) :
    step.Ends flags [] s (flags.forM (fun flag => addFlag step flag.1 flag.2) s) := by
  induction flags generalizing s with
  | nil => exact .done (.of_untouched (.refl s))
  | cons flag flags ih =>
    rw [List.cons_subset] at hflags
    exact (addFlag_ends hflags.1 s).bind fun s' => ih hflags.2 s'

theorem lift_ends {c : Change Unit} (h : ∀ s', c s = (.ok (), s') → Brings flags entries s s') :
    step.Ends flags entries s (lift c s) := by
  rw [lift]
  cases hc : c s with
  | mk outcome s' =>
    cases outcome with
    | error f => exact .failed trivial
    | ok => exact .done (h s' hc)

/-- A statement without a body, which may be refused like any other. -/
theorem empty_brings {s' : Schema} (h : statement (pure ()) s = (.ok (), s')) : Brings [] [] s s' := by
  rw [statement_apply] at h
  cases hr : s.refusal? with
  | some f => rw [hr] at h; cases h
  | none =>
    rw [hr] at h
    cases h
    exact .of_untouched (untouched_begun s)

theorem record_brings {entry : Int × String} {s' : Schema}
    (h : record entry.1 entry.2 s = (.ok (), s')) : Brings [] [entry] s s' := by
  rw [record, statement_apply] at h
  cases hr : s.refusal? with
  | some f => rw [hr] at h; cases h
  | none =>
    rw [hr] at h
    simp only [bind_apply, get_apply] at h
    cases hl : s.ledger with
    | none =>
      rw [show s.begun.ledger = none from hl] at h
      cases h
    | some l =>
      rw [show s.begun.ledger = some l from hl] at h
      cases hl' : l.refusal? entry.1 entry.2 with
      | some f =>
        simp only [hl'] at h
        cases h
      | none =>
        simp only [hl'] at h
        cases h
        refine ⟨nofun, fun table => ⟨[], List.nodup_nil, by simp, ?_⟩, by rw [hl]; rfl⟩
        cases table with
        | attempts => cases ht : s.attempts <;> simp [table?, begun, ht, Table.widened_nil]
        | uploads => cases ht : s.uploads <;> simp [table?, begun, ht, Table.widened_nil]

theorem empty_ends (s : Schema) : step.Ends [] [] s (lift (statement (pure ())) s) :=
  lift_ends fun _ => empty_brings

def Step.body (step : Step) : Upgrade Unit := do
  step.flags.forM fun flag => addFlag step flag.1 flag.2
  lift (record step.id step.name)
  lift (statement (pure ()))

theorem Step.take_apply (step : Step) (s : Schema) :
    step.take s = match s.refusal? with
      | some f => (.error (.refused f), s.begun)
      | none => match step.body s.begun with
        | (.ok (), s') => (.ok (), s')
        | (.error f, s') => (.error f, restore s.begun s') := by
  simp only [take, bind_apply, lift, statement_apply]
  cases s.refusal? with
  | some f => rfl
  | none =>
    simp only [pure_apply, get_apply, tryCatch_apply]
    rcases hrun : step.body s.begun with ⟨f | a, s'⟩
    · simp only [body] at hrun
      simp only [hrun, bind_apply, modify_apply, throw_apply]
    · simp only [body] at hrun
      simp only [hrun]

theorem Step.body_ends (step : Step) (s : Schema) :
    step.Ends step.flags [step.entry] s (step.body s) := by
  have hentry {s s' : Schema} (h : record step.id step.name s = (.ok (), s')) :
      Brings [] [step.entry] s s' := record_brings h
  have hrecord (s : Schema) : step.Ends ([] ++ []) ([step.entry] ++ []) s
      ((lift (record step.id step.name) >>= fun _ => lift (statement (pure ()))) s) :=
    (lift_ends fun _ h => hentry h).bind empty_ends
  have hall := (addFlags_ends (List.Subset.refl step.flags) s).bind hrecord
  rw [List.append_nil [], List.append_nil] at hall
  exact hall

/-- A step is taken as a whole, or the tables and the ledger are as they were. -/
theorem Step.take_cases (step : Step) (s : Schema) :
    (∃ s', step.take s = (.ok (), s') ∧ Brings step.flags [step.entry] s s') ∨
      ∃ f s', step.take s = (.error f, s') ∧ step.Blamed f ∧ Untouched s s' := by
  rw [step.take_apply]
  cases s.refusal? with
  | some f => exact Or.inr ⟨_, _, rfl, trivial, untouched_begun s⟩
  | none =>
    have hbody := step.body_ends s.begun
    cases hrun : step.body s.begun with
    | mk outcome s' =>
      rw [hrun] at hbody
      cases hbody with
      | done h => exact Or.inl ⟨s', rfl, h.begun⟩
      | failed h => exact Or.inr ⟨_, _, rfl, h, untouched_restore s s'⟩

theorem Step.take_brings (h : step.take s = (.ok (), s')) : Brings step.flags [step.entry] s s' := by
  rcases step.take_cases s with ⟨s₁, htake, hbrings⟩ | ⟨f, s₁, htake, -⟩
  · rw [h] at htake
    cases htake
    exact hbrings
  · rw [h] at htake
    cases htake

theorem Step.take_fails {f : Fault} (h : step.take s = (.error f, s')) :
    step.Blamed f ∧ Untouched s s' := by
  rcases step.take_cases s with ⟨s₁, htake, -⟩ | ⟨f', s₁, htake, hfails⟩
  · rw [h] at htake
    cases htake
  · rw [h] at htake
    cases htake
    exact hfails

theorem takeAll_cons (first : Step) (todo : List Step) (s : Schema) :
    (first :: todo).forM Step.take s = match first.take s with
      | (.ok (), s') => todo.forM Step.take s'
      | (.error f, s') => (.error f, s') := by
  have hrun : (first :: todo).forM Step.take s =
      (first.take >>= fun _ => todo.forM Step.take : Upgrade Unit) s := rfl
  rw [hrun, bind_apply]
  rcases first.take s with ⟨_ | _, s'⟩ <;> rfl

theorem takeAll_brings {todo : List Step} (h : todo.forM Step.take s = (.ok (), s')) :
    Brings (todo.flatMap (·.flags)) (todo.map (·.entry)) s s' := by
  induction todo generalizing s with
  | nil =>
    cases h
    exact .of_untouched (.refl _)
  | cons first todo ih =>
    rw [takeAll_cons] at h
    rcases htake : first.take s with ⟨f | _, s₁⟩
    · rw [htake] at h
      cases h
    · rw [htake] at h
      exact (first.take_brings htake).trans (ih h)

/-- Steps are taken in order, up to the first that fails. -/
theorem takeAll_fails {todo : List Step} {f : Fault} (h : todo.forM Step.take s = (.error f, s')) :
    ∃ done step rest s₁, todo = done ++ step :: rest ∧ done.forM Step.take s = (.ok (), s₁) ∧
      step.take s₁ = (.error f, s') := by
  induction todo generalizing s with
  | nil => cases h
  | cons first todo ih =>
    rw [takeAll_cons] at h
    rcases htake : first.take s with ⟨f' | _, s₁⟩
    · rw [htake] at h
      cases h
      exact ⟨[], first, todo, s, rfl, rfl, htake⟩
    · rw [htake] at h
      obtain ⟨done, step, rest, s₂, rfl, hdone, hfails⟩ := ih h
      refine ⟨first :: done, step, rest, s₂, rfl, ?_, hfails⟩
      rw [takeAll_cons, htake]
      exact hdone

end Steps

/-! ### Steps that nothing stands in the way of -/

/-- The table is there and takes the column: it has none whose name differs in case only. -/
def Admits (s : Schema) (flag : TableName × String) : Prop :=
  ∃ t, s.table? flag.1 = some t ∧ ∀ c ∈ t.columns, names flag.2 c = true → c.name = flag.2

def Accepts (s : Schema) (entry : Int × String) : Prop :=
  ∃ l, s.ledger = some l ∧ l.refusal? entry.1 entry.2 = none

/-- It is done, and there are still no refusals to come. -/
def Goes (q : Upgrade Unit) (s : Schema) : Prop := ∃ s', q s = (.ok (), s') ∧ s'.refusals = []

section Goes

variable {step : Step} {flags : List (TableName × String)} {entries : List (Int × String)}
  {s s' : Schema} {flag : TableName × String} {entry : Int × String}

/-- Names that tell columns apart in any case. -/
def Distinct (flags : List (TableName × String)) : Prop :=
  ∀ f ∈ flags, ∀ g ∈ flags, names f.2 (plain g.2) = true → g.2 = f.2

theorem Admits.brings (h : s.Admits flag) (hbrings : Brings flags entries s s')
    (hapart : ∀ g ∈ flags, names flag.2 (plain g.2) = true → g.2 = flag.2) : s'.Admits flag := by
  obtain ⟨t, ht, hcolumns⟩ := h
  obtain ⟨added, -, hadded, htable⟩ := hbrings.tables flag.1
  refine ⟨t.widened added, by rw [htable, ht]; rfl, fun c hc hnames => ?_⟩
  rcases List.mem_append.1 hc with hc | hc
  · exact hcolumns c hc hnames
  · obtain ⟨name, hname, rfl⟩ := List.mem_map.1 hc
    exact hapart _ ((hadded name).1 hname).1 hnames

theorem Accepts.brings (h : s.Accepts entry) (hbrings : Brings flags entries s s')
    (hapart : ∀ e ∈ entries, e.1 ≠ entry.1 ∧ e.2 ≠ entry.2) : s'.Accepts entry := by
  obtain ⟨l, hl, hrefusal⟩ := h
  have hid : entries.any (·.1 == entry.1) = false := by
    simpa using fun id name hmem => (hapart (id, name) hmem).1
  have hname : entries.any (·.2 == entry.2) = false := by
    simpa using fun id name hmem => (hapart (id, name) hmem).2
  refine ⟨l.with entries, by rw [hbrings.ledger, hl]; rfl, ?_⟩
  rw [← hrefusal]
  simp only [Ledger.refusal?, Ledger.with, List.any_append, hid, hname, Bool.or_false]

theorem refusal_of_nil (h : s.refusals = []) : s.refusal? = none := by rw [refusal?, h]; rfl

theorem Goes.bind {q r : Upgrade Unit} (hq : Goes q s)
    (hr : ∀ s', q s = (.ok (), s') → s'.refusals = [] → Goes r s') : Goes (q >>= fun _ => r) s := by
  obtain ⟨s', hrun, hrefusals⟩ := hq
  obtain ⟨s'', hrest, hrefusals'⟩ := hr s' hrun hrefusals
  refine ⟨s'', ?_, hrefusals'⟩
  rw [bind_apply, hrun]
  exact hrest

theorem addFlag_goes (h : s.refusals = []) (hadmits : s.Admits flag) :
    Goes (addFlag step flag.1 flag.2) s := by
  obtain ⟨t, ht, hcolumns⟩ := hadmits
  simp only [Goes, addFlag, bind_apply, lift, hasColumn_apply, refusal_of_nil h, begun_of_nil h]
  cases hhas : s.has flag.1 flag.2 with
  | true => exact ⟨s, rfl, h⟩
  | false =>
    have hnone : t.columns.any (names flag.2) = false := by
      rw [has, ht, Option.any_some, Table.has, List.any_eq_false] at hhas
      refine List.any_eq_false.2 fun c hc hnames => hhas c hc ?_
      rw [hcolumns c hc hnames, beq_self_eq_true]
    have hadd : addColumn flag.1 flag.2 s =
        (.ok (), setTable flag.1 (t.addFlag flag.2) s) := by
      simp only [addColumn, statement_apply, refusal_of_nil h, begun_of_nil h, bind_apply, get_apply,
        ht, hnone, modify_apply, Bool.false_eq_true, if_false]
    simp only [hadd, Bool.false_eq_true, if_false]
    refine ⟨_, rfl, ?_⟩
    rw [← h]
    cases flag.1 <;> rfl

theorem Step.Ends.brings {run : Except Fault Unit × Schema} (h : step.Ends flags entries s run)
    (hrun : run = (.ok (), s')) : Brings flags entries s s' := by
  subst hrun
  cases h with
  | done h => exact h

theorem addFlags_goes (h : s.refusals = []) (hflags : flags ⊆ step.flags) (hdistinct : Distinct flags)
    (hadmits : ∀ flag ∈ flags, s.Admits flag) :
    Goes (flags.forM fun flag => addFlag step flag.1 flag.2) s := by
  induction flags generalizing s with
  | nil => exact ⟨s, rfl, h⟩
  | cons flag flags ih =>
    rw [List.cons_subset] at hflags
    rw [List.forall_mem_cons] at hadmits
    refine (addFlag_goes h hadmits.1).bind fun s' hrun hrefusals => ?_
    have hbrings := (addFlag_ends hflags.1 s).brings hrun
    refine ih hrefusals hflags.2 ?_ fun g hg => ?_
    · exact fun f hf g hg => hdistinct f (List.mem_cons_of_mem _ hf) g (List.mem_cons_of_mem _ hg)
    · refine (hadmits.2 g hg).brings hbrings fun f hf => ?_
      rw [List.mem_singleton.1 hf]
      exact hdistinct g (List.mem_cons_of_mem _ hg) flag List.mem_cons_self

theorem record_goes (h : s.refusals = []) (haccepts : s.Accepts entry) :
    Goes (lift (record entry.1 entry.2)) s := by
  obtain ⟨l, hl, hrefusal⟩ := haccepts
  refine ⟨{ s with ledger := some (l.with [entry]) }, ?_, h⟩
  simp only [lift, record, statement_apply, refusal_of_nil h, begun_of_nil h, bind_apply, get_apply,
    hl, hrefusal, modify_apply]
  rfl

theorem empty_goes (h : s.refusals = []) : Goes (lift (statement (pure ()))) s := by
  refine ⟨s, ?_, h⟩
  simp only [lift, statement_apply, refusal_of_nil h, begun_of_nil h, pure_apply]

theorem take_goes (h : s.refusals = []) (hdistinct : Distinct step.flags)
    (hadmits : ∀ flag ∈ step.flags, s.Admits flag) (haccepts : s.Accepts step.entry) :
    Goes step.take s := by
  have hbody : Goes step.body s := by
    refine (addFlags_goes h (List.Subset.refl _) hdistinct hadmits).bind fun s₁ hrun h₁ => ?_
    have hbrings := (addFlags_ends (List.Subset.refl _) s).brings hrun
    refine (record_goes h₁ (haccepts.brings hbrings nofun)).bind fun s₂ _ h₂ => ?_
    exact empty_goes h₂
  obtain ⟨s', hrun, hrefusals⟩ := hbody
  refine ⟨s', ?_, hrefusals⟩
  simp only [step.take_apply, refusal_of_nil h, begun_of_nil h, hrun]

theorem takeAll_goes {todo : List Step} (h : s.refusals = [])
    (hdistinct : Distinct (todo.flatMap (·.flags)))
    (hapart : (todo.map (·.entry)).Pairwise fun e e' => e.1 ≠ e'.1 ∧ e.2 ≠ e'.2)
    (hadmits : ∀ flag ∈ todo.flatMap (·.flags), s.Admits flag)
    (haccepts : ∀ step ∈ todo, s.Accepts step.entry) : Goes (todo.forM Step.take) s := by
  induction todo generalizing s with
  | nil => exact ⟨s, rfl, h⟩
  | cons step todo ih =>
    rw [List.flatMap_cons] at hdistinct hadmits
    rw [List.map_cons, List.pairwise_cons] at hapart
    rw [List.forall_mem_cons] at haccepts
    have hfirst : Goes step.take s := by
      refine take_goes h (fun f hf g hg => ?_) (fun f hf => ?_) haccepts.1
      · exact hdistinct f (List.mem_append_left _ hf) g (List.mem_append_left _ hg)
      · exact hadmits f (List.mem_append_left _ hf)
    refine hfirst.bind fun s' hrun hrefusals => ?_
    have hbrings := step.take_brings hrun
    refine ih hrefusals (fun f hf g hg => ?_) hapart.2 (fun f hf => ?_) fun step' hstep' => ?_
    · exact hdistinct f (List.mem_append_right _ hf) g (List.mem_append_right _ hg)
    · refine (hadmits f (List.mem_append_right _ hf)).brings hbrings fun g hg => ?_
      exact hdistinct f (List.mem_append_right _ hf) g (List.mem_append_left _ hg)
    · refine (haccepts.2 step' hstep').brings hbrings fun e he => ?_
      rw [List.mem_singleton.1 he]
      exact hapart.1 _ (List.mem_map_of_mem hstep')

end Goes

/-! ### A whole upgrade -/

/-- The schema with a ledger: the one that is there, or a new one. -/
def opened (s : Schema) : Schema :=
  { s with ledger := some (s.ledger.getD { columns := ledgerColumns }) }

def numbers (s : Schema) : List Int := (s.ledger.map fun l => l.entries.map (·.1)).getD []

def pending (s : Schema) : List Step := steps.filter fun step => step.id ∉ s.numbers

def numbered (s : Schema) : Bool := s.ledger.any fun l => l.columns.any (names "id")

/-- Nothing is refused, the columns to come differ from those there in more than case, and the ledger
can be read and takes what is to be entered in it. -/
structure Clear (s : Schema) : Prop where
  refusals : s.refusals = []
  numbered : s.opened.numbered = true
  admits : ∀ step ∈ s.pending, ∀ flag ∈ step.flags, s.Admits flag
  accepts : ∀ step ∈ s.pending, s.opened.Accepts step.entry

section Upgrade

variable {s s' : Schema}

theorem opened_of_some {l : Ledger} (h : s.ledger = some l) : s.opened = s := by
  cases s
  simp only at h
  subst h
  rfl

theorem opened_table? (s : Schema) (table : TableName) : s.opened.table? table = s.table? table := by
  cases table <;> rfl

theorem opened_numbers (s : Schema) : s.opened.numbers = s.numbers := by
  unfold numbers opened
  cases s.ledger <;> rfl

theorem createLedger_apply (s : Schema) : createLedger s = match s.refusal? with
    | some f => (.error f, s.begun)
    | none => (.ok (), s.opened.begun) := by
  rw [createLedger, statement_apply]
  cases s.refusal? with
  | some f => rfl
  | none =>
    simp only [bind_apply, get_apply]
    cases hl : s.ledger with
    | none => simp only [begun, hl, modify_apply, opened, Option.getD_none]
    | some l => rw [opened_of_some hl, show s.begun.ledger = some l from hl]; rfl

theorem applied_apply {l : Ledger} (hl : s.ledger = some l) : applied s = match s.refusal? with
    | some f => (.error f, s.begun)
    | none =>
      if s.numbered then (.ok (Order.sort (fun a b => decide (a ≤ b)) s.numbers), s.begun)
      else (.error (.engine 1 "no such column: id"), s.begun) := by
  rw [applied, statement_apply]
  cases s.refusal? with
  | some f => rfl
  | none =>
    simp only [bind_apply, get_apply, show s.begun.ledger = some l from hl, numbered, numbers, hl,
      Option.any_some, Option.map_some, Option.getD_some]
    split <;> rfl

theorem createLedger_fails {f : StoreFault} (h : createLedger s = (.error f, s')) :
    Untouched s s' ∧ s.refusals ≠ [] := by
  rw [createLedger_apply] at h
  cases hr : s.refusal? with
  | none => rw [hr] at h; cases h
  | some f =>
    rw [hr] at h
    cases h
    refine ⟨untouched_begun s, fun hnil => ?_⟩
    rw [refusal_of_nil hnil] at hr
    cases hr

theorem createLedger_opens (h : createLedger s = (.ok (), s')) : s' = s.opened.begun := by
  rw [createLedger_apply] at h
  cases hr : s.refusal? with
  | some f => rw [hr] at h; cases h
  | none =>
    rw [hr] at h
    cases h
    rfl

theorem begun_opened (h : s.refusals = []) : s.opened.begun = s.opened :=
  begun_of_nil h

theorem untouched_opened (s : Schema) : Untouched s.opened s.opened.begun.begun :=
  ⟨fun table => by cases table <;> rfl, rfl⟩

theorem applied_fails {f : StoreFault} (h : applied s.opened.begun = (.error f, s')) :
    Untouched s.opened s' ∧ (s.refusals = [] → s.opened.numbered = false) := by
  rw [applied_apply rfl] at h
  cases hr : s.opened.begun.refusal? with
  | some f =>
    rw [hr] at h
    cases h
    refine ⟨untouched_opened s, fun hnil => ?_⟩
    rw [begun_opened hnil, refusal_of_nil (show s.opened.refusals = [] from hnil)] at hr
    cases hr
  | none =>
    rw [hr] at h
    dsimp only at h
    split at h
    · cases h
    · rename_i hnumbered
      cases h
      exact ⟨untouched_opened s, fun _ => Bool.eq_false_iff.2 hnumbered⟩

theorem applied_reads {ids : List Int} (h : applied s.opened.begun = (.ok ids, s')) :
    s' = s.opened.begun.begun ∧ s.opened.numbered = true ∧ ∀ id, id ∈ ids ↔ id ∈ s.numbers := by
  rw [applied_apply rfl] at h
  cases hr : s.opened.begun.refusal? with
  | some f => rw [hr] at h; cases h
  | none =>
    rw [hr] at h
    dsimp only at h
    split at h
    · rename_i hnumbered
      cases h
      refine ⟨rfl, hnumbered, fun id => ?_⟩
      rw [(Order.sort_perm _ _).mem_iff, ← opened_numbers s]
      rfl
    · cases h

/-- The ledger has been made if there was none, and has been read. -/
def Ready (s s' : Schema) : Prop :=
  ∃ ids s₁, createLedger s = (.ok (), s₁) ∧ applied s₁ = (.ok ids, s')

theorem Ready.eq (h : s.Ready s') : s' = s.opened.begun.begun ∧ s.opened.numbered = true := by
  obtain ⟨ids, s₁, hmade, hread⟩ := h
  rw [createLedger_opens hmade] at hread
  exact ⟨(applied_reads hread).1, (applied_reads hread).2.1⟩

theorem Ready.untouched (h : s.Ready s') : Untouched s.opened s' := by
  rw [h.eq.1]
  exact untouched_opened s

/-- What steps bring that are taken once the ledger is ready. -/
theorem Ready.brings {s₁ : Schema} {todo : List Step} (h : s.Ready s₁)
    (hrun : todo.forM Step.take s₁ = (.ok (), s')) :
    Brings (todo.flatMap (·.flags)) (todo.map (·.entry)) s.opened s' :=
  (Brings.of_untouched h.untouched).trans (takeAll_brings hrun)

/-- The ledger is made and read, and then the steps it lacks are taken. -/
theorem upgrade_cases (s : Schema) :
    (∃ f s', createLedger s = (.error f, s') ∧ upgrade s = (.error (.refused f), s')) ∨
      (∃ f s₁ s', createLedger s = (.ok (), s₁) ∧ applied s₁ = (.error f, s') ∧
        upgrade s = (.error (.refused f), s')) ∨
      ∃ s', s.Ready s' ∧ upgrade s = s.pending.forM Step.take s' := by
  simp only [upgrade, bind_apply, lift]
  rcases hmade : createLedger s with ⟨f | _, s₁⟩
  · exact Or.inl ⟨f, s₁, rfl, rfl⟩
  · dsimp only
    rcases hread : applied s₁ with ⟨f | ids, s'⟩
    · exact Or.inr (Or.inl ⟨f, s₁, s', rfl, hread, rfl⟩)
    · refine Or.inr (Or.inr ⟨s', ⟨ids, s₁, hmade, hread⟩, ?_⟩)
      have hids := hread
      rw [createLedger_opens hmade] at hids
      have hpending : (steps.filter fun step => step.id ∉ ids) = s.pending :=
        List.filter_congr fun step _ =>
          decide_eq_decide.2 (not_congr ((applied_reads hids).2.2 step.id))
      dsimp only
      rw [hpending]

theorem numbers_brings {flags : List (TableName × String)} {entries : List (Int × String)}
    (h : Brings flags entries s.opened s') : s'.numbers = s.numbers ++ entries.map (·.1) := by
  have hledger := h.ledger
  rw [show s.opened.ledger = some (s.ledger.getD { columns := ledgerColumns }) from rfl,
    Option.map_some] at hledger
  rw [← opened_numbers s]
  simp [numbers, hledger, opened, Ledger.with]

theorem entry_numbers (todo : List Step) : (todo.map (·.entry)).map (·.1) = todo.map (·.id) := by
  rw [List.map_map]
  rfl

/-- Once it is taken, a step stands in the ledger once, or as often as before. -/
theorem count_numbers {flags : List (TableName × String)}
    (h : Brings flags (s.pending.map (·.entry)) s.opened s') {step : Step} (hstep : step ∈ steps) :
    s'.numbers.count step.id = max 1 (s.numbers.count step.id) := by
  rw [numbers_brings h, List.count_append, entry_numbers]
  have hids : (steps.map (·.id)).Nodup := by decide
  have hpending : (s.pending.map (·.id)).Nodup := hids.sublist (List.filter_sublist.map _)
  by_cases hthere : step.id ∈ s.numbers
  · have hnone : step.id ∉ s.pending.map (·.id) := by
      intro hmem
      obtain ⟨step', hstep', hid⟩ := List.mem_map.1 hmem
      rw [pending, List.mem_filter, decide_eq_true_eq, hid] at hstep'
      exact hstep'.2 hthere
    have hpos := List.count_pos_iff.2 hthere
    rw [List.count_eq_zero_of_not_mem hnone]
    omega
  · have hmem : step ∈ s.pending := by
      rw [pending, List.mem_filter, decide_eq_true_eq]
      exact ⟨hstep, hthere⟩
    rw [List.count_eq_zero_of_not_mem hthere,
      List.count_eq_one_of_mem hpending (List.mem_map_of_mem hmem)]
    rfl

/-- Nothing is left to be done after an upgrade. -/
theorem pending_brings {flags : List (TableName × String)}
    (h : Brings flags (s.pending.map (·.entry)) s.opened s') : s'.pending = [] := by
  rw [pending, List.filter_eq_nil_iff]
  intro step hstep
  have hcount := count_numbers h hstep
  rw [decide_eq_true_eq, not_not, ← List.count_pos_iff]
  omega

theorem numbered_brings {flags : List (TableName × String)} {entries : List (Int × String)}
    (h : Brings flags entries s s') : s'.numbered = s.numbered := by
  rw [numbered, h.ledger, numbered]
  cases s.ledger <;> rfl

/-- An upgrade that has been made is not made again. -/
theorem upgrade_again (hpending : s.pending = []) (hledger : s.ledger.isSome = true)
    (hnumbered : s.numbered = true) :
    Untouched s (upgrade s).2 ∧ (s.refusals = [] → (upgrade s).1 = .ok ()) := by
  obtain ⟨l, hl⟩ := Option.isSome_iff_exists.1 hledger
  rcases upgrade_cases s with ⟨f, s', hfails, hrun⟩ | ⟨f, s₁, s', hmade, hfails, hrun⟩ | ⟨s', hready, hrun⟩
  · obtain ⟨hsame, hrefused⟩ := createLedger_fails hfails
    rw [hrun]
    exact ⟨hsame, fun h => absurd h hrefused⟩
  · rw [createLedger_opens hmade] at hfails
    obtain ⟨hsame, hunread⟩ := applied_fails hfails
    rw [opened_of_some hl] at hsame hunread
    rw [hrun]
    refine ⟨hsame, fun h => ?_⟩
    rw [hunread h] at hnumbered
    cases hnumbered
  · have hsame := hready.untouched
    rw [opened_of_some hl] at hsame
    rw [hrun, hpending]
    exact ⟨hsame, fun _ => rfl⟩

theorem distinct_steps : Distinct (steps.flatMap (·.flags)) := by
  unfold Distinct
  decide +kernel

theorem entries_steps : (steps.map (·.entry)).Pairwise fun e e' => e.1 ≠ e'.1 ∧ e.2 ≠ e'.2 := by
  decide

theorem upgrade_goes (h : s.Clear) : (upgrade s).1 = .ok () := by
  rcases upgrade_cases s with ⟨f, s', hfails, -⟩ | ⟨f, s₁, s', hmade, hfails, -⟩ | ⟨s', hready, hrun⟩
  · exact absurd h.refusals (createLedger_fails hfails).2
  · rw [createLedger_opens hmade] at hfails
    have hnumbered := (applied_fails hfails).2 h.refusals
    rw [h.numbered] at hnumbered
    cases hnumbered
  · have hopened : s' = s.opened := by
      rw [hready.eq.1, begun_opened h.refusals, begun_opened h.refusals]
    have hsub : s.pending.Sublist steps := List.filter_sublist
    have hflags : s.pending.flatMap (·.flags) ⊆ steps.flatMap (·.flags) := (hsub.flatMap _).subset
    have hgoes : Goes (s.pending.forM Step.take) s.opened := by
      refine takeAll_goes h.refusals ?_ (entries_steps.sublist (hsub.map _)) ?_ h.accepts
      · exact fun f hf g hg => distinct_steps f (hflags hf) g (hflags hg)
      · intro flag hflag
        obtain ⟨step, hstep, hflag⟩ := List.mem_flatMap.1 hflag
        obtain ⟨t, ht, hcolumns⟩ := h.admits step hstep flag hflag
        exact ⟨t, (opened_table? s flag.1).trans ht, hcolumns⟩
    obtain ⟨s'', hdone, -⟩ := hgoes
    rw [hrun, hopened, hdone]

/-- Whatever tables and whatever ledger are found: an upgrade that succeeds has entered each step that
the ledger did not have, has brought the columns of these steps where they were lacking, and has
changed nothing else; another one then changes nothing at all. An upgrade that fails has failed to make
or to read the ledger, and then no step has been begun, or it has failed at a step: it has taken each
step before that one, and has left nothing of that one or any later. And it succeeds if nothing stands
in its way. -/
theorem upgrade_all_or_nothing (s : Schema) :
    (∀ s', upgrade s = (.ok (), s') →
      Brings (s.pending.flatMap (·.flags)) (s.pending.map (·.entry)) s.opened s' ∧
      (∀ step ∈ steps, s'.numbers.count step.id = max 1 (s.numbers.count step.id)) ∧
      (∀ step ∈ s.pending, ∀ flag ∈ step.flags, s'.has flag.1 flag.2 = true) ∧
      Untouched s' (upgrade s').2 ∧ (s'.refusals = [] → (upgrade s').1 = .ok ())) ∧
    (∀ f s', upgrade s = (.error f, s') →
      (∃ f', f = .refused f' ∧ createLedger s = (.error f', s') ∧ Untouched s s') ∨
      (∃ f' s₁, f = .refused f' ∧ createLedger s = (.ok (), s₁) ∧ applied s₁ = (.error f', s') ∧
        Untouched s.opened s') ∨
      ∃ done step rest s₁ s₂, s.pending = done ++ step :: rest ∧ s.Ready s₁ ∧
        done.forM Step.take s₁ = (.ok (), s₂) ∧
        step.take s₂ = (.error f, s') ∧ step.Blamed f ∧ Untouched s₂ s' ∧
        Brings (done.flatMap (·.flags)) (done.map (·.entry)) s.opened s') ∧
    (s.Clear → (upgrade s).1 = .ok ()) := by
  refine ⟨fun s' hrun => ?_, fun f s' hrun => ?_, upgrade_goes⟩
  · rcases upgrade_cases s with ⟨f, s₁, -, hfails⟩ | ⟨f, s₁, s₂, -, -, hfails⟩ | ⟨s₁, hready, hsteps⟩
    · rw [hfails] at hrun
      cases hrun
    · rw [hfails] at hrun
      cases hrun
    · rw [hsteps] at hrun
      have hbrings := hready.brings hrun
      refine ⟨hbrings, fun step => count_numbers hbrings, fun step hstep flag hflag => ?_, ?_⟩
      · exact (hbrings.has_iff flag.1 flag.2).2 (Or.inr (List.mem_flatMap.2 ⟨step, hstep, hflag⟩))
      · refine upgrade_again (pending_brings hbrings) ?_ ((numbered_brings hbrings).trans hready.eq.2)
        rw [hbrings.ledger]
        rfl
  · rcases upgrade_cases s with ⟨f', s₁, hfails, h⟩ | ⟨f', s₁, s₂, hmade, hfails, h⟩ | ⟨s₁, hready, h⟩
    · rw [h] at hrun
      cases hrun
      exact Or.inl ⟨f', rfl, hfails, (createLedger_fails hfails).1⟩
    · rw [h] at hrun
      cases hrun
      refine Or.inr (Or.inl ⟨f', s₁, rfl, hmade, hfails, ?_⟩)
      rw [createLedger_opens hmade] at hfails
      exact (applied_fails hfails).1
    · rw [h] at hrun
      obtain ⟨done, step, rest, s₂, hpending, hdone, hfails⟩ := takeAll_fails hrun
      obtain ⟨hblamed, hsame⟩ := step.take_fails hfails
      refine Or.inr (Or.inr ⟨done, step, rest, s₁, s₂, hpending, hready, hdone, hfails, hblamed, hsame, ?_⟩)
      have hall := (hready.brings hdone).trans (.of_untouched hsame)
      rwa [List.append_nil, List.append_nil] at hall

end Upgrade

section Resumed

/-- An attempt is on record with a remark of its own; the second step is in the ledger, and one column
of the first is there. -/
def halfway (refusals : List (Option StoreFault)) : Schema where
  attempts := some {
    columns := [plain "id", plain "remark", plain "deleted"]
    rows := [[.int 1, .text "kept", .int 1]] }
  uploads := some { columns := [plain "id"] }
  ledger := some { columns := ledgerColumns, entries := [(2, "add_attempt_persisted_flag")] }
  refusals

def firstStep : Step := ⟨1, "add_deleted_flags", [(.attempts, "deleted"), (.uploads, "deleted")]⟩

def thirdStep : Step := ⟨3, "add_target_persisted_flag", [(.uploads, "persisted")]⟩

theorem halfway_pending (refusals : List (Option StoreFault)) :
    (halfway refusals).pending = [firstStep, thirdStep] := by
  change (steps.filter fun step => step.id ∉ [2]) = [firstStep, thirdStep]
  decide

theorem halfway_clear : (halfway []).Clear := by
  have hattempts : ∀ c ∈ [plain "id", plain "remark", plain "deleted"],
      names "deleted" c = true → c.name = "deleted" := by decide +kernel
  have huploads : ∀ name ∈ ["deleted", "persisted"], ∀ c ∈ [plain "id"],
      names name c = true → c.name = name := by decide +kernel
  refine ⟨rfl, by decide +kernel, ?_, ?_⟩
  · rw [halfway_pending]
    intro step hstep flag hflag
    simp only [List.mem_cons, List.not_mem_nil, or_false] at hstep
    rcases hstep with rfl | rfl
    · simp only [firstStep, List.mem_cons, List.not_mem_nil, or_false] at hflag
      rcases hflag with rfl | rfl
      · exact ⟨_, rfl, hattempts⟩
      · exact ⟨_, rfl, huploads "deleted" (by decide)⟩
    · simp only [thirdStep, List.mem_cons, List.not_mem_nil, or_false] at hflag
      subst hflag
      exact ⟨_, rfl, huploads "persisted" (by decide)⟩
  · rw [halfway_pending]
    intro step hstep
    simp only [List.mem_cons, List.not_mem_nil, or_false] at hstep
    rcases hstep with rfl | rfl
    · exact ⟨_, rfl, by decide +kernel⟩
    · exact ⟨_, rfl, by decide +kernel⟩

def interrupted : Schema :=
  halfway (List.replicate 11 none ++ [some (.engine 10 "disk I/O error")])

/-- The first and the third step are made up for. If the entry of the third is refused, its column goes
again, and the first step stays. -/
theorem upgrade_all_or_nothing_resumed :
    (∃ s', upgrade (halfway []) = (.ok (), s') ∧ s'.has .uploads "persisted" = true ∧
      s'.numbers.count 1 = 1 ∧ Untouched s' (upgrade s').2) ∧
    ∃ s₁ s', upgrade interrupted = (.error (.refused (.engine 10 "disk I/O error")), s') ∧
      interrupted.pending = [firstStep, thirdStep] ∧
      thirdStep.take s₁ = (.error (.refused (.engine 10 "disk I/O error")), s') ∧
      s'.has .uploads "deleted" = true ∧ s'.has .uploads "persisted" = false ∧
      Brings firstStep.flags [firstStep.entry] interrupted.opened s' := by
  obtain ⟨hdone, -, hgoes⟩ := upgrade_all_or_nothing (halfway [])
  obtain ⟨-, hfails, -⟩ := upgrade_all_or_nothing interrupted
  constructor
  · have hok := hgoes halfway_clear
    rcases hrun : upgrade (halfway []) with ⟨outcome, s'⟩
    rw [hrun] at hok
    subst hok
    obtain ⟨-, hcount, hcolumns, hagain, -⟩ := hdone s' hrun
    have hthird : thirdStep ∈ (halfway []).pending := by simp [halfway_pending]
    refine ⟨s', rfl, hcolumns _ hthird (.uploads, "persisted") List.mem_cons_self, ?_, hagain⟩
    have hnone : (halfway []).numbers.count 1 = 0 := by decide
    have hone := hcount firstStep List.mem_cons_self
    rwa [show firstStep.id = 1 from rfl, hnone] at hone
  · have hfault : (upgrade interrupted).1 = .error (.refused (.engine 10 "disk I/O error")) := by
      decide +kernel
    have hfirst : (upgrade interrupted).2.has .uploads "deleted" = true := by decide +kernel
    have hthird : (upgrade interrupted).2.has .uploads "persisted" = false := by decide +kernel
    have hbefore : interrupted.opened.has .uploads "deleted" = false := by decide
    rcases hrun : upgrade interrupted with ⟨outcome, s'⟩
    rw [hrun] at hfault hfirst hthird
    subst hfault
    rcases hfails _ s' hrun with ⟨-, -, -, hsame⟩ | ⟨-, -, -, -, -, hsame⟩ |
      ⟨done, step, rest, s₁, s₂, hpending, -, -, htake, -, -, h⟩
    · rw [has_untouched hsame, show interrupted.has .uploads "deleted" = false by decide] at hfirst
      cases hfirst
    · rw [has_untouched hsame, hbefore] at hfirst
      cases hfirst
    · have hboth : interrupted.pending = [firstStep, thirdStep] := halfway_pending _
      rw [hboth, List.cons_eq_append_iff] at hpending
      rcases hpending with ⟨rfl, -⟩ | ⟨done, rfl, hrest⟩
      · rcases (h.has_iff .uploads "deleted").1 hfirst with hthere | hbrought
        · rw [hbefore] at hthere
          cases hthere
        · cases hbrought
      · obtain ⟨rfl, hstep⟩ : done = [] ∧ thirdStep = step := by
          cases done with
          | nil => exact ⟨rfl, (List.cons.inj hrest).1⟩
          | cons _ done => cases done <;> cases hrest
        subst hstep
        exact ⟨s₂, s', rfl, hboth, htake, hfirst, hthird, h⟩

end Resumed

end FleetSnapshot.Audit.Schema
