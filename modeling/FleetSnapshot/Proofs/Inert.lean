import FleetSnapshot.Proofs.Schedule
import FleetSnapshot.Proofs.Sweeping

/-! What rehearsals leave alone. Attempts and cleanups that are rehearsed say nothing to the nodes and
nothing to the bucket, and all they write are rows of their own. So whatever is rehearsed after
whatever else, the records that were there stand as they did, and nothing is said but what ticks ask
the nodes about their state. -/

namespace FleetSnapshot

open Audit Job

namespace Audit

namespace Query

/-- The query does not set the clock. -/
def Timed {α : Type} (q : Query α) : Prop := Leads (fun s s' => s'.clock = s.clock) q

section Timed

variable {α β : Type}

theorem timed_pure (a : α) : Timed (pure a : Query α) := fun _ => rfl

theorem timed_bind {q : Query α} {f : α → Query β} (hq : Timed q) (hf : ∀ a, Timed (f a)) :
    Timed (q >>= f) :=
  leads_bind (fun _ _ _ h h' => h'.trans h) hq hf

theorem timed_ofRead (x : Except StoreFault α) : Timed (ofRead x) := by
  cases x <;> exact fun _ => rfl

theorem timed_statement {body : Query α} (h : Timed body) : Timed (statement body) := by
  intro s
  rw [statement_apply]
  cases s.refusal? with
  | some f => rfl
  | none => exact h s.begun

theorem attemptRows_timed : Timed attemptRows := by
  intro s
  rw [attemptRows_apply]
  cases s.tables.attempts <;> rfl

theorem uploadRows_timed : Timed uploadRows := by
  intro s
  rw [uploadRows_apply]
  cases s.tables.uploads <;> rfl

theorem updateAttempts_timed (columns : List String) (selects : AttemptRow → Bool)
    (change : AttemptRow → AttemptRow) : Timed (updateAttempts columns selects change) := by
  intro s
  rcases updateAttempts_cases s columns selects change with ⟨e, h⟩ | ⟨p, -, -, h⟩ <;> rw [h] <;> rfl

theorem updateUploads_timed (columns : List String) (selects : UploadRow → Bool)
    (change : UploadRow → UploadRow) : Timed (updateUploads columns selects change) := by
  intro s
  rcases updateUploads_cases s columns selects change with ⟨e, h⟩ | ⟨p, -, -, h⟩ <;> rw [h] <;> rfl

theorem insertAttempt_timed (row : AttemptRow) : Timed (insertAttempt row) := by
  refine timed_statement (timed_bind attemptRows_timed fun rows =>
    timed_bind (fun _ => rfl) fun s => ?_)
  split <;> exact fun _ => rfl

theorem insertUpload_timed (row : UploadRow) : Timed (insertUpload row) := by
  refine timed_statement (timed_bind uploadRows_timed fun rows =>
    timed_bind (fun _ => rfl) fun s => ?_)
  split
  · refine timed_bind (fun _ => rfl) fun s => ?_
    split
    · exact fun _ => rfl
    · exact fun _ => rfl
    · refine timed_bind (fun _ => rfl) fun s => timed_bind (fun _ => rfl) fun _ => ?_
      split <;> exact fun _ => rfl
  · exact fun _ => rfl

theorem attemptWithUploads_timed (r : AttemptRow) : Timed (attemptWithUploads r) :=
  timed_bind (timed_ofRead _) fun _ =>
    timed_bind (timed_bind (timed_statement uploadRows_timed) fun _ => timed_ofRead _) fun _ =>
      timed_pure _

end Timed

end Query

open Query

/-- What a rehearsal may do to the audit store. Of the rows there are, it ends those that are its own. -/
def Op.Rehearses {α : Type} (s : Store) (op : Op α) : Prop :=
  match op with
  | .createAttempt _ dryRun => dryRun = true
  | .createUpload _ _ _ dryRun => dryRun = true
  | .finishAttempt id _ _ => s.tables.lastAttempt < id
  | .finishUpload id _ _ => s.tables.lastUpload < id
  | .getAttempt _ | .getUpload _ | .mostRecent | .successful => True
  | _ => False

theorem Op.timed {α : Type} {s : Store} {op : Op α} (h : op.Rehearses s) : Timed op.query := by
  cases op with
  | createAttempt height dryRun =>
    exact timed_bind (fun _ => rfl) fun _ => timed_bind (insertAttempt_timed _) fun _ => timed_pure _
  | createUpload attemptId target pre dryRun =>
    exact timed_bind (fun _ => rfl) fun _ => timed_bind (insertUpload_timed _) fun _ => timed_pure _
  | finishAttempt id status message =>
    exact timed_bind (fun _ => rfl) fun _ => timed_bind (updateAttempts_timed _ _ _) fun _ =>
      timed_pure _
  | finishUpload id status message =>
    exact timed_bind (fun _ => rfl) fun _ => timed_bind (updateUploads_timed _ _ _) fun _ =>
      timed_pure _
  | getAttempt id =>
    refine timed_bind (timed_statement attemptRows_timed) fun rows => ?_
    split
    · exact timed_bind (attemptWithUploads_timed _) fun _ => timed_pure _
    · exact timed_pure _
  | getUpload id =>
    refine timed_bind (timed_statement uploadRows_timed) fun rows => ?_
    split
    · exact timed_bind (timed_ofRead _) fun _ => timed_pure _
    · exact timed_pure _
  | mostRecent =>
    refine timed_bind (timed_statement attemptRows_timed) fun rows => ?_
    split
    · exact timed_bind (attemptWithUploads_timed _) fun _ => timed_pure _
    · exact timed_pure _
  | successful =>
    exact timed_bind (timed_statement attemptRows_timed) fun _ =>
      leads_mapM (R := fun s s' => s'.clock = s.clock) (fun _ => rfl) (fun _ _ _ h h' => h'.trans h)
        attemptWithUploads_timed _
  | _ => exact h.elim

/-- The row of a rehearsal, unmarked and above this number. -/
structure AttemptRow.Tentative (bound : Int) (r : AttemptRow) : Prop where
  above : bound < r.id
  dryRun : r.dryRun = true
  deleted : r.deleted = false
  persisted : r.persisted = false

structure UploadRow.Tentative (bound : Int) (r : UploadRow) : Prop where
  above : bound < r.id
  dryRun : r.dryRun = true
  deleted : r.deleted = false
  persisted : r.persisted = false

/-- Behind the rows that were there stand those of rehearsals. -/
structure Beside (s s' : Store) : Prop where
  filed : Filed s'
  attempts : ∃ rows, s'.attempts = s.attempts ++ rows ∧
    ∀ r ∈ rows, r.Tentative s.tables.lastAttempt
  uploads : ∃ rows, s'.uploads = s.uploads ++ rows ∧ ∀ r ∈ rows, r.Tentative s.tables.lastUpload
  lastAttempt : s.tables.lastAttempt ≤ s'.tables.lastAttempt
  lastUpload : s.tables.lastUpload ≤ s'.tables.lastUpload

namespace Beside

variable {s s₀ s' s'' : Store}

theorem refl (h : Filed s) : Beside s s :=
  ⟨h, ⟨[], (List.append_nil _).symm, List.forall_mem_nil _⟩,
    ⟨[], (List.append_nil _).symm, List.forall_mem_nil _⟩, le_rfl, le_rfl⟩

theorem trans (h : Beside s s') (h' : Beside s' s'') : Beside s s'' := by
  obtain ⟨rows, hrows, hnew⟩ := h.attempts
  obtain ⟨rows', hrows', hnew'⟩ := h'.attempts
  obtain ⟨us, hus, hfresh⟩ := h.uploads
  obtain ⟨us', hus', hfresh'⟩ := h'.uploads
  refine ⟨h'.filed, ⟨rows ++ rows', ?_, fun r hr => ?_⟩, ⟨us ++ us', ?_, fun r hr => ?_⟩,
    h.lastAttempt.trans h'.lastAttempt, h.lastUpload.trans h'.lastUpload⟩
  · rw [hrows', hrows, List.append_assoc]
  · rcases List.mem_append.1 hr with hr | hr
    · exact hnew r hr
    · exact { hnew' r hr with above := lt_of_le_of_lt h.lastAttempt (hnew' r hr).above }
  · rw [hus', hus, List.append_assoc]
  · rcases List.mem_append.1 hr with hr | hr
    · exact hfresh r hr
    · exact { hfresh' r hr with above := lt_of_le_of_lt h.lastUpload (hfresh' r hr).above }

theorem of_alike (h : Filed s) (halike : Alike s s') : Beside s s' := by
  refine ⟨h.touches (Touches.of_alike halike), ⟨[], ?_, List.forall_mem_nil _⟩,
    ⟨[], ?_, List.forall_mem_nil _⟩, ?_, ?_⟩
  · rw [halike.attempts, List.append_nil]
  · rw [halike.uploads, List.append_nil]
  · rw [halike.tables]
  · rw [halike.tables]

/-- A rehearsal is put on record under a number of its own, or not at all. -/
theorem createAttempt (h : Filed s) (height : UInt64) :
    (∀ a, (Audit.createAttempt height true s).1 = .ok a → s.tables.lastAttempt < a.id) ∧
      Beside s (Audit.createAttempt height true s).2 := by
  rcases createAttempt_cases h.plain.triggers height true with ⟨e, he, halike⟩ | ⟨a, hid, hrun⟩
  · exact ⟨fun a ha => absurd (he.symm.trans ha) nofun, of_alike h halike⟩
  · rw [hrun]
    refine ⟨fun a' ha' => ?_, h.addAttempt rfl, ⟨[s.newAttempt height true], rfl, ?_⟩,
      ⟨[], (List.append_nil _).symm, List.forall_mem_nil _⟩, (Int.lt_succ _).le, le_rfl⟩
    · obtain rfl := Except.ok.inj ha'
      exact hid ▸ Int.lt_succ _
    · exact List.forall_mem_singleton.2 ⟨Int.lt_succ _, rfl, rfl, rfl⟩

theorem createUpload (h : Filed s) (attemptId : Int) (target pre : String) :
    (∀ u, (Audit.createUpload attemptId target pre true s).1 = .ok u →
        s.tables.lastUpload < u.id) ∧
      Beside s (Audit.createUpload attemptId target pre true s).2 := by
  rcases createUpload_cases h.plain.triggers attemptId target pre true with
    ⟨e, he, halike⟩ | ⟨u, hid, howned, hrun⟩
  · exact ⟨fun u hu => absurd (he.symm.trans hu) nofun, of_alike h halike⟩
  · rw [hrun]
    refine ⟨fun u' hu' => ?_, h.addUpload rfl howned,
      ⟨[], (List.append_nil _).symm, List.forall_mem_nil _⟩,
      ⟨[s.newUpload attemptId target pre true], rfl, ?_⟩, le_rfl, (Int.lt_succ _).le⟩
    · obtain rfl := Except.ok.inj hu'
      exact hid ▸ Int.lt_succ _
    · exact List.forall_mem_singleton.2 ⟨Int.lt_succ _, rfl, rfl, rfl⟩

/-- A change that leaves what was there first as it is. -/
theorem map_behind {ρ : Type} {P : ρ → Prop} {old rows all : List ρ} {f : ρ → ρ}
    (hall : all = old ++ rows) (hold : ∀ r ∈ old, f r = r) (hrows : ∀ r ∈ rows, P r)
    (hnew : ∀ r, P r → P (f r)) : ∃ rows', all.map f = old ++ rows' ∧ ∀ r ∈ rows', P r := by
  refine ⟨rows.map f, ?_, fun r hr => ?_⟩
  · rw [hall, List.map_append, (List.map_congr_left hold).trans (List.map_id' old)]
  · obtain ⟨row, hrow, rfl⟩ := List.mem_map.1 hr
    exact hnew row (hrows row hrow)

/-- The row that is ended is none of those that were there first. -/
theorem finishAttempt (hs₀ : Filed s₀) (h : Beside s₀ s) {id : Int}
    (hid : s₀.tables.lastAttempt < id) (status : Progress) (message : Option String) :
    Beside s₀ (Audit.finishAttempt id status message s).2 := by
  have hfiled := h.filed.touches (finishAttempt_touches id status message s)
  rw [finishAttempt_plain h.filed.plain] at hfiled ⊢
  cases hr : s.refusal? with
  | some f =>
    rw [hr] at hfiled
    exact ⟨hfiled, h.attempts, h.uploads, h.lastAttempt, h.lastUpload⟩
  | none =>
    rw [hr] at hfiled
    obtain ⟨rows, hrows, hnew⟩ := h.attempts
    refine ⟨hfiled, ?_, h.uploads, h.lastAttempt, h.lastUpload⟩
    rw [Store.mapAttempts_attempts]
    refine map_behind hrows (fun r hr => ?_) hnew fun r hr => ?_
    · -- the numbers of the rows that were there first end at the bound
      have hbound := hs₀.attemptBound r hr
      exact if_neg (by simp; omega)
    · split
      · exact { hr with }
      · exact hr

theorem finishUpload (hs₀ : Filed s₀) (h : Beside s₀ s) {id : Int}
    (hid : s₀.tables.lastUpload < id) (status : Progress) (message : Option String) :
    Beside s₀ (Audit.finishUpload id status message s).2 := by
  have hfiled := h.filed.touches (finishUpload_touches id status message s)
  rw [finishUpload_plain h.filed.plain] at hfiled ⊢
  cases hr : s.refusal? with
  | some f =>
    rw [hr] at hfiled
    exact ⟨hfiled, h.attempts, h.uploads, h.lastAttempt, h.lastUpload⟩
  | none =>
    rw [hr] at hfiled
    obtain ⟨rows, hrows, hnew⟩ := h.uploads
    refine ⟨hfiled, h.attempts, ?_, h.lastAttempt, h.lastUpload⟩
    rw [Store.mapUploads_uploads]
    refine map_behind hrows (fun r hr => ?_) hnew fun r hr => ?_
    · have hbound := hs₀.uploadBound r hr
      exact if_neg (by simp; omega)
    · split
      · exact { hr with }
      · exact hr

end Beside

end Audit

/-- The deployment has been left alone but for the records of rehearsals and what nodes were asked
about their state. -/
structure Inert (fleet : List Node) (d d' : Deployment) : Prop where
  records : Beside d.store d'.store
  clock : d'.store.clock = d.store.clock
  refusals : d'.store.refusals <:+ d.store.refusals
  objects : d'.objects = d.objects
  journal : ∃ es, d'.journal = d.journal ++ es ∧ ∀ e ∈ es, e.Asks fleet

/-- Neither the nodes nor the bucket are spoken to, and the audit store is found like this. -/
def rehearses (s : Store) : Discipline Unit where
  allows _ act := match act with
    | .audit op => op.Rehearses s
    | .enter | .leave | .phase _ | .agreed _ _ => True
    | _ => False
  expects _ act := match act with
    | .audit (.createAttempt _ _) => fun r => ∀ a, r = .ok a → s.tables.lastAttempt < a.id
    | .audit (.createUpload _ _ _ _) => fun r => ∀ u, r = .ok u → s.tables.lastUpload < u.id
    | _ => fun _ => True
  after c _ _ := c

/-- What one operation of a rehearsal leaves behind the rows that were there first. -/
theorem Audit.Beside.op {α : Type} {s₀ s : Store} {op : Op α} (hs₀ : Filed s₀) (h : Beside s₀ s)
    (hop : op.Rehearses s₀) :
    (rehearses s₀).expects () (.audit op) (op.run s).1 ∧ Beside s₀ (op.run s).2 := by
  cases op with
  | createAttempt height dryRun =>
    obtain rfl : dryRun = true := hop
    obtain ⟨hnew, hbeside⟩ := Beside.createAttempt h.filed height
    exact ⟨fun a ha => lt_of_le_of_lt h.lastAttempt (hnew a ha), h.trans hbeside⟩
  | createUpload attemptId target pre dryRun =>
    obtain rfl : dryRun = true := hop
    obtain ⟨hnew, hbeside⟩ := Beside.createUpload h.filed attemptId target pre
    exact ⟨fun u hu => lt_of_le_of_lt h.lastUpload (hnew u hu), h.trans hbeside⟩
  | finishAttempt id status message => exact ⟨trivial, h.finishAttempt hs₀ hop status message⟩
  | finishUpload id status message => exact ⟨trivial, h.finishUpload hs₀ hop status message⟩
  | getAttempt id => exact ⟨trivial, h.trans (.of_alike h.filed (getAttempt_alike id s))⟩
  | getUpload id => exact ⟨trivial, h.trans (.of_alike h.filed (getUpload_alike id s))⟩
  | mostRecent => exact ⟨trivial, h.trans (.of_alike h.filed (mostRecent_alike s))⟩
  | successful => exact ⟨trivial, h.trans (.of_alike h.filed (successful_alike s))⟩
  | _ => exact hop.elim

namespace Inert

variable {fleet fleet' : List Node} {d d' d'' : Deployment}

theorem refl (fleet : List Node) (h : Filed d.store) : Inert fleet d d :=
  ⟨.refl h, rfl, List.suffix_refl _, rfl, [], (List.append_nil _).symm, List.forall_mem_nil _⟩

theorem trans (h : Inert fleet d d') (h' : Inert fleet d' d'') : Inert fleet d d'' := by
  obtain ⟨es, hes, hasks⟩ := h.journal
  obtain ⟨es', hes', hasks'⟩ := h'.journal
  refine ⟨h.records.trans h'.records, h'.clock.trans h.clock, h'.refusals.trans h.refusals,
    h'.objects.trans h.objects, es ++ es', by rw [hes', hes, List.append_assoc], fun e he => ?_⟩
  exact (List.mem_append.1 he).elim (hasks e) (hasks' e)

theorem mono (h : Inert fleet d d') (hsub : ∀ n ∈ fleet, n ∈ fleet') : Inert fleet' d d' := by
  obtain ⟨es, hes, hasks⟩ := h.journal
  refine { h with journal := ⟨es, hes, fun e he => ?_⟩ }
  obtain ⟨n, hn, htold⟩ := hasks e he
  exact ⟨n, hsub n hn, htold⟩

theorem of_asked (h : Filed d.store) (hasked : Asked fleet d d') : Inert fleet d d' := by
  obtain ⟨hosts, es, rfl, hasks⟩ := hasked
  exact ⟨.refl h, rfl, List.suffix_refl _, rfl, es, rfl, hasks⟩

/-- One act of a rehearsal. -/
theorem perform {β : Type} {act : Act β} (hd : Filed d.store) (h : Inert [] d d')
    (hallows : (rehearses d.store).allows () act) :
    (rehearses d.store).expects () act (d'.perform act).1 ∧ Inert [] d (d'.perform act).2 := by
  cases act with
  | audit op =>
    obtain ⟨hexpects, hbeside⟩ := h.records.op hd hallows
    have hclock := Op.timed hallows d'.store
    exact ⟨hexpects, hbeside, hclock.trans h.clock, (op.spends d'.store).trans h.refusals, h.objects,
      h.journal⟩
  | enter =>
    refine ⟨trivial, ?_⟩
    simp only [Deployment.perform, Deployment.enter]
    split
    · exact h
    · exact ⟨h.records.trans (.of_alike h.records.filed ⟨rfl, rfl⟩), h.clock, h.refusals, h.objects,
        h.journal⟩
  | leave => exact ⟨trivial, h.records, h.clock, h.refusals, h.objects, h.journal⟩
  | phase φ => exact ⟨trivial, h.records, h.clock, h.refusals, h.objects, h.journal⟩
  | agreed height next => exact ⟨trivial, h.records, h.clock, h.refusals, h.objects, h.journal⟩
  | _ => exact hallows.elim

/-- What a job leaves that is done by way of rehearsal. -/
theorem of_stays {α : Type} {j : Job α} (hd : Filed d.store)
    (hj : Stays (rehearses d.store) () j) : Inert [] d (j.perform d).2 := by
  obtain ⟨_, hinert, -⟩ := Plan.run_maintains (I := fun _ => Inert [] d)
    (fun act _ _ hallows h => h.perform hd hallows) _ hj.anyhow (.refl [] hd)
  exact hinert

end Inert

namespace Capture

variable {s : Store} {p : Plant} {height : UInt64}

theorem uploadOne_rehearses (attemptId : Int) (n : Node) :
    Stays (rehearses s) () (uploadOne true attemptId height n) := by
  rw [uploadOne_eq]
  refine (keeps_bind _ _).2 ((keeps_act _).2 ⟨rfl, fun r hr => ?_⟩)
  cases r with
  | error e => exact stays_pure _
  | ok u => exact stays_bind (stays_act ⟨hr u rfl, fun _ => rfl⟩) fun _ => stays_pure _

/-- A rehearsal goes from the records of the uploads to its end. -/
theorem drive_rehearses (hdry : p.dryRun = true) (attemptId : Int) :
    Stays (rehearses s) () (drive p attemptId height) := by
  have huploads : Stays (rehearses s) () (uploadAll p attemptId height) := by
    rw [uploadAll, hdry]
    refine stays_bind (stays_all fun j hj => ?_) fun _ => stays_pure _
    obtain ⟨n, -, rfl⟩ := List.mem_map.1 hj
    exact uploadOne_rehearses attemptId n
  unfold drive
  simp only [hdry, Bool.not_true, Bool.false_eq_true, Bool.and_false, if_false]
  refine stays_bind (stays_act ⟨trivial, fun _ => rfl⟩) fun _ =>
    stays_bind huploads fun failed => ?_
  cases failed with
  | nil => exact stays_pure _
  | cons name names => exact stays_fail _

theorem record_rehearses (hdry : p.dryRun = true) {attemptId : Int}
    (hid : s.tables.lastAttempt < attemptId) :
    Stays (rehearses s) () (record p attemptId height) := by
  have hphase : (rehearses s).Unphased := fun _ _ => ⟨trivial, fun _ => rfl⟩
  have hconcludes : Concludes (rehearses s) attemptId (· = ()) (· = ()) (· = ()) :=
    ⟨fun _ => ⟨hid, fun r _ => by cases r <;> rfl⟩, fun _ _ => ⟨hid, fun _ _ => rfl⟩,
      fun _ => ⟨trivial, fun _ _ => rfl⟩⟩
  exact (record_keeps hphase hconcludes (drive_rehearses hdry attemptId)).mono (fun _ _ h => h)
    fun _ _ _ => rfl

theorem run_rehearses (hdry : p.dryRun = true) : Stays (rehearses s) () (run p height) := by
  refine stays_bind (stays_act ⟨trivial, fun _ => rfl⟩) fun entry =>
    stays_bind (stays_ofExcept entry) fun _ => leaving_keeps ?_
  refine (keeps_bind _ _).2 ((keeps_audit _).2 ⟨hdry, fun a ha => ?_, fun _ _ => ⟨trivial, rfl⟩⟩)
  exact (record_rehearses hdry (ha a rfl)).mono (fun _ _ _ => ⟨trivial, rfl⟩)
    fun _ _ _ => ⟨trivial, rfl⟩

end Capture

namespace Watch

theorem heed_rehearses {s : Store} {p : Capture.Plant} (hdry : p.dryRun = true)
    (interval height : UInt64) : Stays (rehearses s) () (heed p interval height) := by
  refine stays_bind (stays_act ⟨trivial, fun _ => rfl⟩) fun _ =>
    stays_bind (stays_act ⟨trivial, fun _ => rfl⟩) fun recent => ?_
  dsimp only
  split
  · exact stays_pure _
  · exact stays_bind (stays_outcome (Capture.run_rehearses hdry)) fun _ => stays_pure _

end Watch

namespace Sweep

structure Peeks {σ : Type} (D : Discipline σ) (c : σ) : Prop where
  successful : D.Ignores c (.audit .successful)
  getUpload : ∀ id, D.Ignores c (.audit (.getUpload id))

def Report.Same (rep rep' : Report) : Prop :=
  rep'.attemptsDeleted = rep.attemptsDeleted ∧ rep'.uploadsDeleted = rep.uploadsDeleted

section Peeks

variable {σ : Type} {D : Discipline σ} {c : σ} {b : Broom} (hD : Peeks D c) (hdry : b.dryRun = true)

include hD hdry

/-- A rehearsed cleanup looks at the records of what it would remove. -/
theorem removeUpload_peeks (u : Upload) :
    (removeUpload b u).Keeps D c (fun c' removal => c' = c ∧ removal ≠ .deleted)
      fun c' _ => c' = c := by
  rw [removeUpload_eq, if_pos hdry]
  split
  · exact rfl
  · rw [recheck, keeps_bind]
    refine (current_stays (hD.getUpload u.id)).keeps (fun now => ?_) fun _ => rfl
    split
    · exact (keeps_pure _).2 ⟨rfl, nofun⟩
    · rw [keeps_bind, keeps_ofExcept]
      cases ensureDeletable now with
      | error e => exact rfl
      | ok _ => exact (keeps_pure _).2 ⟨rfl, nofun⟩

theorem removeUploads_peeks (us : List Upload) (rep : Report) :
    (removeUploads b us rep).Keeps D c (fun c' r => c' = c ∧ rep.Same r.1) fun c' _ => c' = c := by
  induction us generalizing rep with
  | nil => exact ⟨rfl, rfl, rfl⟩
  | cons u us ih =>
    rw [removeUploads, keeps_bind, keeps_outcome]
    refine (removeUpload_peeks hD hdry u).mono (fun c' removal h => ?_) fun c' stop hc => ?_
    · obtain ⟨rfl, hremoval⟩ := h
      cases removal with
      | deleted => exact absurd rfl hremoval
      | skipped => exact ih rep
      | rehearsed => exact ih rep
    · subst hc
      cases stop with
      | hung => exact rfl
      | failed e => exact (keeps_bind _ _).2 ((ih (rep.remember e)).mono (fun _ _ h => h) fun _ _ h => h)

theorem sweepAll_peeks (as : List Attempt) (rep : Report) :
    (sweepAll b as rep).Keeps D c (fun c' rep' => c' = c ∧ rep.Same rep') fun c' _ => c' = c := by
  induction as generalizing rep with
  | nil => exact ⟨rfl, rfl, rfl⟩
  | cons a as ih =>
    rw [sweepAll, keeps_bind, sweepAttempt, keeps_bind]
    refine (removeUploads_peeks hD hdry _ rep).mono (fun c' r h => ?_) fun _ _ h => h
    obtain ⟨rfl, hsame⟩ := h
    simp only [hdry, Bool.or_true, if_true]
    refine (ih r.1).mono (fun c'' rep' h' => ⟨h'.1, ?_⟩) fun _ _ h => h
    exact ⟨h'.2.1.trans hsame.1, h'.2.2.trans hsame.2⟩

theorem cycle_peeks (keep : Nat) :
    (cycle b keep).Keeps D c (fun c' r => c' = c ∧ ∀ rep, r = some rep → Report.Same {} rep)
      fun c' _ => c' = c := by
  rw [cycle, keeps_bind]
  refine (stays_audit hD.successful).keeps (fun as => ?_) fun _ => rfl
  split
  · exact ⟨rfl, nofun⟩
  · refine (keeps_bind _ _).2 ((sweepAll_peeks hD hdry _ {}).mono (fun _ rep h => ⟨h.1, ?_⟩)
      fun _ _ h => h)
    rintro rep' ⟨⟩
    exact h.2

end Peeks

def perusal : Discipline Unit where
  allows _ act := match act with
    | .audit .successful | .audit (.getUpload _) => True
    | _ => False
  after c _ _ := c

/-- Whatever statements are refused, a rehearsed cleanup leaves the tables as they are, and it reports
nothing as deleted. -/
theorem cycle_perused {b : Broom} (hdry : b.dryRun = true) (keep : Nat) (d : Deployment) :
    ((cycle b keep).perform d).2.store.tables = d.store.tables ∧
      ((cycle b keep).perform d).2.gate = d.gate ∧
      ∀ rep, (cycle b keep).result d = .ok (some rep) →
        rep.attemptsDeleted = 0 ∧ rep.uploadsDeleted = 0 := by
  have hpeeks : Peeks perusal () := ⟨⟨trivial, fun _ => rfl⟩, fun _ => ⟨trivial, fun _ => rfl⟩⟩
  obtain ⟨_, ⟨halike, hgate⟩, hend⟩ := Plan.run_maintains
    (I := fun _ d' => Query.Alike d.store d'.store ∧ d'.gate = d.gate) (fun act _ d' hallows h => by
      refine ⟨trivial, ?_⟩
      cases act with
      | audit op =>
        refine ⟨h.1.trans ?_, h.2⟩
        cases op with
        | successful => exact successful_alike d'.store
        | getUpload id => exact getUpload_alike id d'.store
        | _ => exact hallows.elim
      | _ => exact hallows.elim) _ (cycle_peeks hpeeks hdry keep) ⟨.refl d.store, rfl⟩
  refine ⟨halike.tables, hgate, fun rep hrep => ?_⟩
  rw [show ((cycle b keep).run.run d).1 = .ok (some rep) from hrep] at hend
  exact hend.2 rep rfl

theorem cycle_rehearses {s : Store} {b : Broom} (hdry : b.dryRun = true) (keep : Nat) :
    Stays (rehearses s) () (cycle b keep) :=
  (cycle_peeks (D := rehearses s) ⟨⟨trivial, fun _ => rfl⟩, fun _ => ⟨trivial, fun _ => rfl⟩⟩ hdry
    keep).mono (fun _ _ h => h.1) fun _ _ h => h

end Sweep

/-- What the program is told to do, by the clock or by somebody. -/
inductive Errand where
  | tick (interval : UInt64)
  | attempt (height : UInt64)
  | cleanup (bucketName : String) (keep : Nat)

namespace Errand

def perform (p : Capture.Plant) : Errand → Deployment → Deployment
  | .tick interval, d => ((Watch.tick p interval).perform d).2
  | .attempt height, d => ((Capture.run p height).perform d).2
  | .cleanup bucketName keep, d => ((Sweep.cycle ⟨p.dryRun, bucketName⟩ keep).perform d).2

def asked (p : Capture.Plant) : Errand → List Node
  | .tick _ => p.fleet
  | _ => []

end Errand

def errands (p : Capture.Plant) (d : Deployment) (es : List Errand) : Deployment :=
  es.foldl (fun d e => e.perform p d) d

section Errands

variable {p : Capture.Plant} {d : Deployment}

theorem Watch.tick_inert (hdry : p.dryRun = true) (h : Filed d.store) (interval : UInt64) :
    Inert p.fleet d ((tick p interval).perform d).2 := by
  have hcheck : Inert p.fleet d ((Agreement.check p.fleet).perform d).2 :=
    .of_asked h (Agreement.check_asked p.fleet d).1
  rw [perform_tick]
  rcases hrun : (Agreement.check p.fleet).perform d with ⟨stop | _ | height, d₁⟩ <;>
    rw [hrun] at hcheck
  · exact hcheck
  · exact hcheck
  · have hheed : Inert [] d₁ ((heed p interval height).perform d₁).2 :=
      .of_stays hcheck.records.filed (heed_rehearses hdry interval height)
    exact hcheck.trans (hheed.mono fun _ hn => absurd hn List.not_mem_nil)

/-- One errand that is rehearsed, whatever it meets with. -/
theorem Errand.inert (hdry : p.dryRun = true) (h : Filed d.store) (e : Errand) :
    Inert (e.asked p) d (e.perform p d) := by
  cases e with
  | tick interval => exact Watch.tick_inert hdry h interval
  | attempt height => exact .of_stays h (Capture.run_rehearses hdry)
  | cleanup bucketName keep => exact .of_stays h (Sweep.cycle_rehearses hdry keep)

theorem errands_append (es es' : List Errand) :
    errands p d (es ++ es') = errands p (errands p d es) es' :=
  List.foldl_append

/-- All that is rehearsed, one errand after the other. -/
theorem errands_inert (hdry : p.dryRun = true) (h : Filed d.store) (es : List Errand) :
    Inert p.fleet d (errands p d es) := by
  induction es generalizing d with
  | nil => exact .refl p.fleet h
  | cons e es ih =>
    have hfirst : Inert p.fleet d (e.perform p d) := by
      refine (e.inert hdry h).mono fun n hn => ?_
      cases e with
      | tick interval => exact hn
      | _ => exact absurd hn List.not_mem_nil
    -- the records are in order after the errand, and the next one begins as this one did
    exact hfirst.trans (ih hfirst.records.filed)

end Errands

end FleetSnapshot
