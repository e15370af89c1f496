import FleetSnapshot.Proofs.Backed
import FleetSnapshot.Proofs.Ledger
import Mathlib.Data.List.Induction

/-! Uploads that cleanups do not come by any more. An attempt is marked as deleted while some of its
uploads are protected, and cleanups pass over attempts that are marked. Once such an upload loses its
protection it is out of reach, and nothing else puts an upload out of reach. -/

namespace FleetSnapshot

open Audit Sweep

/-- Carries out a plan to its end while the bucket keeps changing its mind: at each act it refuses to
remove other prefixes. -/
def Plan.runFickle {α : Type} (moods : Nat → List String) : Plan α → Deployment → α × Deployment
  | .done a, d => (a, d)
  | .step act next, d =>
    let (r, d) := Deployment.perform act { d with refusesRemoval := moods 0 }
    (next r).runFickle (fun n => moods (n + 1)) d

/-- The deployment comes up while the plan is carried out, whatever the bucket refuses to remove at
each act. -/
def Plan.Passes {α : Type} : Plan α → Deployment → Deployment → Prop
  | .done _, d, d' => d' = d
  | .step act next, d, d' => d' = d ∨ ∃ prefixes,
      (next (Deployment.perform act { d with refusesRemoval := prefixes }).1).Passes
        (Deployment.perform act { d with refusesRemoval := prefixes }).2 d'

namespace Plan

theorem passes_run {α : Type} (p : Plan α) (d : Deployment) : p.Passes d (p.run d).2 := by
  induction p generalizing d with
  | done a => rfl
  | step act next ih => exact Or.inr ⟨d.refusesRemoval, ih _ _⟩

theorem passes_runFickle {α : Type} (p : Plan α) (moods : Nat → List String) (d : Deployment) :
    p.Passes d (p.runFickle moods d).2 := by
  induction p generalizing moods d with
  | done a => rfl
  | step act next ih => exact Or.inr ⟨moods 0, ih _ _ _⟩

/-- What each act of a disciplined plan carries over holds all the way. -/
theorem Passes.maintains {σ α : Type} {D : Discipline σ} {I : σ → Deployment → Prop}
    (mood : ∀ c d prefixes, I c d → I c { d with refusesRemoval := prefixes })
    (step : ∀ {β : Type} (act : Act β) (c : σ) (d : Deployment), D.allows c act → I c d →
      D.expects c act (d.perform act).1 ∧ I (D.after c act (d.perform act).1) (d.perform act).2)
    {p : Plan α} {c : σ} {d d' : Deployment} {post : σ → α → Prop} (h : p.Passes d d')
    (hp : p.Keeps D c post) (hI : I c d) : ∃ c', I c' d' := by
  induction p generalizing c d with
  | done a =>
    obtain rfl := h
    exact ⟨c, hI⟩
  | step act next ih =>
    rcases h with rfl | ⟨prefixes, h⟩
    · exact ⟨c, hI⟩
    · obtain ⟨he, hI'⟩ := step act c _ hp.1 (mood c d prefixes hI)
      exact ih _ h (hp.2 _ he) hI'

end Plan

/-- What happens to a deployment from one moment at which the program is idle to the next. An attempt
may find the hosts, the gate and the bucket in any state. -/
inductive Move where
  | attempt (p : Capture.Plant) (height : UInt64) (hosts : List Host) (gate : Gate)
      (refusesPut : Bool)
  | cleanup (b : Broom) (keep : Nat) (moods : Nat → List String)
  | persistAttempt (id : Int) (value : Bool)
  | persistUpload (id : Int) (value : Bool)

def Move.after (d : Deployment) : Move → Deployment
  | .attempt p height hosts gate refusesPut =>
    ((Capture.run p height).perform { d with hosts, gate, refusesPut }).2
  | .cleanup b keep moods => ((cycle b keep).run.runFickle moods d).2
  | .persistAttempt id value => (d.perform (.audit (.persistAttempt id value))).2
  | .persistUpload id value => (d.perform (.audit (.persistUpload id value))).2

def history (d : Deployment) (ms : List Move) : Deployment := ms.foldl Move.after d

namespace Audit.Store

/-- Cleanups come by the attempt as long as it has not been deleted. -/
def reachable (s : Store) (attemptId : Int) : Bool :=
  s.attempts.any fun a => a.id == attemptId && !a.deleted

/-- The row of an upload that may go, though no cleanup comes by. -/
def orphan (s : Store) (r : UploadRow) : Bool := r.eligible && !s.reachable r.attemptId

end Audit.Store

def Orphaned (s : Store) (id : Int) : Prop := ∃ r ∈ s.uploads, r.id = id ∧ s.orphan r = true

/-- The move takes the protection from an upload that has outlived its attempt. -/
def Withdraws (s : Store) (id : Int) (m : Move) : Prop :=
  ∃ r ∈ s.uploads, r.id = id ∧ r.status = Progress.success.text ∧ r.persisted = true ∧
    r.deleted = false ∧ s.reachable r.attemptId = false ∧
    (m = .persistUpload id false ∨ m = .persistAttempt r.attemptId false)

section Store

variable {s s' : Store} {id : Int}

/-- An upload is as much of an orphan as before if its row is, whatever has been done to it. -/
theorem orphaned_map {f : UploadRow → UploadRow} (hu : s'.uploads = s.uploads.map f)
    (hid : ∀ r, (f r).id = r.id)
    (hf : ∀ r ∈ s.uploads, r.id = id → s'.orphan (f r) = s.orphan r) :
    Orphaned s' id ↔ Orphaned s id := by
  constructor
  · rintro ⟨r', hr', hrid, horphan⟩
    rw [hu] at hr'
    obtain ⟨r, hr, rfl⟩ := List.mem_map.1 hr'
    rw [hid] at hrid
    exact ⟨r, hr, hrid, hf r hr hrid ▸ horphan⟩
  · rintro ⟨r, hr, hrid, horphan⟩
    exact ⟨f r, hu ▸ List.mem_map_of_mem hr, (hid r).trans hrid, (hf r hr hrid).trans horphan⟩

theorem orphan_of_reachable {r : UploadRow} (h : s.reachable r.attemptId = true) :
    s.orphan r = false := by
  rw [Store.orphan, h, Bool.not_true, Bool.and_false]

theorem orphan_of_not_eligible {r : UploadRow} (h : r.eligible = false) : s.orphan r = false := by
  rw [Store.orphan, h, Bool.false_and]

/-- What is done to the uploads of attempts within reach makes no orphan. -/
theorem orphaned_within {f : UploadRow → UploadRow} (hid : ∀ r, (f r).id = r.id)
    (hattempt : ∀ r, (f r).attemptId = r.attemptId)
    (hf : ∀ r ∈ s.uploads, f r = r ∨ s.reachable r.attemptId = true) (id : Int) :
    Orphaned (s.mapUploads f) id ↔ Orphaned s id := by
  refine orphaned_map (Store.mapUploads_uploads s f) hid fun r hr _ => ?_
  have hsame : (s.mapUploads f).reachable = s.reachable := rfl
  rcases hf r hr with heq | hreach
  · rw [heq, Store.orphan, hsame, Store.orphan]
  · rw [orphan_of_reachable hreach, orphan_of_reachable]
    rw [hattempt, hsame, hreach]

end Store

section Cleanup

/-- A change of the attempts that keeps their numbers, and keeps the flag of those with this one. -/
theorem reachable_mapAttempts {s : Store} {g : AttemptRow → AttemptRow} {attemptId : Int}
    (hid : ∀ a, (g a).id = a.id) (hg : ∀ a, a.id = attemptId → (g a).deleted = a.deleted) :
    (s.mapAttempts g).reachable attemptId = s.reachable attemptId := by
  rw [Store.reachable, Store.mapAttempts_attempts, List.any_map, Store.reachable]
  congr 1
  funext a
  by_cases h : a.id = attemptId
  · simp [hid, hg a h]
  · simp [hid, beq_false_of_ne h]

/-- What an attempt that is marked leaves behind is either protected or marked with it. -/
theorem markDeleted_orphans {s : Store} (h : s.Ready) {attemptId : Int}
    (hreach : s.reachable attemptId = true) :
    (∀ id, Orphaned (markDeleted attemptId s).2 id ↔ Orphaned s id) ∧
      ∀ other, other ≠ attemptId →
        (markDeleted attemptId s).2.reachable other = s.reachable other := by
  have hexact := markDeleted_exact h attemptId
  split at hexact
  case isFalse => rw [hexact]; exact ⟨fun _ => Iff.rfl, fun _ _ => rfl⟩
  case isTrue =>
    rw [hexact]
    have hothers : ∀ other, other ≠ attemptId → ((s.mapAttempts fun a =>
        if a.id == attemptId && !a.persisted then { a with deleted := true } else a).mapUploads fun u =>
        if u.attemptId == attemptId && !u.persisted then { u with deleted := true } else u).reachable
          other = s.reachable other := by
      intro other hne
      refine reachable_mapAttempts (fun a => by split <;> rfl) fun a hid => ?_
      rw [if_neg (by simp [hid, hne])]
    refine ⟨fun id => orphaned_map (Store.mapUploads_uploads _ _) (fun r => by split <;> rfl)
      fun r _ _ => ?_, hothers⟩
    by_cases hid : r.attemptId = attemptId
    · have hwas : s.orphan r = false := orphan_of_reachable (hid ▸ hreach)
      rw [hwas, orphan_of_not_eligible]
      cases hp : r.persisted <;> simp [hid, hp, UploadRow.eligible]
    · rw [if_neg (by simp [hid]), Store.orphan, hothers _ hid, Store.orphan]

/-- The attempts that are due are within reach until they are marked, and there are just the orphans
that there were. -/
structure Spares (s₀ : Store) (c : Ledger) (d : Deployment) : Prop where
  booked : Booked c d
  filed : Filed d.store
  standing : ∀ a ∈ c.due, a.id ∉ c.marked → d.store.reachable a.id = true
  orphans : ∀ id, Orphaned d.store id ↔ Orphaned s₀ id

variable {keep : Nat} {s₀ : Store} {c : Ledger} {d : Deployment}

theorem Spares.within (h : Spares s₀ c d) {id : Int} {pre : String} (ho : c.Offers id pre)
    {r : UploadRow} (hr : r ∈ d.store.uploads) (hid : r.id = id) :
    d.store.reachable r.attemptId = true := by
  obtain ⟨a, ha, hmark, u, hu, huid, -⟩ := ho
  rw [(h.booked.own a ha u hu r hr (hid.trans huid.symm)).1]
  exact h.standing a ha hmark

/-- The row of an upload that is offered is marked, or its mark taken away. -/
theorem Spares.offered (h : Spares s₀ c d) {id : Int} {pre : String} (ho : c.Offers id pre)
    {f : UploadRow → UploadRow} (hid : ∀ r, (f r).id = r.id)
    (hattempt : ∀ r, (f r).attemptId = r.attemptId) (hf : ∀ r, r.id ≠ id → f r = r) (id' : Int) :
    Orphaned (d.store.mapUploads f) id' ↔ Orphaned s₀ id' := by
  refine (orphaned_within hid hattempt (fun r hr => ?_) id').trans (h.orphans id')
  by_cases hrid : r.id = id
  · exact Or.inr (h.within ho hr hrid)
  · exact Or.inl (hf r hrid)

theorem Spares.perform {β : Type} (act : Act β) (h : Spares s₀ c d)
    (hallows : (books keep).allows c act) :
    (books keep).expects c act (d.perform act).1 ∧
      Spares s₀ ((books keep).after c act (d.perform act).1) (d.perform act).2 := by
  obtain ⟨he, hbooked⟩ := h.booked.perform act hallows
  have hfiled : Filed (d.perform act).2.store :=
    h.filed.touches (d.perform_touches act h.booked.calm.alone (books_adds hallows)).2
  have hstore := h.booked.store act hallows
  suffices hrest : (∀ a ∈ ((books keep).after c act (d.perform act).1).due,
      a.id ∉ ((books keep).after c act (d.perform act).1).marked →
      (d.perform act).2.store.reachable a.id = true) ∧
      ∀ id, Orphaned (d.perform act).2.store id ↔ Orphaned s₀ id from
    ⟨he, hbooked, hfiled, hrest.1, hrest.2⟩
  cases act with
  | audit op =>
    cases op with
    | successful =>
      rw [show (d.perform (.audit .successful)).2.store = d.store from hstore]
      refine ⟨?_, h.orphans⟩
      rcases hs : (d.perform (.audit .successful)).1 with e | as
      · exact h.standing
      · intro a ha _
        obtain ⟨row, hrow, hrec⟩ := source_of_mem (successful_ok hs) (mem_surplus ha).1
        rw [candidates, (Order.sort_perm _ _).mem_iff, List.mem_filter, Bool.and_eq_true,
          Bool.not_eq_true'] at hrow
        exact List.any_eq_true.2 ⟨row, hrow.1, by simp [hrec.reads.id, hrow.2.2]⟩
    | getUpload id =>
      rw [show (d.perform (.audit (.getUpload id))).2.store = d.store from hstore]
      exact ⟨h.standing, h.orphans⟩
    | getAttempt id =>
      rw [show (d.perform (.audit (.getAttempt id))).2.store = d.store from hstore]
      exact ⟨h.standing, h.orphans⟩
    | claim id =>
      obtain ⟨-, -, pre, ho⟩ := hallows
      rw [hstore]
      refine ⟨?_, h.offered ho (fun r => by split <;> rfl) (fun r => by split <;> rfl) fun r hne => ?_⟩
      · rcases (d.perform (.audit (.claim id))).1 with e | _ | _ <;> exact h.standing
      · rw [if_neg (by simp [hne])]
    | release id =>
      obtain ⟨-, pre, ho⟩ := hallows
      rw [hstore]
      refine ⟨h.standing, h.offered ho (fun r => by split <;> rfl) (fun r => by split <;> rfl)
        fun r hne => ?_⟩
      rw [if_neg (by simpa using hne)]
    | markDeleted id =>
      obtain ⟨-, hmark, a, ha, rfl, -⟩ := hallows
      obtain ⟨horphans, hothers⟩ := markDeleted_orphans h.booked.calm.ready (h.standing a ha hmark)
      refine ⟨fun a' ha' hmark' => ?_, fun id => (horphans id).trans (h.orphans id)⟩
      have hne : a'.id ≠ a.id := fun heq => hmark' (heq ▸ List.mem_cons_self)
      exact (hothers a'.id hne).trans
        (h.standing a' ha' fun hmem => hmark' (List.mem_cons_of_mem _ hmem))
    | _ => exact hallows.elim
  | openRemoval upload pre =>
    rw [show (d.perform (.openRemoval upload pre)).2.store = d.store from hstore]
    exact ⟨h.standing, h.orphans⟩
  | closeRemoval upload pre =>
    rw [show (d.perform (.closeRemoval upload pre)).2.store = d.store from hstore]
    refine ⟨?_, h.orphans⟩
    rcases (d.perform (.closeRemoval upload pre)).1 with e | _ <;> exact h.standing
  | _ => exact hallows.elim

end Cleanup

section Persist

variable {s s' : Store} {id : Int} {p : UploadRow → Bool} {value : Bool} {m : Move}

theorem orphan_iff {r : UploadRow} : s.orphan r = true ↔ r.status = Progress.success.text ∧
    r.deleted = false ∧ s.reachable r.attemptId = false ∧ r.persisted = false := by
  simp only [Store.orphan, UploadRow.eligible, Bool.and_eq_true, beq_iff_eq, Bool.not_eq_true']
  tauto

/-- Protection is set or cleared for some of the uploads, those apart that it does not reach because
they are deleted. -/
theorem orphaned_persist (hreach : ∀ attemptId, s'.reachable attemptId = s.reachable attemptId)
    (hu : s'.uploads = s.uploads.map fun r =>
      if p r && (!r.deleted || !value) then { r with persisted := value } else r)
    (hset : ∀ r ∈ s.uploads, r.id = id → s.reachable r.attemptId = false →
      ((p r = true ∧ value = true) ↔ m = .persistUpload id true) ∧
        ((p r = true ∧ value = false) ↔
          m = .persistUpload id false ∨ m = .persistAttempt r.attemptId false)) :
    Orphaned s' id ↔ Orphaned s id ∧ m ≠ .persistUpload id true ∨ Withdraws s id m := by
  have hrow : ∀ r ∈ s.uploads, r.id = id →
      (s'.orphan (if p r && (!r.deleted || !value) then { r with persisted := value } else r) = true ↔
        s.orphan r = true ∧ m ≠ .persistUpload id true ∨ r.status = Progress.success.text ∧
          r.persisted = true ∧ r.deleted = false ∧ s.reachable r.attemptId = false ∧
          (m = .persistUpload id false ∨ m = .persistAttempt r.attemptId false)) := by
    intro r hr hid
    cases hx : s.reachable r.attemptId with
    | true =>
      have hafter : s'.orphan (if p r && (!r.deleted || !value) then
          { r with persisted := value } else r) = false :=
        orphan_of_reachable (by rw [← hx, ← hreach]; split <;> rfl)
      rw [hafter, orphan_of_reachable hx]
      simp
    | false =>
      obtain ⟨hprotects, hclears⟩ := hset r hr hid hx
      rw [Ne, ← hprotects, ← hclears, orphan_iff, orphan_iff, hreach]
      clear hset hu hprotects hclears
      cases p r <;> cases value <;> cases hd : r.deleted <;> cases hv : r.persisted <;>
        simp [hx, hd, hv]
  constructor
  · rintro ⟨r', hr', hid, horphan⟩
    rw [hu] at hr'
    obtain ⟨r, hr, rfl⟩ := List.mem_map.1 hr'
    have hrid : r.id = id := by
      rw [← hid]
      split <;> rfl
    rcases (hrow r hr hrid).1 horphan with ⟨hwas, hm⟩ | hwithdrawn
    · exact Or.inl ⟨⟨r, hr, hrid, hwas⟩, hm⟩
    · exact Or.inr ⟨r, hr, hrid, hwithdrawn⟩
  · intro h
    have hrow' : ∃ r ∈ s.uploads, r.id = id ∧
        s'.orphan (if p r && (!r.deleted || !value) then { r with persisted := value } else r) = true := by
      rcases h with ⟨⟨r, hr, hid, hwas⟩, hm⟩ | ⟨r, hr, hid, hwithdrawn⟩
      · exact ⟨r, hr, hid, (hrow r hr hid).2 (Or.inl ⟨hwas, hm⟩)⟩
      · exact ⟨r, hr, hid, (hrow r hr hid).2 (Or.inr hwithdrawn)⟩
    obtain ⟨r, hr, hid, horphan⟩ := hrow'
    refine ⟨_, hu ▸ List.mem_map_of_mem hr, ?_, horphan⟩
    rw [← hid]
    split <;> rfl

end Persist

structure AtRest (d : Deployment) : Prop where
  calm : Calm d
  filed : Filed d.store

section Moves

variable {d : Deployment}

theorem AtRest.perform (h : AtRest d) {β : Type} {act : Act β} (hadds : ¬ act.Adds) :
    AtRest (d.perform act).2 :=
  ⟨h.calm.perform hadds, h.filed.touches (d.perform_touches act h.calm.alone hadds).2⟩

/-- A move that takes no protection away from an upload by itself, and gives it none. -/
theorem orphaned_otherwise {s s' : Store} {id : Int} {m : Move}
    (h : Orphaned s' id ↔ Orphaned s id) (hm : ∀ id value, m ≠ .persistUpload id value)
    (hm' : ∀ id value, m ≠ .persistAttempt id value) :
    Orphaned s' id ↔ Orphaned s id ∧ m ≠ .persistUpload id true ∨ Withdraws s id m := by
  rw [h]
  constructor
  · exact fun ho => Or.inl ⟨ho, hm _ _⟩
  · rintro (⟨ho, -⟩ | ⟨r, -, -, -, -, -, -, hw | hw⟩)
    · exact ho
    · exact absurd hw (hm _ _)
    · exact absurd hw (hm' _ _)

theorem AtRest.cleanup (h : AtRest d) (b : Broom) (keep : Nat) (moods : Nat → List String) :
    AtRest (Move.after d (.cleanup b keep moods)) ∧
      ∀ id, Orphaned (Move.after d (.cleanup b keep moods)).store id ↔ Orphaned d.store id := by
  have hstart : Spares d.store {} d :=
    ⟨.start h.calm, h.filed, List.forall_mem_nil _, fun _ => Iff.rfl⟩
  obtain ⟨c, hc⟩ := (Plan.passes_runFickle (cycle b keep).run moods d).maintains
    (I := Spares d.store) (D := books keep)
    (fun c d _ hc => ⟨⟨⟨hc.booked.calm.alone, hc.booked.calm.ready, hc.booked.calm.numbered⟩,
      hc.booked.unlisted, hc.booked.own⟩, hc.filed, hc.standing, hc.orphans⟩)
    (fun act c d hallows hc => hc.perform act hallows) (cycle_books b keep) hstart
  exact ⟨⟨hc.booked.calm, hc.filed⟩, hc.orphans⟩

/-- The uploads of an attempt that is not over yet are within reach, and those on record belong to
others. -/
theorem Underway.orphans {s s' : Store} {a : AttemptRow} {us : List UploadRow} (hs : Filed s)
    (h : Underway s a us s') (id : Int) : Orphaned s' id ↔ Orphaned s id := by
  have hold : ∀ r ∈ s.uploads, s'.orphan r = s.orphan r := by
    intro r hr
    obtain ⟨a', ha', hid⟩ := hs.owned r hr
    have hnodup := h.filed.numbered.attempts
    rw [h.attempts, List.map_append, List.nodup_append] at hnodup
    have hne : a.id ≠ r.attemptId :=
      fun heq => hnodup.2.2 _ (List.mem_map_of_mem ha') _ List.mem_cons_self (hid.trans heq.symm)
    have hsame : s'.reachable r.attemptId = s.reachable r.attemptId := by
      simp [Store.reachable, h.attempts, beq_false_of_ne hne]
    rw [Store.orphan, hsame, Store.orphan]
  have hnew : ∀ u ∈ us, s'.orphan u = false := by
    intro u hu
    refine orphan_of_reachable (List.any_eq_true.2 ⟨a, ?_, ?_⟩)
    · rw [h.attempts]
      exact List.mem_append_right _ List.mem_cons_self
    · simp [h.own u hu, h.stands]
  constructor
  · rintro ⟨r, hr, hid, horphan⟩
    rw [h.uploads, List.mem_append] at hr
    rcases hr with hr | hr
    · exact ⟨r, hr, hid, hold r hr ▸ horphan⟩
    · exact absurd (horphan.symm.trans (hnew r hr)) (by decide)
  · rintro ⟨r, hr, hid, horphan⟩
    exact ⟨r, h.uploads ▸ List.mem_append_left _ hr, hid, (hold r hr).trans horphan⟩

theorem AtRest.attempt (h : AtRest d) (p : Capture.Plant) (height : UInt64) (hosts : List Host)
    (gate : Gate) (refusesPut : Bool) :
    AtRest (Move.after d (.attempt p height hosts gate refusesPut)) ∧
      ∀ id, Orphaned (Move.after d (.attempt p height hosts gate refusesPut)).store id ↔
        Orphaned d.store id := by
  let d₁ := { d with hosts, gate, refusesPut }
  have hwritten : (Capture.run p height).Keeps follows d₁.store _ _ :=
    Capture.run_written p h.filed
  obtain ⟨halone, hspent⟩ := Plan.run_alone (Capture.run p height).run d₁ h.calm.alone
  have idle : ∀ {d' : Deployment}, d'.meanwhile = [] → d'.store.refusals <:+ d.store.refusals →
      Filed d'.store → AtRest d' := fun halone hspent hfiled =>
    ⟨⟨halone, hfiled.plain.ready h.calm.ready hspent, hfiled.numbered⟩, hfiled⟩
  rcases Job.perform_follows hwritten with hs | ⟨a, us, hus, -⟩
  · refine ⟨idle halone hspent (h.filed.touches (Touches.of_alike hs)), fun id => ?_⟩
    refine orphaned_map (f := fun r => r) ?_ (fun _ => rfl) fun r _ _ => ?_
    · rw [List.map_id']
      exact hs.uploads
    · have hsame : ((Capture.run p height).perform d₁).2.store.reachable = d.store.reachable := by
        funext attemptId
        rw [Store.reachable, hs.attempts]
        rfl
      exact congrArg (r.eligible && !· r.attemptId) hsame
  · exact ⟨idle halone hspent hus.filed, hus.orphans h.filed⟩

theorem AtRest.persistUpload (h : AtRest d) (id : Int) (value : Bool) (id' : Int) :
    Orphaned (Move.after d (.persistUpload id value)).store id' ↔
      Orphaned d.store id' ∧ Move.persistUpload id value ≠ .persistUpload id' true ∨
        Withdraws d.store id' (.persistUpload id value) := by
  have hstore : (Move.after d (.persistUpload id value)).store = d.store.mapUploads fun u =>
      if u.id == id && (!u.deleted || !value) then { u with persisted := value } else u :=
    persistUpload_exact h.calm.ready id value
  rw [hstore]
  refine orphaned_persist (p := fun r => r.id == id) (fun _ => rfl)
    (Store.mapUploads_uploads _ _) fun r _ hid _ => ?_
  subst hid
  simp [@eq_comm _ r.id id]

theorem AtRest.persistAttempt (h : AtRest d) (id : Int) (value : Bool) (id' : Int) :
    Orphaned (Move.after d (.persistAttempt id value)).store id' ↔
      Orphaned d.store id' ∧ Move.persistAttempt id value ≠ .persistUpload id' true ∨
        Withdraws d.store id' (.persistAttempt id value) := by
  have hexact := persistAttempt_exact h.calm.ready id value
  have hchanged : (Move.after d (.persistAttempt id value)).store =
      (Audit.persistAttempt id value d.store).2 := rfl
  rw [hchanged]
  split at hexact
  case isTrue hany =>
    rw [hexact]
    refine orphaned_persist (p := fun r => r.attemptId == id)
      (fun _ => reachable_mapAttempts (fun a => by split <;> rfl) fun a _ => by split <;> rfl)
      (Store.mapUploads_uploads _ _) fun r _ _ hx => ?_
    -- an attempt that protection reaches has not been deleted, unless protection is taken away
    have hcleared : r.attemptId = id → value = false := by
      rintro rfl
      obtain ⟨a, ha, hsel⟩ := List.any_eq_true.1 hany
      have hgone := List.any_eq_false.1 hx a ha
      cases value with
      | false => rfl
      | true =>
        simp only [Bool.and_eq_true, beq_iff_eq, Bool.not_true, Bool.or_false] at hsel hgone
        exact absurd hsel hgone
    constructor
    · simp only [beq_iff_eq, reduceCtorEq, iff_false, not_and, Bool.not_eq_true]
      exact hcleared
    · simp [@eq_comm _ r.attemptId id]
  case isFalse hnone =>
    rw [hexact]
    -- there is no attempt of this number then, and no upload of it
    constructor
    · exact fun ho => Or.inl ⟨ho, nofun⟩
    · rintro (⟨ho, -⟩ | ⟨r, hr, -, -, -, -, -, hw⟩)
      · exact ho
      · obtain ⟨hid, hvalue⟩ : id = r.attemptId ∧ value = false := by simpa using hw
        obtain ⟨a, ha, haid⟩ := h.filed.owned r hr
        exact absurd (List.any_eq_true.2 ⟨a, ha, by simp [haid, hid, hvalue]⟩) hnone

/-- An upload is put out of reach by losing its protection when its attempt has gone, and is not brought
back but by protecting it anew. -/
theorem AtRest.after (h : AtRest d) (m : Move) :
    AtRest (m.after d) ∧ ∀ id, Orphaned (m.after d).store id ↔
      Orphaned d.store id ∧ m ≠ .persistUpload id true ∨ Withdraws d.store id m := by
  cases m with
  | attempt p height hosts gate refusesPut =>
    obtain ⟨hrest, horphans⟩ := h.attempt p height hosts gate refusesPut
    exact ⟨hrest, fun id => orphaned_otherwise (horphans id) nofun nofun⟩
  | cleanup b keep moods =>
    obtain ⟨hrest, horphans⟩ := h.cleanup b keep moods
    exact ⟨hrest, fun id => orphaned_otherwise (horphans id) nofun nofun⟩
  | persistAttempt id value =>
    have hadds : ¬ (Act.audit (Op.persistAttempt id value)).Adds := fun h => h
    exact ⟨h.perform hadds, h.persistAttempt id value⟩
  | persistUpload id value =>
    have hadds : ¬ (Act.audit (Op.persistUpload id value)).Adds := fun h => h
    exact ⟨h.perform hadds, h.persistUpload id value⟩

end Moves

/-- Something is at some place of a list: at the end of it, or somewhere before. -/
theorem exists_split_snoc {α : Type} {as : List α} {a : α}
    {P : List α → α → List α → Prop} :
    (∃ before x after, as ++ [a] = before ++ x :: after ∧ P before x after) ↔
      P as a [] ∨ ∃ before x after, as = before ++ x :: after ∧ P before x (after ++ [a]) := by
  constructor
  · rintro ⟨before, x, after, heq, hP⟩
    rcases List.eq_nil_or_concat after with rfl | ⟨after, y, rfl⟩
    · obtain ⟨rfl, hx⟩ := List.append_inj' heq rfl
      cases hx
      exact Or.inl hP
    · rw [List.concat_eq_append, ← List.cons_append, ← List.append_assoc] at heq
      rw [List.concat_eq_append] at hP
      obtain ⟨rfl, hy⟩ := List.append_inj' heq rfl
      cases hy
      exact Or.inr ⟨before, x, after, rfl, hP⟩
  · rintro (hP | ⟨before, x, after, rfl, hP⟩)
    · exact ⟨as, a, [], rfl, hP⟩
    · exact ⟨before, x, after ++ [a], by simp, hP⟩

/-- Whatever a deployment has been through, an upload that may go is out of reach of all cleanups just
if it lost its protection when its attempt had gone already, and has not been protected since. -/
theorem orphaned_iff_withdrawn {d : Deployment} (htables : d.store.tables = {})
    (htriggers : d.store.triggers = []) (hrefusals : d.store.refusals = [])
    (halone : d.meanwhile = []) (ms : List Move) (id : Int) :
    Orphaned (history d ms).store id ↔ ∃ before m after, ms = before ++ m :: after ∧
      Withdraws (history d before).store id m ∧ Move.persistUpload id true ∉ after := by
  have hfiled := Filed.fresh htables htriggers
  have hrest : AtRest d :=
    ⟨⟨halone, hfiled.plain.ready ⟨htriggers, hrefusals, hfiled.plain.attemptTable,
      hfiled.plain.uploadTable⟩ (List.suffix_refl _), hfiled.numbered⟩, hfiled⟩
  suffices hboth : AtRest (history d ms) ∧ (Orphaned (history d ms).store id ↔
      ∃ before m after, ms = before ++ m :: after ∧
        Withdraws (history d before).store id m ∧ Move.persistUpload id true ∉ after) from hboth.2
  induction ms using List.reverseRecOn with
  | nil =>
    refine ⟨hrest, ⟨?_, ?_⟩⟩
    · rintro ⟨r, hr, -⟩
      rw [history, List.foldl_nil, Store.uploads, htables, Option.getD_some] at hr
      cases hr
    · rintro ⟨before, m, after, hnil, -⟩
      exact absurd hnil (by simp)
  | append_singleton ms m ih =>
    obtain ⟨hbefore, hiff⟩ := ih
    obtain ⟨hafter, hstep⟩ := hbefore.after m
    have hlast : history d (ms ++ [m]) = m.after (history d ms) := List.foldl_append ..
    rw [exists_split_snoc, hlast]
    refine ⟨hafter, (hstep id).trans ?_⟩
    rw [hiff, or_comm]
    refine or_congr (by simp) ⟨?_, ?_⟩
    · rintro ⟨⟨before, m', after, hms, hw, hlater⟩, hm⟩
      refine ⟨before, m', after, hms, hw, fun hmem => ?_⟩
      rcases List.mem_append.1 hmem with hmem | hmem
      · exact hlater hmem
      · exact hm (List.mem_singleton.1 hmem).symm
    · rintro ⟨before, m', after, hms, hw, hlater⟩
      refine ⟨⟨before, m', after, hms, hw, fun hmem => ?_⟩, fun hm => ?_⟩
      · exact hlater (List.mem_append_left _ hmem)
      · exact hlater (List.mem_append_right _ (hm ▸ List.mem_cons_self))

namespace Capture

def blank : Deployment where
  hosts := []
  store := { clock := fun _ => default }
  gate := { blockInterval := 1000 }

def loneAttempt (height : UInt64) : Move :=
  .attempt lonePlant height (loneHost "0x3e8").hosts { blockInterval := 1000 } false

/-- The upload of the lower attempt is protected when a cleanup comes by. -/
def outliving : List Move :=
  [loneAttempt 1000, loneAttempt 2000, .persistUpload 1 true,
    .cleanup ⟨false, "bucket"⟩ 1 fun _ => []]

end Capture

open Capture

theorem outlived_withdraws : Withdraws (history blank outliving).store 1 (.persistUpload 1 false) := by
  have hrow : ∃ r ∈ (history blank outliving).store.uploads, r.id = 1 ∧
      r.status = Progress.success.text ∧ r.persisted = true ∧ r.deleted = false ∧
      (history blank outliving).store.reachable r.attemptId = false := by
    decide +kernel
  obtain ⟨r, hr, hid, hstatus, hpers, hdel, hreach⟩ := hrow
  exact ⟨r, hr, hid, hstatus, hpers, hdel, hreach, Or.inl rfl⟩

theorem orphaned_outlived :
    blank.store.tables = {} ∧ blank.store.triggers = [] ∧ blank.store.refusals = [] ∧
      blank.meanwhile = [] ∧
      Orphaned (history blank (outliving ++ [.persistUpload 1 false])).store 1 := by
  refine ⟨rfl, rfl, rfl, rfl, (orphaned_iff_withdrawn rfl rfl rfl rfl _ 1).2 ?_⟩
  exact ⟨outliving, .persistUpload 1 false, [], rfl, outlived_withdraws, List.not_mem_nil⟩

/-- An upload may go, though its attempt has gone before it. -/
theorem upload_out_of_reach :
    ¬ ∀ (d : Deployment) (ms : List Move), d.store.tables = {} → d.store.triggers = [] →
      d.store.refusals = [] → d.meanwhile = [] →
      ∀ r ∈ (history d ms).store.uploads, r.eligible = true →
        ∃ a ∈ (history d ms).store.attempts, a.id = r.attemptId ∧ a.deleted = false := by
  intro h
  have hstray : ∃ r ∈ (history blank (outliving ++ [.persistUpload 1 false])).store.uploads,
      r.eligible = true ∧ ∀ a ∈ (history blank (outliving ++ [.persistUpload 1 false])).store.attempts,
        a.id = r.attemptId → a.deleted = true := by
    decide +kernel
  obtain ⟨r, hr, helig, hgone⟩ := hstray
  obtain ⟨a, ha, hid, hdel⟩ := h blank _ rfl rfl rfl rfl r hr helig
  exact absurd ((hgone a ha hid).symm.trans hdel) (by decide)

end FleetSnapshot
