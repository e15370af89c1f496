import FleetSnapshot.Proofs.Operation
import FleetSnapshot.Proofs.Sweeping
import Mathlib.Data.List.Nodup

/-! Cleanups that run at the same time, while operators protect records and let go of them. A
removal of data is only ever under way for a row that the cleanup has claimed, and a claim is held
by one cleanup alone: what makes a row claimable is gone as soon as it is claimed, and only the
holder brings it back. -/

namespace FleetSnapshot.Sweep

open Audit Query

structure Crew where
  deployment : Deployment
  cycles : List (Plan (Except Stop (Option Report))) := []

/-- A cleanup starts, one that has been started performs its next act, an operator calls the audit
store, or the bucket changes which prefixes it refuses to remove. -/
inductive Turn where
  | start (keep : Nat)
  | act (cycle : Nat)
  | persistAttempt (id : Int) (value : Bool)
  | persistUpload (id : Int) (value : Bool)
  | refuse (prefixes : List String)
  deriving DecidableEq, Repr

namespace Crew

def turn (b : Broom) (c : Crew) : Turn → Crew
  | .start keep => { c with cycles := c.cycles ++ [(cycle b keep).run] }
  | .act i =>
    match c.cycles[i]? with
    | none => c
    | some p =>
      let (p, d) := p.advance c.deployment
      { deployment := d, cycles := c.cycles.set i p }
  | .persistAttempt id value =>
    { c with deployment := (c.deployment.perform (.audit (.persistAttempt id value))).2 }
  | .persistUpload id value =>
    { c with deployment := (c.deployment.perform (.audit (.persistUpload id value))).2 }
  | .refuse prefixes => { c with deployment := { c.deployment with refusesRemoval := prefixes } }

def turns (b : Broom) (c : Crew) (ts : List Turn) : Crew := ts.foldl (turn b) c

/-- The upload whose data a cleanup is removing at the moment. -/
def removal? (c : Crew) (i : Nat) : Option Int :=
  match c.cycles[i]? with
  | some (.step (.closeRemoval upload _) _) => some upload
  | _ => none

end Crew

/-- A claim is won before a removal begins, and kept until the data is gone or the row released. -/
def claims : Discipline (Option Int) where
  allows c act := match act with
    | .audit .successful | .audit (.getUpload _) | .audit (.getAttempt _)
    | .audit (.markDeleted _) => True
    | .audit (.claim _) => c = none
    | .audit (.release id) | .openRemoval id _ | .closeRemoval id _ => c = some id
    | _ => False
  after c act r := match act, r with
    | .audit (.claim id), .ok true => some id
    | .audit (.release _), _ => none
    | .closeRemoval _ _, .ok () => none
    | _, _ => c

section Plans

open Job

variable {c : Option Int}

theorem claims_overlooks : claims.Overlooks :=
  ⟨fun _ _ => ⟨trivial, fun _ => rfl⟩, fun _ _ => ⟨trivial, fun _ => rfl⟩,
    fun _ _ => ⟨trivial, fun _ => rfl⟩⟩

theorem removeClaimed_keeps (u : Upload) :
    (removeClaimed u).Keeps claims (some u.id) (fun c _ => c = none) fun c _ => c = none := by
  simp only [removeClaimed, keeps_bind, keeps_act]
  refine ⟨rfl, fun _ _ => ⟨rfl, fun r _ => ?_⟩⟩
  cases r with
  | ok _ => rfl
  | error e => exact ⟨rfl, fun _ _ => rfl⟩

theorem removeUpload_keeps (b : Broom) (u : Upload) :
    Preserves claims (· = none) (removeUpload b u) := by
  rintro c rfl
  rw [removeUpload_eq]
  split
  · rfl
  split
  · exact recheck_stays (claims_overlooks.getUpload _ _) (stays_pure _)
  · rw [keeps_bind, keeps_audit]
    refine ⟨rfl, fun won _ => ?_, fun e _ => rfl⟩
    cases won with
    | true => exact removeClaimed_keeps u
    | false => exact recheck_stays (claims_overlooks.getUpload _ _) (stays_fail _)

theorem cycle_keeps (b : Broom) (keep : Nat) :
    (cycle b keep).Keeps claims none (fun c _ => c = none) fun c _ => c = none := by
  rw [cycle, keeps_bind, keeps_audit]
  refine ⟨trivial, fun as _ => ?_, fun _ _ => rfl⟩
  cases surplus keep as with
  | nil => rfl
  | cons a as =>
    rw [keeps_bind]
    have hall : Preserves claims (· = none) (sweepAll b (a :: as) {}) :=
      sweepAll_preserves claims_overlooks (fun _ _ u _ => removeUpload_keeps b u) {}
    exact (hall none rfl).mono (fun _ _ h => h) fun _ _ h => h

end Plans

/-- No two rows share a number, and none is protected as well as deleted. -/
structure Sound (s : Store) : Prop where
  ids : (s.uploads.map (·.id)).Nodup
  apart : ∀ r ∈ s.uploads, ¬ (r.persisted = true ∧ r.deleted = true)

def Taken (r : UploadRow) : Prop :=
  r.status = Progress.success.text ∧ r.deleted = true ∧ r.persisted = false

def TakenIn (s : Store) (id : Int) : Prop := ∃ r ∈ s.uploads, r.id = id ∧ Taken r

section Rows

variable {s s' : Store} {selects : UploadRow → Bool} {change : UploadRow → UploadRow}

theorem Sound.reaches (hs : Sound s) (h : Reaches selects change s s')
    (hid : ∀ r, (change r).id = r.id)
    (hc : ∀ r, selects r = true → ¬ (r.persisted = true ∧ r.deleted = true) →
      ¬ ((change r).persisted = true ∧ (change r).deleted = true)) : Sound s' := by
  obtain ⟨p, hp, hu⟩ := h
  constructor
  · have he : (fun r => (if p r then change r else r).id) = fun r : UploadRow => r.id := by
      funext r
      split
      · exact hid r
      · rfl
    rw [hu, List.map_map, Function.comp_def, he]
    exact hs.ids
  · intro r hr
    rw [hu] at hr
    obtain ⟨r, hmem, rfl⟩ := List.mem_map.1 hr
    split
    case isTrue hpr => exact hc r (hp r hpr) (hs.apart r hmem)
    case isFalse => exact hs.apart r hmem

theorem TakenIn.reaches {id : Int} (ht : TakenIn s id) (h : Reaches selects change s s')
    (hc : ∀ r, r.id = id → Taken r → selects r = true → (change r).id = id ∧ Taken (change r)) :
    TakenIn s' id := by
  obtain ⟨r, hr, hid, htaken⟩ := ht
  obtain ⟨p, hp, hu⟩ := h
  refine ⟨if p r then change r else r, hu ▸ List.mem_map_of_mem hr, ?_⟩
  split
  case isTrue hpr => exact hc r hid htaken (hp r hpr)
  case isFalse => exact ⟨hid, htaken⟩

theorem Sound.alike (hs : Sound s) (h : Alike s s') : Sound s' :=
  ⟨h.uploads ▸ hs.ids, h.uploads ▸ hs.apart⟩

theorem TakenIn.alike {id : Int} (ht : TakenIn s id) (h : Alike s s') : TakenIn s' id := by
  rwa [TakenIn, h.uploads]

/-- A claim takes a row that nobody holds, and leaves all others as they are. -/
theorem claim_takes (id : Int) (hs : Sound s) :
    Sound (claim id s).2 ∧ (∀ id', TakenIn s id' → TakenIn (claim id s).2 id') ∧
      ((claim id s).1 = .ok true → TakenIn (claim id s).2 id ∧ ¬ TakenIn s id) := by
  rcases claim_cases id s with ⟨e, h⟩ | ⟨p, hp, h⟩
  · rw [h]
    exact ⟨⟨hs.ids, hs.apart⟩, fun _ ht => ht, nofun⟩
  · have hr : Reaches p ({ · with deleted := true }) s (claim id s).2 :=
      ⟨p, fun _ h => h, by rw [h, Store.mapUploads_uploads, Store.begun_uploads]⟩
    refine ⟨hs.reaches hr (fun _ => rfl) fun r hpr _ => ?_, fun id' ht => ?_, fun hok => ?_⟩
    · simp [(hp r hpr).2.1]
    · exact ht.reaches hr fun r _ htaken hpr => absurd htaken.2.1 (by simp [(hp r hpr).2.2.1])
    · have hn : s.uploads.countP p = 1 := by
        rw [h] at hok
        simpa using hok
      obtain ⟨r, hr, hpr⟩ := List.countP_pos_iff.1 (by omega : 0 < s.uploads.countP p)
      obtain ⟨hid, hpers, hdel, hst⟩ := hp r hpr
      constructor
      · refine ⟨{ r with deleted := true }, ?_, hid, hst, rfl, hpers⟩
        rw [h, Store.mapUploads_uploads, Store.begun_uploads]
        exact List.mem_map.2 ⟨r, hr, by rw [if_pos hpr]⟩
      · rintro ⟨r', hr', hid', htaken⟩
        have := List.inj_on_of_nodup_map hs.ids hr hr' (hid.trans hid'.symm)
        subst this
        exact absurd htaken.2.1 (by simp [hdel])

theorem release_takes (id : Int) (hs : Sound s) :
    Sound (release id s).2 ∧ ∀ id', TakenIn s id' → id' ≠ id → TakenIn (release id s).2 id' := by
  refine ⟨hs.reaches (release_reaches id s) (fun _ => rfl) fun r _ _ => by simp, ?_⟩
  intro id' ht hne
  refine ht.reaches (release_reaches id s) fun r hid _ hsel => absurd ?_ hne
  rw [← hid]
  simpa using hsel

theorem markDeleted_takes (id : Int) (hs : Sound s) :
    Sound (markDeleted id s).2 ∧ ∀ id', TakenIn s id' → TakenIn (markDeleted id s).2 id' := by
  refine ⟨hs.reaches (markDeleted_reaches id s) (fun _ => rfl) fun r hsel _ => ?_, fun id' ht => ?_⟩
  · have hp : r.persisted = false := by simpa using (Bool.and_eq_true_iff.1 hsel).2
    simp [hp]
  · exact ht.reaches (markDeleted_reaches id s) fun r hid h _ => ⟨hid, h.1, rfl, h.2.2⟩

/-- What is deleted is not protected any more, so protection never gets in the way of a claim. -/
theorem persist_takes {value : Bool} (hs : Sound s)
    (h : Reaches selects ({ · with persisted := value }) s s')
    (hsel : ∀ r, selects r = true → r.deleted = false ∨ value = false) :
    Sound s' ∧ ∀ id, TakenIn s id → TakenIn s' id := by
  refine ⟨hs.reaches h (fun _ => rfl) fun r hr _ => ?_, fun id ht => ?_⟩
  · rcases hsel r hr with hd | hv
    · simp [hd]
    · simp [hv]
  · refine ht.reaches h fun r hid htaken hr => ⟨hid, htaken.1, htaken.2.1, ?_⟩
    rcases hsel r hr with hd | hv
    · exact absurd htaken.2.1 (by simp [hd])
    · exact hv

end Rows

theorem claims_after_claim {id id' : Int} {r : Except Error Bool}
    (h : claims.after none (.audit (.claim id)) r = some id') : r = .ok true ∧ id = id' := by
  rcases r with e | _ | _
  · cases (show none = some id' from h)
  · cases (show none = some id' from h)
  · exact ⟨rfl, Option.some.inj h⟩

/-- What an act makes of the claims: those of other cleanups stay, and a new one is for a row that
nobody has held. -/
theorem perform_claims {β : Type} (act : Act β) (c : Option Int) (d : Deployment)
    (hallows : claims.allows c act) (hcalm : d.meanwhile = []) (hs : Sound d.store)
    (hc : ∀ id, c = some id → TakenIn d.store id) :
    (d.perform act).2.meanwhile = [] ∧ Sound (d.perform act).2.store ∧
      (∀ id, TakenIn d.store id → c ≠ some id → TakenIn (d.perform act).2.store id) ∧
      ∀ id, claims.after c act (d.perform act).1 = some id →
        TakenIn (d.perform act).2.store id ∧ (c = some id ∨ ¬ TakenIn d.store id) := by
  have reading : ∀ {s' : Store}, Alike d.store s' →
      Sound s' ∧ (∀ id, TakenIn d.store id → c ≠ some id → TakenIn s' id) ∧
        ∀ id, c = some id → TakenIn s' id ∧ (c = some id ∨ ¬ TakenIn d.store id) :=
    fun h => ⟨hs.alike h, fun _ ht _ => ht.alike h, fun id hid => ⟨(hc id hid).alike h, .inl hid⟩⟩
  cases act with
  | audit op =>
    cases op with
    | successful => exact ⟨hcalm, reading (successful_alike d.store)⟩
    | getUpload id => exact ⟨hcalm, reading (getUpload_alike id d.store)⟩
    | getAttempt id => exact ⟨hcalm, reading (getAttempt_alike id d.store)⟩
    | markDeleted id =>
      obtain ⟨hs', ht⟩ := markDeleted_takes id hs
      exact ⟨hcalm, hs', fun id h _ => ht id h, fun id h => ⟨ht id (hc id h), .inl h⟩⟩
    | claim id =>
      obtain ⟨hs', hothers, hwon⟩ := claim_takes id hs
      refine ⟨hcalm, hs', fun id h _ => hothers id h, fun id' h => ?_⟩
      have hnone : c = none := hallows
      subst hnone
      obtain ⟨hok, rfl⟩ := claims_after_claim h
      exact ⟨(hwon hok).1, .inr (hwon hok).2⟩
    | release id =>
      obtain ⟨hs', ht⟩ := release_takes id hs
      refine ⟨hcalm, hs', fun id' h hne => ht id' h fun he => hne ?_, nofun⟩
      rw [he]
      exact hallows
    | _ => exact hallows.elim
  | openRemoval upload pre =>
    have hd : d.openRemoval upload pre = d.note (.removalOpened upload pre) := by
      simp only [Deployment.openRemoval, Deployment.note, hcalm, takeEntry]
    simp only [Deployment.perform, hd]
    exact ⟨hcalm, reading ⟨rfl, rfl⟩⟩
  | closeRemoval upload pre =>
    simp only [Deployment.perform, Deployment.closeRemoval]
    split
    · exact ⟨hcalm, hs, fun id h _ => h, nofun⟩
    · exact ⟨hcalm, reading ⟨rfl, rfl⟩⟩
  | _ => exact hallows.elim

/-- Every cleanup under way keeps to the rules for claims with what it holds, the claims are for
rows that are taken, and no two cleanups hold the same. -/
structure Guarded (c : Crew) (held : Nat → Option Int) : Prop where
  calm : c.deployment.meanwhile = []
  sound : Sound c.deployment.store
  keeps : ∀ (i : Nat) (p : Plan (Except Stop (Option Report))), c.cycles[i]? = some p →
    p.Keeps claims (held i) fun _ _ => True
  idle : ∀ i, c.cycles.length ≤ i → held i = none
  taken : ∀ i id, held i = some id → TakenIn c.deployment.store id
  apart : ∀ i j id, held i = some id → held j = some id → i = j

section Guarded

variable {b : Broom} {c : Crew} {held : Nat → Option Int}

theorem Guarded.withDeployment (h : Guarded c held) {d : Deployment} (hcalm : d.meanwhile = [])
    (hs : Sound d.store) (ht : ∀ id, TakenIn c.deployment.store id → TakenIn d.store id) :
    Guarded { c with deployment := d } held :=
  ⟨hcalm, hs, h.keeps, h.idle, fun i id hi => ht id (h.taken i id hi), h.apart⟩

theorem Guarded.start (h : Guarded c held) (keep : Nat) :
    Guarded (c.turn b (.start keep)) held := by
  refine ⟨h.calm, h.sound, fun i p hp => ?_, fun i hi => h.idle i ?_, h.taken, h.apart⟩
  · simp only [Crew.turn, List.getElem?_append] at hp
    split at hp
    · exact h.keeps i p hp
    · rename_i hi
      have hp' := List.mem_singleton.1 (List.mem_of_getElem? hp)
      rw [h.idle i (by omega), hp']
      exact Plan.Keeps.mono (cycle_keeps b keep) fun _ _ _ => trivial
  · simp only [Crew.turn, List.length_append] at hi
    omega

/-- One cleanup moves on and holds something else now. -/
theorem Guarded.set (h : Guarded c held) {i : Nat} {d : Deployment} {held' : Option Int}
    {p : Plan (Except Stop (Option Report))} (hi : i < c.cycles.length) (hcalm : d.meanwhile = [])
    (hs : Sound d.store)
    (hothers : ∀ id, TakenIn c.deployment.store id → held i ≠ some id → TakenIn d.store id)
    (hown : ∀ id, held' = some id →
      TakenIn d.store id ∧ (held i = some id ∨ ¬ TakenIn c.deployment.store id))
    (hp : p.Keeps claims held' fun _ _ => True) :
    Guarded { deployment := d, cycles := c.cycles.set i p } (Function.update held i held') := by
  -- another cleanup that held the new claim would have had its row taken before
  have clash : ∀ j id, j ≠ i → held' = some id → held j ≠ some id := by
    intro j id hj hid hheld
    rcases (hown id hid).2 with hsame | hfree
    · exact hj (h.apart j i id hheld hsame)
    · exact hfree (h.taken j id hheld)
  refine ⟨hcalm, hs, fun j q hq => ?_, fun j hj => ?_, fun j id hj => ?_, fun j k id hj hk => ?_⟩
  · rw [List.getElem?_set] at hq
    split at hq
    · rename_i hij
      subst hij
      rw [Function.update_self, ← Option.some.inj hq]
      exact hp
    · rename_i hij
      rw [Function.update_of_ne (Ne.symm hij)]
      exact h.keeps j q hq
  · rw [List.length_set] at hj
    rw [Function.update_of_ne (by omega)]
    exact h.idle j hj
  · by_cases hij : j = i
    · subst hij
      rw [Function.update_self] at hj
      exact (hown id hj).1
    · rw [Function.update_of_ne hij] at hj
      exact hothers id (h.taken j id hj) fun hsame => hij (h.apart j i id hj hsame)
  · by_cases hij : j = i <;> by_cases hik : k = i
    · rw [hij, hik]
    · subst hij
      rw [Function.update_self] at hj
      rw [Function.update_of_ne hik] at hk
      exact absurd hk (clash k id hik hj)
    · subst hik
      rw [Function.update_self] at hk
      rw [Function.update_of_ne hij] at hj
      exact absurd hj (clash j id hij hk)
    · rw [Function.update_of_ne hij] at hj
      rw [Function.update_of_ne hik] at hk
      exact h.apart j k id hj hk

theorem Guarded.act (h : Guarded c held) (i : Nat) : ∃ held', Guarded (c.turn b (.act i)) held' := by
  simp only [Crew.turn]
  split
  · exact ⟨held, h⟩
  rename_i p hp
  have hi : i < c.cycles.length := (List.getElem?_eq_some_iff.1 hp).1
  cases p with
  | done a =>
    exact ⟨_, h.set hi h.calm h.sound (fun _ ht _ => ht) (fun id hid => ⟨h.taken i id hid, .inl hid⟩)
      trivial⟩
  | step act next =>
    obtain ⟨hallows, hnext⟩ := h.keeps i _ hp
    obtain ⟨hcalm, hs, hothers, hown⟩ :=
      perform_claims act (held i) c.deployment hallows h.calm h.sound (h.taken i)
    exact ⟨_, h.set hi hcalm hs hothers hown (hnext _ trivial)⟩

theorem Guarded.turn (h : Guarded c held) (t : Turn) : ∃ held', Guarded (c.turn b t) held' := by
  cases t with
  | start keep => exact ⟨held, h.start keep⟩
  | act i => exact h.act i
  | persistAttempt id value =>
    obtain ⟨hs, ht⟩ := persist_takes h.sound (persistAttempt_reaches id value c.deployment.store)
      fun r hr => by simpa using (Bool.and_eq_true_iff.1 hr).2
    exact ⟨held, h.withDeployment h.calm hs ht⟩
  | persistUpload id value =>
    obtain ⟨hs, ht⟩ := persist_takes h.sound (persistUpload_reaches id value c.deployment.store)
      fun r hr => by simpa using (Bool.and_eq_true_iff.1 hr).2
    exact ⟨held, h.withDeployment h.calm hs ht⟩
  | refuse prefixes => exact ⟨held, h.withDeployment h.calm h.sound fun _ ht => ht⟩

theorem Guarded.turns (h : Guarded c held) (ts : List Turn) :
    ∃ held', Guarded (c.turns b ts) held' := by
  induction ts generalizing c held with
  | nil => exact ⟨held, h⟩
  | cons t ts ih =>
    obtain ⟨held', h'⟩ := h.turn (b := b) t
    exact ih h'

/-- A cleanup that is removing data holds the claim on its row. -/
theorem Guarded.removal (h : Guarded c held) {i : Nat} {id : Int} (hr : c.removal? i = some id) :
    held i = some id := by
  unfold Crew.removal? at hr
  split at hr
  · rename_i upload pre next hp
    rw [← Option.some.inj hr]
    exact (h.keeps i _ hp).1
  · exact nomatch hr

end Guarded

theorem guarded_nobody (d : Deployment) (hcalm : d.meanwhile = []) (hs : Sound d.store) :
    Guarded { deployment := d } fun _ => none :=
  ⟨hcalm, hs, nofun, fun _ _ => rfl, nofun, nofun⟩

/-- Whatever cleanups are under way, at every moment in which data is being removed on behalf of a
row, that row is a complete upload, marked as deleted and unprotected, and no other cleanup is
removing data on its behalf. So nothing is ever removed for a row that is protected. -/
theorem removal_under_claim (b : Broom) (d : Deployment) (hcalm : d.meanwhile = [])
    (hids : (d.store.uploads.map (·.id)).Nodup)
    (happart : ∀ r ∈ d.store.uploads, ¬ (r.persisted = true ∧ r.deleted = true)) (ts : List Turn) :
    let c := Crew.turns b { deployment := d } ts
    (∀ i id, c.removal? i = some id →
      (∃ r ∈ c.deployment.store.uploads, r.id = id) ∧
        ∀ r ∈ c.deployment.store.uploads, r.id = id →
          r.status = Progress.success.text ∧ r.deleted = true ∧ r.persisted = false) ∧
      ∀ i j id, c.removal? i = some id → c.removal? j = some id → i = j := by
  obtain ⟨held, h⟩ := (guarded_nobody d hcalm ⟨hids, happart⟩).turns (b := b) ts
  refine ⟨fun i id hr => ?_, fun i j id hi hj => h.apart i j id (h.removal hi) (h.removal hj)⟩
  obtain ⟨r, hmem, hid, htaken⟩ := h.taken i id (h.removal hr)
  refine ⟨⟨r, hmem, hid⟩, fun r' hmem' hid' => ?_⟩
  rw [List.inj_on_of_nodup_map h.sound.ids hmem' hmem (hid'.trans hid.symm)]
  exact htaken

def twoRecords : Deployment where
  hosts := []
  gate := { blockInterval := 1 }
  store := {
    clock := fun _ => default
    tables := {
      attempts := some [{ (default : AttemptRow) with id := 1, status := Progress.success.text }]
      uploads := some <| [1, 2].map fun id =>
        { (default : UploadRow) with id, attemptId := 1, status := Progress.success.text } } }

/-- Two cleanups list the records. The first claims one of them, whose protection comes too late, and
the second goes on to the other, which has been protected in time. -/
def crowdedTurns : List Turn :=
  [.start 0, .start 0, .act 0, .act 1, .act 0, .persistUpload 1 true, .persistUpload 2 true, .act 0,
    .act 1, .act 1, .act 1]

theorem removal_under_claim_crowded :
    (Crew.turns ⟨false, "bucket"⟩ { deployment := twoRecords } crowdedTurns).removal? 0 = some 1 ∧
      ∀ r ∈ (Crew.turns ⟨false, "bucket"⟩ { deployment := twoRecords }
          crowdedTurns).deployment.store.uploads,
        r.id = 1 → r.status = Progress.success.text ∧ r.deleted = true ∧ r.persisted = false := by
  have hr : (Crew.turns ⟨false, "bucket"⟩ { deployment := twoRecords } crowdedTurns).removal? 0 =
      some 1 := by decide +kernel
  exact ⟨hr, ((removal_under_claim ⟨false, "bucket"⟩ twoRecords rfl (by decide) (by decide)
    crowdedTurns).1 0 1 hr).2⟩

end FleetSnapshot.Sweep
