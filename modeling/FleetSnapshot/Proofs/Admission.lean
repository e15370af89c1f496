import FleetSnapshot.Proofs.Written
import Mathlib.Data.List.Count

/-! Callers of attempts that take turns in any order, while the nodes and the bucket answer as they
like. The gate lets one of them in at a time: only this one has a guard of the gate, and only its
attempt may be on record as running. -/

namespace FleetSnapshot.Capture

open Audit Job

/-- A caller of an attempt. It has a guard from the moment it is let in until it leaves. -/
structure Caller where
  plan : Plan (Except Stop Attempt)
  guard : Bool := false

/-- A caller that is to leave without an outcome waits for a command that goes on for ever. It never
gets as far as leaving. -/
def Caller.waits (q : Caller) : Bool :=
  match q.plan with
  | .step .leave next =>
    match next () with
    | .done (.error .hung) => true
    | _ => false
  | _ => false

def Caller.asks (q : Caller) : Bool :=
  match q.plan with
  | .step .enter _ => true
  | _ => false

def guardAfter {β : Type} (act : Act β) (answer : β) (guard : Bool) : Bool :=
  match act, answer with
  | .enter, .ok () => true
  | .leave, _ => false
  | _, _ => guard

structure Crowd where
  deployment : Deployment
  callers : List Caller := []

/-- An attempt is called for, a caller performs its next act, or the nodes and the bucket become
others. -/
inductive Turn where
  | call (p : Plant) (height : UInt64)
  | act (caller : Nat)
  | elsewhere (hosts : List Host) (refusesPut : Bool)

namespace Crowd

def turn (c : Crowd) : Turn → Crowd
  | .call p height => { c with callers := c.callers ++ [{ plan := (run p height).run }] }
  | .act i =>
    match c.callers[i]? with
    | none => c
    | some q =>
      if q.waits then c
      else
        match q.plan with
        | .done _ => c
        | .step act next =>
          let (r, d) := c.deployment.perform act
          { deployment := d, callers := c.callers.set i ⟨next r, guardAfter act r q.guard⟩ }
  | .elsewhere hosts refusesPut => { c with deployment := { c.deployment with hosts, refusesPut } }

def turns (c : Crowd) (ts : List Turn) : Crowd := ts.foldl turn c

end Crowd

/-- What a caller does that has been let in. The state is the number of its attempt as long as that
is running; the audit store does not refuse to put an attempt on record or to end it. -/
def attends : Discipline (Option Int) where
  allows r act := match act with
    | .command _ _ | .put _ _ | .phase _ => True
    | .audit (.createAttempt _ _) => r = none
    | .audit (.finishAttempt id status _) => r = some id ∧ status ≠ .running
    | .audit (.createUpload _ _ _ _) | .audit (.finishUpload _ _ _) | .audit (.getAttempt _) => True
    | _ => False
  expects _ act := match act with
    | .audit (.createAttempt _ _) | .audit (.finishAttempt _ _ _) => fun x => ∃ a, x = .ok a
    | _ => fun _ => True
  after r act := match act with
    | .audit (.createAttempt _ _) => fun
      | .ok a => some a.id
      | .error _ => r
    | .audit (.finishAttempt _ _ _) => fun _ => none
    | _ => fun _ => r

section Plans

variable {r : Option Int} {p : Plant} {height : UInt64}

theorem attends_unmoved : attends.Unmoved := fun _ _ _ => ⟨trivial, fun _ => rfl⟩

theorem attends_unphased : attends.Unphased := fun _ _ => ⟨trivial, fun _ => rfl⟩

theorem attends_overlooks (attemptId : Int) : Overlooks attends r p attemptId height where
  createUpload _ := ⟨trivial, fun _ => rfl⟩
  finishUpload _ _ _ := ⟨trivial, fun _ => rfl⟩

theorem drive_attends (attemptId : Int) : Stays attends r (drive p attemptId height) :=
  drive_stays attends_unmoved attends_unphased (attends_overlooks attemptId) ⟨trivial, fun _ => rfl⟩

/-- Whatever becomes of the attempt, it is not running any more, unless it waits for ever. -/
theorem record_attends (attemptId : Int) :
    (record p attemptId height).Keeps attends (some attemptId) (fun r _ => r = none)
      fun r s => s = .hung ∨ r = none := by
  have hconcludes : Concludes attends attemptId (· = some attemptId) (· = some attemptId) (· = none) := by
    refine ⟨?_, ?_, ?_⟩
    · rintro r rfl
      refine ⟨⟨rfl, by decide⟩, fun x hx => ?_⟩
      obtain ⟨a, rfl⟩ := hx
      exact rfl
    · rintro r rfl message
      exact ⟨⟨rfl, by decide⟩, fun _ _ => rfl⟩
    · rintro r rfl
      exact ⟨trivial, fun _ _ => rfl⟩
  refine (record_keeps attends_unphased hconcludes (drive_attends attemptId)).mono (fun _ _ h => h)
    fun r s h => ?_
  exact h.symm.imp_left And.left

theorem attempt_attends (p : Plant) (height : UInt64) :
    (do
      let a ← Job.audit (.createAttempt height p.dryRun)
      record p a.id height : Job Attempt).Keeps attends none (fun r _ => r = none)
        fun r s => s = .hung ∨ r = none := by
  simp only [keeps_bind, keeps_audit]
  refine ⟨rfl, fun a _ => record_attends a.id, fun e he => ?_⟩
  obtain ⟨a, ha⟩ := he
  cases ha

end Plans

/-- The audit store is in order and refuses nothing, and of its attempts only this one may be
running. -/
structure Running (r : Option Int) (s : Store) : Prop where
  filed : Filed s
  ready : s.Ready
  running : ∀ a ∈ s.attempts, a.status = Progress.running.text → r = some a.id

structure Vacant (d : Deployment) : Prop where
  free : d.gate.inProgress = false
  unstarted : d.gate.startedAt = none
  settled : d.gate.phase.settled = d.gate.phase
  running : Running none d.store

/-- Somebody is let in, whose attempt may be running. -/
structure Occupied (r : Option Int) (d : Deployment) : Prop where
  held : d.gate.inProgress = true
  started : d.gate.startedAt.isSome = true
  running : Running r d.store

section Store

variable {r : Option Int} {s : Store}

theorem Running.op {α : Type} (h : Running r s) (op : Op α)
    (hsame : (op.run s).2.attempts = s.attempts) : Running r (op.run s).2 := by
  have hfiled := h.filed.op op
  exact ⟨hfiled, hfiled.plain.ready h.ready (op.spends s), hsame ▸ h.running⟩

theorem Running.create (h : Running none s) (height : UInt64) (dryRun : Bool) :
    ∃ a, ((Op.createAttempt height dryRun).run s).1 = .ok a ∧
      Running (some a.id) ((Op.createAttempt height dryRun).run s).2 := by
  have hfiled := h.filed.op (.createAttempt height dryRun)
  have hready := hfiled.plain.ready h.ready ((Op.createAttempt height dryRun).spends s)
  obtain ⟨a, hid, hcreated⟩ := createAttempt_goes h.filed.plain h.ready.refusal height dryRun
  have hrun : (Op.createAttempt height dryRun).run s = _ := hcreated
  rw [hrun] at hfiled hready ⊢
  refine ⟨a, rfl, hfiled, hready, fun row hrow hstatus => ?_⟩
  rcases List.mem_append.1 hrow with hrow | hrow
  · exact absurd (h.running row hrow hstatus) nofun
  · rw [List.mem_singleton.1 hrow, hid]
    rfl

theorem Running.finish {id : Int} (h : Running (some id) s) {status : Progress}
    (hstatus : status ≠ .running) (message : Option String) :
    (∃ u, ((Op.finishAttempt id status message).run s).1 = .ok u) ∧
      Running none ((Op.finishAttempt id status message).run s).2 := by
  have hfiled := h.filed.op (.finishAttempt id status message)
  have hready := hfiled.plain.ready h.ready ((Op.finishAttempt id status message).spends s)
  have hrun : (Op.finishAttempt id status message).run s = _ :=
    finishAttempt_plain h.filed.plain id status message
  rw [h.ready.refusal] at hrun
  rw [hrun] at hfiled hready ⊢
  refine ⟨⟨(), rfl⟩, hfiled, hready, fun row hrow hrunning => ?_⟩
  rw [Store.mapAttempts_attempts] at hrow
  obtain ⟨a, ha, rfl⟩ := List.mem_map.1 hrow
  split at hrunning
  case isTrue =>
    have hne : status.text ≠ Progress.running.text := by cases status <;> simp_all [Progress.text]
    exact absurd hrunning hne
  case isFalse hnot =>
    obtain rfl : id = a.id := Option.some.inj (h.running a ha hrunning)
    exact absurd (by simp [hrunning]) hnot

theorem createUpload_attempts (h : s.triggers = []) (id : Int) (target pre : String)
    (dryRun : Bool) : ((Op.createUpload id target pre dryRun).run s).2.attempts = s.attempts := by
  change (createUpload id target pre dryRun s).2.attempts = _
  rcases createUpload_cases h id target pre dryRun with ⟨e, -, hs⟩ | ⟨u, -, -, hs⟩
  · exact hs.attempts
  · rw [hs]
    rfl

theorem finishUpload_attempts (h : s.Plain) (id : Int) (status : Progress)
    (message : Option String) :
    ((Op.finishUpload id status message).run s).2.attempts = s.attempts := by
  change (finishUpload id status message s).2.attempts = _
  rw [finishUpload_plain h]
  cases s.refusal? <;> rfl

end Store

/-- What an act of the caller that has been let in leaves of the deployment. -/
theorem Occupied.perform {β : Type} {r : Option Int} {d : Deployment} (act : Act β)
    (h : Occupied r d) (hallows : attends.allows r act) :
    attends.expects r act (d.perform act).1 ∧
      Occupied (attends.after r act (d.perform act).1) (d.perform act).2 := by
  obtain ⟨hheld, hstarted, hrunning⟩ := h
  have hplain := hrunning.filed.plain
  cases act with
  | command node text =>
    refine ⟨trivial, ?_⟩
    simp only [Deployment.perform, Deployment.command]
    split <;> exact ⟨hheld, hstarted, hrunning⟩
  | put key text =>
    refine ⟨trivial, ?_⟩
    simp only [Deployment.perform, Deployment.put]
    split <;> exact ⟨hheld, hstarted, hrunning⟩
  | phase φ => exact ⟨trivial, hheld, hstarted, hrunning⟩
  | audit op =>
    cases op with
    | createAttempt height dryRun =>
      obtain rfl : r = none := hallows
      obtain ⟨a, ha, hcreated⟩ := hrunning.create height dryRun
      refine ⟨⟨a, ha⟩, hheld, hstarted, ?_⟩
      rw [show (d.perform (.audit (.createAttempt height dryRun))).1 = .ok a from ha]
      exact hcreated
    | finishAttempt id status message =>
      obtain ⟨rfl, hstatus⟩ := hallows
      obtain ⟨hok, hfinished⟩ := hrunning.finish hstatus message
      exact ⟨hok, hheld, hstarted, hfinished⟩
    | createUpload id target pre dryRun =>
      have hsame := createUpload_attempts hplain.triggers id target pre dryRun
      exact ⟨trivial, hheld, hstarted, hrunning.op (.createUpload id target pre dryRun) hsame⟩
    | finishUpload id status message =>
      have hsame := finishUpload_attempts hplain id status message
      exact ⟨trivial, hheld, hstarted, hrunning.op (.finishUpload id status message) hsame⟩
    | getAttempt id =>
      have hsame := (getAttempt_alike id d.store).attempts
      exact ⟨trivial, hheld, hstarted, hrunning.op (.getAttempt id) hsame⟩
    | _ => exact hallows.elim
  | _ => exact hallows.elim

section Gate

variable {d : Deployment}

theorem Vacant.enter (h : Vacant d) :
    ∃ d', d.perform .enter = (.ok (), d') ∧ Occupied none d' := by
  obtain ⟨hfiled, hready, hrunning⟩ := h.running
  refine ⟨{ d with
    gate := { d.gate with
      inProgress := true, phase := .idle, startedAt := some (d.store.clock d.store.ticks) }
    store := { d.store with ticks := d.store.ticks + 1 } }, ?_, rfl, rfl,
    hfiled.touches (Touches.of_same rfl rfl),
    ⟨hready.triggers, hready.refusals, hready.attemptTable, hready.uploadTable⟩, hrunning⟩
  simp [Deployment.perform, Deployment.enter, Gate.enter, h.free]

/-- The gate is held, and nothing comes of it. -/
theorem enter_held (h : d.gate.inProgress = true) : d.perform .enter = (.error .busy, d) := by
  simp only [Deployment.perform, Deployment.enter, Gate.enter, h, if_true]

theorem Occupied.leave (h : Occupied none d) : Vacant (d.perform .leave).2 := by
  refine ⟨rfl, rfl, ?_, h.running⟩
  change d.gate.phase.settled.settled = d.gate.phase.settled
  cases d.gate.phase <;> rfl

end Gate

/-- A caller that has not asked to be let in yet, or that is through. -/
inductive Outside : Caller → Prop
  | fresh (p : Plant) (height : UInt64) : Outside { plan := (run p height).run }
  | through (a : Except Stop Attempt) : Outside { plan := .done a }

/-- A caller that has been let in. It leaves when there is nothing else left to do. -/
inductive Within (r : Option Int) : Caller → Prop
  | mk (j : Plan (Except Stop Attempt))
      (h : j.Keeps attends r fun r a => a = .error .hung ∨ r = none) :
      Within r { plan := j.bind fun a => .step .leave fun _ => .done a, guard := true }

/-- First of all a caller asks to be let in. -/
theorem run_begins (p : Plant) (height : UInt64) : ∃ next, (run p height).run = .step .enter next ∧
    (∀ e, next (.error e) = .done (.error (.failed e))) ∧
    Within none { plan := next (.ok ()), guard := true } := by
  refine ⟨_, rfl, fun _ => rfl, ?_⟩
  refine Within.mk (ExceptT.run (do
    let a ← Job.audit (.createAttempt height p.dryRun)
    record p a.id height)) (Plan.Keeps.mono (attempt_attends p height) fun r x hx => ?_)
  rcases x with (e | _) | a
  · exact hx.imp (congrArg Except.error) id
  · exact Or.inl rfl
  · exact Or.inr hx

/-- A caller that has been let in keeps its guard and waits for nothing as long as it has things to
do. -/
theorem attends_inside {β : Type} {r : Option Int} {act : Act β} (h : attends.allows r act) :
    (∀ next guard, Caller.waits { plan := .step act next, guard } = false) ∧
      ∀ x guard, guardAfter act x guard = guard := by
  cases act with
  | openRemoval upload pre => exact h.elim
  | closeRemoval upload pre => exact h.elim
  | enter => exact h.elim
  | leave => exact h.elim
  | agreed height next => exact h.elim
  | _ => exact ⟨fun _ _ => rfl, fun _ _ => rfl⟩

/-- Nobody is let in and nobody has a guard, or one caller is let in and has the only guard. -/
inductive Ordered (c : Crowd) : Prop
  | vacant (h : Vacant c.deployment) (hout : ∀ q ∈ c.callers, Outside q)
  | occupied {i : Nat} {r : Option Int} {q : Caller} (h : Occupied r c.deployment)
      (hi : c.callers[i]? = some q) (hq : Within r q)
      (hout : ∀ (j : Nat) (q' : Caller), c.callers[j]? = some q' → j ≠ i → Outside q')

namespace Crowd

variable {c : Crowd}

theorem turn_act {i : Nat} {q : Caller} (hq : c.callers[i]? = some q) :
    c.turn (.act i) = if q.waits then c else match q.plan with
      | .done _ => c
      | .step act next => { deployment := (c.deployment.perform act).2
                            callers := c.callers.set i ⟨next (c.deployment.perform act).1,
                              guardAfter act (c.deployment.perform act).1 q.guard⟩ } := by
  simp only [turn, hq]

theorem turn_step {i : Nat} {β : Type} {act : Act β} {next : β → Plan (Except Stop Attempt)}
    {guard : Bool} (hq : c.callers[i]? = some ⟨.step act next, guard⟩)
    (hwaits : Caller.waits ⟨.step act next, guard⟩ = false) :
    c.turn (.act i) = { deployment := (c.deployment.perform act).2
                        callers := c.callers.set i ⟨next (c.deployment.perform act).1,
                          guardAfter act (c.deployment.perform act).1 guard⟩ } := by
  rw [turn_act hq, hwaits]
  rfl

theorem turn_done {i : Nat} {a : Except Stop Attempt} {guard : Bool}
    (hq : c.callers[i]? = some ⟨.done a, guard⟩) : c.turn (.act i) = c := by
  rw [turn_act hq]
  exact if_neg Bool.false_ne_true

/-- A caller that finds the gate free is let in. -/
theorem turn_admitted {i : Nat} {p : Plant} {height : UInt64}
    (hq : c.callers[i]? = some { plan := (run p height).run }) (hvacant : Vacant c.deployment) :
    ∃ d q, c.turn (.act i) = { deployment := d, callers := c.callers.set i q } ∧
      Occupied none d ∧ Within none q := by
  obtain ⟨next, hrun, -, hwithin⟩ := run_begins p height
  obtain ⟨d, henter, hoccupied⟩ := hvacant.enter
  rw [hrun] at hq
  rw [turn_step hq rfl, henter]
  exact ⟨d, _, rfl, hoccupied, hwithin⟩

/-- A caller that finds the gate held is told so, and has done nothing. -/
theorem turn_refused {i : Nat} {p : Plant} {height : UInt64}
    (hq : c.callers[i]? = some { plan := (run p height).run })
    (hheld : c.deployment.gate.inProgress = true) :
    c.turn (.act i) =
      { c with callers := c.callers.set i { plan := .done (.error (.failed .busy)) } } := by
  obtain ⟨next, hrun, hrefused, -⟩ := run_begins p height
  rw [hrun] at hq
  rw [turn_step hq rfl, enter_held hheld, hrefused]
  rfl

end Crowd

theorem Outside.guard {q : Caller} (h : Outside q) : q.guard = false := by cases h <;> rfl

theorem Within.guard {r : Option Int} {q : Caller} (h : Within r q) : q.guard = true := by
  cases h
  rfl

/-- A caller that has been let in does not ask for it again. -/
theorem Within.asks {r : Option Int} {q : Caller} (h : Within r q) : q.asks = false := by
  cases h with
  | mk j hj =>
    cases j with
    | done a => rfl
    | step act next =>
      cases act with
      | enter => exact hj.1.elim
      | _ => rfl

theorem countP_of_only {α : Type _} {p : α → Bool} {xs : List α} {i : Nat} {x : α}
    (hi : xs[i]? = some x) (hx : p x = true)
    (hothers : ∀ j y, xs[j]? = some y → j ≠ i → p y = false) : xs.countP p = 1 := by
  induction xs generalizing i with
  | nil => cases hi
  | cons y ys ih =>
    cases i with
    | zero =>
      obtain rfl : y = x := Option.some.inj hi
      have hnone : ys.countP p = 0 := List.countP_eq_zero.2 fun z hz hpz => by
        obtain ⟨j, hj⟩ := List.getElem?_of_mem hz
        exact absurd hpz (by simp [hothers (j + 1) z hj (Nat.succ_ne_zero j)])
      rw [List.countP_cons_of_pos hx, hnone]
    | succ i =>
      have hy := hothers 0 y rfl (Nat.succ_ne_zero i).symm
      rw [List.countP_cons_of_neg (by simp [hy])]
      exact ih hi fun j z hj hne => hothers (j + 1) z hj fun h => hne (Nat.succ.inj h)

namespace Ordered

variable {c : Crowd}

theorem call (h : Ordered c) (p : Plant) (height : UInt64) : Ordered (c.turn (.call p height)) := by
  have hfresh := Outside.fresh p height
  cases h with
  | vacant h hout =>
    refine .vacant h fun q hq => ?_
    rcases List.mem_append.1 hq with hq | hq
    · exact hout q hq
    · exact List.mem_singleton.1 hq ▸ hfresh
  | occupied h hi hq hout =>
    have hlt := (List.getElem?_eq_some_iff.1 hi).1
    refine .occupied h ((List.getElem?_append_left hlt).trans hi) hq fun j q' hj hne => ?_
    change (c.callers ++ _)[j]? = some q' at hj
    rw [List.getElem?_append] at hj
    split at hj
    · exact hout j q' hj hne
    · exact List.mem_singleton.1 (List.mem_of_getElem? hj) ▸ hfresh

theorem elsewhere (h : Ordered c) (hosts : List Host) (refusesPut : Bool) :
    Ordered (c.turn (.elsewhere hosts refusesPut)) := by
  cases h with
  | vacant h hout => exact .vacant ⟨h.free, h.unstarted, h.settled, h.running⟩ hout
  | occupied h hi hq hout => exact .occupied ⟨h.held, h.started, h.running⟩ hi hq hout

/-- A caller that finds the gate held is through, and nothing else has changed. -/
theorem refused (h : Ordered c) {i : Nat} {p : Plant} {height : UInt64}
    (hi : c.callers[i]? = some { plan := (run p height).run })
    (hheld : c.deployment.gate.inProgress = true) : Ordered (c.turn (.act i)) := by
  rw [Crowd.turn_refused hi hheld]
  cases h with
  | vacant h hout => exact absurd hheld (by simp [h.free])
  | @occupied k r holder h hk hholder hout =>
    have hne : i ≠ k := by
      rintro rfl
      rw [hi] at hk
      cases hk
      exact absurd hholder.guard Bool.false_ne_true
    refine .occupied h (by rwa [List.getElem?_set_ne hne]) hholder fun j q' hj hjk => ?_
    rw [List.getElem?_set] at hj
    split at hj
    · split at hj
      · cases hj
        exact .through _
      · cases hj
    · exact hout j q' hj hjk

/-- A caller that is let in is the only one. -/
theorem entered {i : Nat} {p : Plant} {height : UInt64} (h : Vacant c.deployment)
    (hout : ∀ q ∈ c.callers, Outside q)
    (hi : c.callers[i]? = some { plan := (run p height).run }) : Ordered (c.turn (.act i)) := by
  obtain ⟨d, q, hturn, hoccupied, hwithin⟩ := Crowd.turn_admitted hi h
  have hlt := (List.getElem?_eq_some_iff.1 hi).1
  rw [hturn]
  refine .occupied (i := i) hoccupied (List.getElem?_set_self hlt) hwithin fun j q' hj hne => ?_
  rw [List.getElem?_set_ne hne.symm] at hj
  exact hout q' (List.mem_of_getElem? hj)

/-- The caller that has been let in leaves, and the gate is free. -/
theorem left {i : Nat} {a : Except Stop Attempt} (h : Occupied none c.deployment)
    (hi : c.callers[i]? = some { plan := .step .leave fun _ => .done a, guard := true })
    (hout : ∀ (j : Nat) (q' : Caller), c.callers[j]? = some q' → j ≠ i → Outside q')
    (ha : a ≠ .error .hung) : Ordered (c.turn (.act i)) := by
  have hwaits : Caller.waits { plan := .step .leave fun _ => .done a, guard := true } = false := by
    rcases a with (e | _) | a
    · rfl
    · exact absurd rfl ha
    · rfl
  rw [Crowd.turn_step hi hwaits]
  refine .vacant h.leave fun q' hq' => ?_
  obtain ⟨j, hj⟩ := List.getElem?_of_mem hq'
  rw [List.getElem?_set] at hj
  split at hj
  case isTrue =>
    split at hj
    · cases hj
      exact .through a
    · cases hj
  case isFalse hne => exact hout j q' hj (Ne.symm hne)

/-- The caller that has been let in goes on, or it leaves. -/
theorem held {i : Nat} {r : Option Int} {q : Caller} (h : Occupied r c.deployment)
    (hi : c.callers[i]? = some q) (hq : Within r q)
    (hout : ∀ (j : Nat) (q' : Caller), c.callers[j]? = some q' → j ≠ i → Outside q') :
    Ordered (c.turn (.act i)) := by
  cases hq with
  | mk j hkeeps =>
    cases j with
    | done a =>
      -- a caller whose attempt has no outcome never gets to leave, and keeps its guard
      by_cases ha : a = .error .hung
      · subst ha
        rw [Crowd.turn_act hi]
        exact .occupied h hi (.mk (.done (.error .hung)) hkeeps) hout
      · obtain rfl : r = none := hkeeps.resolve_left ha
        exact left h hi hout ha
    | step act next =>
      obtain ⟨hallows, hkeeps⟩ := hkeeps
      obtain ⟨hwaits, hguard⟩ := attends_inside hallows
      obtain ⟨hexpects, hoccupied⟩ := h.perform act hallows
      have hlt := (List.getElem?_eq_some_iff.1 hi).1
      rw [Crowd.turn_step hi (hwaits _ _), hguard]
      refine .occupied (i := i) hoccupied (List.getElem?_set_self hlt)
        (.mk (next _) (hkeeps _ hexpects)) fun j q' hj hne => ?_
      rw [List.getElem?_set_ne hne.symm] at hj
      exact hout j q' hj hne

theorem turn (h : Ordered c) (t : Turn) : Ordered (c.turn t) := by
  cases t with
  | call p height => exact h.call p height
  | elsewhere hosts refusesPut => exact h.elsewhere hosts refusesPut
  | act i =>
    cases hi : c.callers[i]? with
    | none =>
      rw [show c.turn (.act i) = c by simp only [Crowd.turn, hi]]
      exact h
    | some q =>
      cases id h with
      | vacant hvacant hout =>
        cases hout q (List.mem_of_getElem? hi) with
        | fresh p height => exact entered hvacant hout hi
        | through a => exact (Crowd.turn_done hi).symm ▸ h
      | @occupied k r holder hoccupied hk hholder hout =>
        -- only the one inside gets at the deployment; the others can but be turned away
        by_cases hik : i = k
        · subst hik
          obtain rfl : holder = q := Option.some.inj (hk.symm.trans hi)
          exact held hoccupied hi hholder hout
        · cases hout i q hi hik with
          | fresh p height => exact h.refused hi hoccupied.held
          | through a => exact (Crowd.turn_done hi).symm ▸ h

theorem turns (h : Ordered c) (ts : List Turn) : Ordered (c.turns ts) := by
  induction ts generalizing c with
  | nil => exact h
  | cons t ts ih => exact ih (h.turn t)

/-- As many callers have a guard as are let in. -/
theorem guards (h : Ordered c) :
    c.callers.countP (·.guard) = c.deployment.gate.inProgress.toNat := by
  cases h with
  | vacant h hout =>
    rw [h.free, List.countP_eq_zero.2 fun q hq => by simp [(hout q hq).guard]]
    rfl
  | @occupied i r q h hi hq hout =>
    rw [h.held]
    exact countP_of_only hi hq.guard fun j q' hj hne => (hout j q' hj hne).guard

/-- Whoever asks to be let in has done nothing yet. -/
theorem asks_untouched (h : Ordered c) {i : Nat} {q : Caller} (hi : c.callers[i]? = some q)
    (hasks : q.asks = true) : ∃ p height, q = { plan := (run p height).run } := by
  have houtside : Outside q → ∃ p height, q = { plan := (run p height).run } := by
    rintro (⟨p, height⟩ | a)
    · exact ⟨p, height, rfl⟩
    · cases hasks
  cases h with
  | vacant h hout => exact houtside (hout q (List.mem_of_getElem? hi))
  | @occupied k r holder h hk hholder hout =>
    by_cases hik : i = k
    · subst hik
      obtain rfl : holder = q := Option.some.inj (hk.symm.trans hi)
      exact absurd hasks (by simp [hholder.asks])
    · exact houtside (hout i q hi hik)

end Ordered

theorem Running.atMostOne {r : Option Int} {s : Store} (h : Running r s) :
    s.attempts.countP (·.status == Progress.running.text) ≤ 1 := by
  by_cases hany : ∃ a ∈ s.attempts, a.status = Progress.running.text
  · obtain ⟨a, ha, hrunning⟩ := hany
    have hone := count_of_mem (p := (·.id == a.id)) h.filed.numbered.attempts ha (by simp) (by simp)
    refine Nat.le_trans (List.countP_mono_left fun a' ha' hrunning' => ?_) (Nat.le_of_eq hone)
    have hsame := (h.running a ha hrunning).symm.trans (h.running a' ha' (by simpa using hrunning'))
    simpa using (Option.some.inj hsame).symm
  · rw [List.countP_eq_zero.2 fun a ha hrunning => hany ⟨a, ha, by simpa using hrunning⟩]
    exact Nat.zero_le _

/-- The gate, the guards of the callers, the phase and the record agree on whether somebody is let
in. -/
structure Gated (c : Crowd) : Prop where
  /-- One attempt at most is on record as running. -/
  alone : c.deployment.store.attempts.countP (·.status == Progress.running.text) ≤ 1
  running : (∃ a ∈ c.deployment.store.attempts, a.status = Progress.running.text) →
    c.deployment.gate.inProgress = true
  guards : c.callers.countP (·.guard) = c.deployment.gate.inProgress.toNat
  started : c.deployment.gate.startedAt.isSome = c.deployment.gate.inProgress
  phase : c.deployment.gate.phase ∈ [Phase.preparing, .uploading, .restoring] →
    c.deployment.gate.inProgress = true
  /-- Whoever asks to be let in has done nothing yet. Where the gate is held it is turned away, and
  the deployment is as before. -/
  refused : ∀ (i : Nat) (q : Caller), c.callers[i]? = some q → q.asks = true →
    (∃ p height, q = { plan := (run p height).run }) ∧
      (c.deployment.gate.inProgress = true → c.turn (.act i) =
        { c with callers := c.callers.set i { plan := .done (.error (.failed .busy)) } })
  admitted : ∀ (i : Nat) (q : Caller), c.callers[i]? = some q → q.asks = true →
    c.deployment.gate.inProgress = false →
      (c.turn (.act i)).deployment.gate.inProgress = true ∧
        ∃ q', (c.turn (.act i)).callers[i]? = some q' ∧ q'.guard = true

theorem Ordered.gated {c : Crowd} (h : Ordered c) : Gated c := by
  have hrunning : ∃ r, Running r c.deployment.store := by
    cases h with
    | vacant h hout => exact ⟨none, h.running⟩
    | occupied h hi hq hout => exact ⟨_, h.running⟩
  obtain ⟨r, hr⟩ := hrunning
  refine ⟨hr.atMostOne, ?_, h.guards, ?_, ?_, fun i q hi hasks => ?_, fun i q hi hasks hfree => ?_⟩
  · rintro ⟨a, ha, hstatus⟩
    cases h with
    | vacant h hout => exact absurd (h.running.running a ha hstatus) nofun
    | occupied h hi hq hout => exact h.held
  · cases h with
    | vacant h hout => rw [h.unstarted, h.free]; rfl
    | occupied h hi hq hout => rw [h.started, h.held]
  · intro hphase
    have hunsettled : ∀ φ ∈ [Phase.preparing, .uploading, .restoring], φ.settled ≠ φ := by decide
    cases h with
    | vacant h hout => exact absurd h.settled (hunsettled _ hphase)
    | occupied h hi hq hout => exact h.held
  · obtain ⟨p, height, rfl⟩ := h.asks_untouched hi hasks
    exact ⟨⟨p, height, rfl⟩, Crowd.turn_refused hi⟩
  · obtain ⟨p, height, rfl⟩ := h.asks_untouched hi hasks
    cases h with
    | vacant h hout =>
      obtain ⟨d, q, hturn, hoccupied, hwithin⟩ := Crowd.turn_admitted hi h
      have hlt := (List.getElem?_eq_some_iff.1 hi).1
      rw [hturn]
      exact ⟨hoccupied.held, q, List.getElem?_set_self hlt, hwithin.guard⟩
    | occupied h hk hq hout =>
      rw [h.held] at hfree
      cases hfree

/-- However many callers there are and however they take turns, the gate lets one in at a time. -/
theorem admission_gate (d : Deployment) (h : Vacant d) (ts : List Turn) :
    Gated (Crowd.turns { deployment := d } ts) :=
  (Ordered.turns (.vacant h fun _ hq => absurd hq List.not_mem_nil) ts).gated

/-- The first of two callers has put its attempt on record; the second one finds the gate held. -/
def crowded : List Turn :=
  [.call lonePlant 1000, .call { lonePlant with dryRun := true } 2000, .act 0, .act 0]

theorem admission_gate_crowded :
    let c := Crowd.turns { deployment := loneHost "0x3e8" } crowded
    Vacant (loneHost "0x3e8") ∧ Gated c ∧ c.deployment.gate.inProgress = true ∧
      c.deployment.store.attempts.map (·.status) = ["running"] ∧
      c.callers.map (·.guard) = [true, false] ∧ c.callers.map (·.asks) = [false, true] := by
  have hvacant : Vacant (loneHost "0x3e8") :=
    ⟨rfl, rfl, rfl, .fresh rfl rfl, ⟨rfl, rfl, rfl, rfl⟩, nofun⟩
  exact ⟨hvacant, admission_gate _ hvacant crowded, by decide +kernel⟩

end FleetSnapshot.Capture
