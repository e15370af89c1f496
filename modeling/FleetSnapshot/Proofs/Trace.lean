import FleetSnapshot.Node
import FleetSnapshot.Proofs.Blame
import FleetSnapshot.Proofs.Plan

/-! The journal of a run, followed act by act. The answers are as free as those of the deployment:
a command may be replied to in any way, and only the causes of failures are known. -/

namespace FleetSnapshot

theorem Deployment.enter_cases (d : Deployment) :
    d.enter = (.error .busy, d) ∨
      ∃ gate store, gate.phase = .idle ∧ d.enter = (.ok (), { d with gate, store }) := by
  by_cases hb : d.gate.inProgress = true
  · exact Or.inl (by simp only [Deployment.enter, Gate.enter, if_pos hb])
  · refine Or.inr ⟨_, _, ?_, by simp only [Deployment.enter, Gate.enter, if_neg hb]; rfl⟩
    rfl

structure Trace where
  phase : Phase
  events : List Event := []

namespace Trace

def note (e : Event) (t : Trace) : Trace := { t with events := t.events ++ [e] }

@[simp] theorem note_phase (e : Event) (t : Trace) : (t.note e).phase = t.phase := rfl

@[simp] theorem note_events (e : Event) (t : Trace) : (t.note e).events = t.events ++ [e] := rfl

/-- What an act comes to in the journal, by the answer to it. Only hosts that there are leave a
trace. -/
def after {β : Type} (hosts : Nat) (t : Trace) (act : Act β) : β → Trace :=
  match act with
  | .command node text => fun reply =>
    if node < hosts then t.note (.command node t.phase text reply) else t
  | .put key text => fun r => t.note (.put t.phase key text r.isOk)
  | .openRemoval upload pre => fun _ => t.note (.removalOpened upload pre)
  | .closeRemoval upload pre => fun r => t.note (.removalClosed upload pre r.isOk)
  | .enter => fun
    | .ok () => { t with phase := .idle }
    | .error _ => t
  | .leave => fun _ => { t with phase := t.phase.settled }
  | .phase p => fun _ => { t with phase := p }
  | .audit _ | .agreed _ _ => fun _ => t

/-- The answers that an act can have. -/
def credible {β : Type} (hosts : Nat) (act : Act β) : β → Prop :=
  match act with
  | .command node _ => fun reply => hosts ≤ node → reply = .output ""
  | .audit _ => fun r => ∀ e, r = .error e → e.ofAudit
  | .put key _ => fun r => ∀ e, r = .error e → e = .storage s!"failed to put {key}"
  | .enter => fun r => ∀ e, r = .error e → e = .busy
  | _ => fun _ => True

/-- The trace stands for what has been added to the journal. -/
structure Tells (hosts : Nat) (journal : List Event) (t : Trace) (d : Deployment) : Prop where
  hosts : d.hosts.length = hosts
  phase : d.gate.phase = t.phase
  journal : d.journal = journal ++ t.events

variable {hosts : Nat} {journal : List Event} {t : Trace} {d : Deployment}

theorem Tells.note (h : Tells hosts journal t d) (e : Event) :
    Tells hosts journal (t.note e) (d.note e) :=
  ⟨h.hosts, h.phase, by simp [Deployment.note, h.journal]⟩

theorem Tells.after (h : Tells hosts journal t d) {β : Type} (act : Act β) :
    credible hosts act (d.perform act).1 ∧
      Tells hosts journal (t.after hosts act (d.perform act).1) (d.perform act).2 := by
  cases act with
  | command node text =>
    simp only [Deployment.perform, Deployment.command, credible, Trace.after, ← h.hosts]
    cases hn : d.hosts[node]? with
    | none =>
      have hlen := List.getElem?_eq_none_iff.1 hn
      rw [if_neg (by omega)]
      exact ⟨fun _ => rfl, h.hosts ▸ rfl, h.phase, h.journal⟩
    | some host =>
      have hlen := (List.getElem?_eq_some_iff.1 hn).1
      rw [if_pos hlen, ← h.phase]
      refine ⟨fun hle => by omega, ?_⟩
      exact ⟨by simp [Deployment.note], h.phase, by simp [Deployment.note, h.journal]⟩
  | audit op => exact ⟨op.blames d.store, h.hosts, h.phase, h.journal⟩
  | put key text =>
    have hn := h.note (.put t.phase key text !d.refusesPut)
    rw [← h.phase] at hn
    simp only [Deployment.perform, Deployment.put, credible, Trace.after, ← h.phase]
    cases hr : d.refusesPut with
    | false =>
      rw [hr] at hn
      exact ⟨nofun, hn.hosts, hn.phase, hn.journal⟩
    | true =>
      rw [hr] at hn
      exact ⟨fun e he => (Except.error.inj he).symm, hn⟩
  | openRemoval upload pre =>
    have hn := h.note (.removalOpened upload pre)
    simp only [Deployment.perform, Deployment.openRemoval, credible, Trace.after]
    split
    · exact ⟨trivial, hn⟩
    · exact ⟨trivial, hn.hosts, hn.phase, hn.journal⟩
  | closeRemoval upload pre =>
    have hn := h.note (.removalClosed upload pre !d.refusesRemoval.contains pre)
    simp only [Deployment.perform, Deployment.closeRemoval, credible, Trace.after]
    cases hr : d.refusesRemoval.contains pre with
    | false =>
      rw [hr] at hn
      exact ⟨trivial, hn.hosts, hn.phase, hn.journal⟩
    | true =>
      rw [hr] at hn
      exact ⟨trivial, hn⟩
  | enter =>
    rw [show d.perform .enter = d.enter from rfl]
    rcases d.enter_cases with he | ⟨gate, store, hp, he⟩ <;> rw [he]
    · exact ⟨fun e he => (Except.error.inj he).symm, h⟩
    · exact ⟨nofun, h.hosts, hp, h.journal⟩
  | leave =>
    refine ⟨trivial, h.hosts, ?_, h.journal⟩
    exact congrArg Phase.settled h.phase
  | phase p => exact ⟨trivial, h.hosts, rfl, h.journal⟩
  | agreed height next => exact ⟨trivial, h.hosts, h.phase, h.journal⟩

/-- The events of a trace are never taken back. -/
theorem events_after (t : Trace) (hosts : Nat) {β : Type} (act : Act β) (r : β) :
    ∃ es, (t.after hosts act r).events = t.events ++ es := by
  cases act with
  | command node text =>
    simp only [Trace.after]
    split
    · exact ⟨_, rfl⟩
    · exact ⟨[], (List.append_nil _).symm⟩
  | put key text => exact ⟨_, rfl⟩
  | openRemoval upload pre => exact ⟨_, rfl⟩
  | closeRemoval upload pre => exact ⟨_, rfl⟩
  | enter => cases r <;> exact ⟨[], (List.append_nil _).symm⟩
  | _ => exact ⟨[], (List.append_nil _).symm⟩

end Trace

/-- Any act goes. Only answers that can be given are reckoned with, and no event of the bad ones. -/
def recorded (hosts : Nat) (bad : Event → Prop) : Discipline Trace where
  allows _ _ := True
  expects t act r := Trace.credible hosts act r ∧ ∀ e ∈ (t.after hosts act r).events, ¬ bad e
  after t act r := t.after hosts act r

theorem run_recorded {α : Type} {bad : Event → Prop} {p : Plan α} {d : Deployment}
    {post : Trace → α → Prop} (hp : p.Keeps (recorded d.hosts.length bad) ⟨d.gate.phase, []⟩ post) :
    ∃ t : Trace, (p.run d).2.journal = d.journal ++ t.events ∧ (p.run d).2.gate.phase = t.phase ∧
      ((∃ e ∈ t.events, bad e) ∨ post t (p.run d).1) := by
  have stays : ∀ {β : Type} (act : Act β) (d' : Deployment),
      (∃ t : Trace, t.Tells d.hosts.length d.journal d' ∧ ∃ e ∈ t.events, bad e) →
      ∃ t : Trace, t.Tells d.hosts.length d.journal (d'.perform act).2 ∧ ∃ e ∈ t.events, bad e := by
    rintro β act d' ⟨t, ht, e, he, hbad⟩
    obtain ⟨es, hes⟩ := t.events_after d.hosts.length act (d'.perform act).1
    exact ⟨_, (ht.after act).2, e, by rw [hes]; exact List.mem_append_left _ he, hbad⟩
  have step : ∀ {β : Type} (act : Act β) (t : Trace) (d' : Deployment),
      (recorded d.hosts.length bad).allows t act → t.Tells d.hosts.length d.journal d' →
      (∃ t : Trace, t.Tells d.hosts.length d.journal (d'.perform act).2 ∧ ∃ e ∈ t.events, bad e) ∨
        (recorded d.hosts.length bad).expects t act (d'.perform act).1 ∧
          Trace.Tells d.hosts.length d.journal
            ((recorded d.hosts.length bad).after t act (d'.perform act).1) (d'.perform act).2 := by
    intro β act t d' _ ht
    obtain ⟨hcredible, hafter⟩ := ht.after act
    by_cases hbad : ∃ e ∈ (t.after d.hosts.length act (d'.perform act).1).events, bad e
    · exact Or.inl ⟨_, hafter, hbad⟩
    · exact Or.inr ⟨⟨hcredible, fun e he h => hbad ⟨e, he, h⟩⟩, hafter⟩
  have start : Trace.Tells d.hosts.length d.journal ⟨d.gate.phase, []⟩ d :=
    ⟨rfl, rfl, (List.append_nil _).symm⟩
  rcases Plan.run_keeps stays step p hp start with ⟨t, ht, hbad⟩ | ⟨t, ht, hpost⟩
  · exact ⟨t, ht.journal, ht.phase, Or.inl hbad⟩
  · exact ⟨t, ht.journal, ht.phase, Or.inr hpost⟩

namespace Job

variable {α : Type} {bad : Event → Prop} {hosts : Nat} {t : Trace}

def result (j : Job α) (d : Deployment) : Except Stop α := (j.perform d).1

def events (j : Job α) (d : Deployment) : List Event :=
  (j.perform d).2.journal.drop d.journal.length

theorem events_recorded {j : Job α} {d : Deployment} {good : Trace → α → Prop}
    {stops : Trace → Stop → Prop}
    (hj : j.Keeps (recorded d.hosts.length bad) ⟨d.gate.phase, []⟩ good stops) :
    (∃ e ∈ j.events d, bad e) ∨ ∃ t : Trace, t.events = j.events d ∧
      match j.result d with
      | .ok a => good t a
      | .error s => stops t s := by
  obtain ⟨t, ht, -, h⟩ := run_recorded hj
  have he : j.events d = t.events := by rw [events, perform, ht, List.drop_left]
  rw [he]
  exact h.imp_right fun h => ⟨t, rfl, h⟩

/-- What is to hold after a reply: there is an output, or no result. -/
def Told (n : Node) (good : Trace → String → Prop) (stops : Trace → Stop → Prop) (t : Trace) :
    Reply → Prop
  | .output text => good t text
  | .unreachable reason => stops t (.failed (.unreachable n.target.name reason))
  | .failed reason => stops t (.failed (.commandFailed n.target.name reason))
  | .silent => stops t .hung

/-- The reply to a command is all that tells how a call of a node goes on. -/
theorem keeps_run (n : Node) (command : String) {good : Trace → String → Prop}
    {stops : Trace → Stop → Prop} :
    (n.run command).Keeps (recorded hosts bad) t good stops ↔ ∀ reply : Reply,
      (hosts ≤ n.index → reply = .output "") →
      (∀ e ∈ (t.after hosts (.command n.index command) reply).events, ¬ bad e) →
      Told n good stops (t.after hosts (.command n.index command) reply) reply := by
  simp only [Node.run, keeps_bind, keeps_act]
  constructor
  · intro h reply hc hb
    have hr := h.2 reply ⟨hc, hb⟩
    cases reply <;> exact hr
  · intro h
    refine ⟨trivial, fun reply hr => ?_⟩
    have ht := h reply hr.1 hr.2
    cases reply <;> exact ht

end Job

end FleetSnapshot
