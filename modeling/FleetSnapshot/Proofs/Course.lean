import FleetSnapshot.Proofs.Commands
import FleetSnapshot.Proofs.Trace

/-! The course of jobs that nobody disturbs: from the gate and the audit store that a job finds to
those that it leaves, with the events in between. How the nodes reply is left open, so the course of
a job is a relation. -/

namespace FleetSnapshot

/-- The part of a deployment that attempts share. -/
structure Scene where
  gate : Gate
  store : Audit.Store

def Deployment.scene (d : Deployment) : Scene := ⟨d.gate, d.store⟩

namespace Job

variable {α β ι : Type} {hosts : Nat}

/-- On so many hosts the job takes this course, whatever the replies are. -/
def Does (hosts : Nat) (j : Job α) (P : Scene → List Event → Scene → Except Stop α → Prop) : Prop :=
  ∀ d : Deployment, d.hosts.length = hosts → ∃ es, (j.perform d).2.hosts.length = hosts ∧
    (j.perform d).2.journal = d.journal ++ es ∧
    P d.scene es (j.perform d).2.scene (j.perform d).1

/-- The job leaves the gate and the audit store as they are. -/
def Says (hosts : Nat) (j : Job α) (Q : Phase → List Event → Except Stop α → Prop) : Prop :=
  j.Does hosts fun c es c' r => c' = c ∧ Q c.gate.phase es r

section Does

variable {P : Scene → List Event → Scene → Except Stop α → Prop}
  {Q : Scene → List Event → Scene → Except Stop β → Prop}

/-- What a job adds to the journal and what it comes to are part of its course. -/
theorem Does.course {j : Job α} {d : Deployment} (h : j.Does d.hosts.length P) :
    P d.scene (j.events d) (j.perform d).2.scene (j.result d) := by
  obtain ⟨es, -, hjournal, hP⟩ := h d rfl
  have hes : j.events d = es := by rw [events, hjournal, List.drop_left]
  rw [hes]
  exact hP

theorem Does.mono {j : Job α} {P' : Scene → List Event → Scene → Except Stop α → Prop}
    (h : j.Does hosts P) (hp : ∀ c es c' r, P c es c' r → P' c es c' r) : j.Does hosts P' := by
  intro d hd
  obtain ⟨es, hhosts, hjournal, hP⟩ := h d hd
  exact ⟨es, hhosts, hjournal, hp _ _ _ _ hP⟩

theorem does_pure {a : α} (h : ∀ c, P c [] c (.ok a)) : (pure a : Job α).Does hosts P :=
  fun d hd => ⟨[], hd, (List.append_nil _).symm, h d.scene⟩

theorem does_throw {s : Stop} (h : ∀ c, P c [] c (.error s)) : (throw s : Job α).Does hosts P :=
  fun d hd => ⟨[], hd, (List.append_nil _).symm, h d.scene⟩

theorem does_ofExcept {x : Except Error α} (h : ∀ c, P c [] c (x.mapError .failed)) :
    (ofExcept x).Does hosts P := by
  intro d hd
  rw [perform_ofExcept]
  exact ⟨[], hd, (List.append_nil _).symm, h d.scene⟩

theorem Does.bind {j : Job α} {f : α → Job β}
    {R : α → Scene → List Event → Scene → Except Stop β → Prop} (hj : j.Does hosts P)
    (hf : ∀ a, (f a).Does hosts (R a)) (stops : ∀ c es c' s, P c es c' (.error s) →
      Q c es c' (.error s))
    (goes : ∀ c es c' a es' c'' r, P c es c' (.ok a) → R a c' es' c'' r → Q c (es ++ es') c'' r) :
    (j >>= f).Does hosts Q := by
  intro d hd
  obtain ⟨es, hhosts, hjournal, hP⟩ := hj d hd
  rw [perform_bind]
  rcases hr : j.perform d with ⟨s | a, d'⟩ <;> rw [hr] at hhosts hjournal hP
  · exact ⟨es, hhosts, hjournal, stops _ _ _ _ hP⟩
  · obtain ⟨es', hhosts', hjournal', hR⟩ := hf a d' hhosts
    refine ⟨es ++ es', hhosts', ?_, goes _ _ _ _ _ _ _ hP hR⟩
    rw [hjournal', hjournal, List.append_assoc]

theorem does_audit {op : Audit.Op α} :
    (act (.audit op)).Does hosts fun c es c' r =>
      es = [] ∧ c' = { c with store := (op.run c.store).2 } ∧ r = .ok (op.run c.store).1 :=
  fun _ hd => ⟨[], hd, (List.append_nil _).symm, rfl, rfl, rfl⟩

theorem does_ask {op : Audit.Op α} : (audit op).Does hosts fun c es c' r =>
    es = [] ∧ c' = { c with store := (op.run c.store).2 } ∧
      r = (op.run c.store).1.mapError .failed := by
  intro d hd
  rw [perform_audit]
  exact ⟨[], hd, (List.append_nil _).symm, rfl, rfl, rfl⟩

theorem does_phase {phase : Phase} :
    (act (.phase phase)).Does hosts fun c es c' r =>
      es = [] ∧ c' = { c with gate := { c.gate with phase } } ∧ r = .ok () :=
  fun _ hd => ⟨[], hd, (List.append_nil _).symm, rfl, rfl, rfl⟩

theorem does_put {key text : String} :
    (act (.put key text)).Says hosts fun φ es r =>
      (es = [.put φ key text true] ∧ r = .ok (.ok ())) ∨
        es = [.put φ key text false] ∧ r = .ok (.error (.storage s!"failed to put {key}")) := by
  intro d hd
  rw [perform_act]
  simp only [Deployment.perform, Deployment.put]
  cases hr : d.refusesPut with
  | false => exact ⟨[.put d.gate.phase key text true], hd, rfl, rfl, Or.inl ⟨rfl, rfl⟩⟩
  | true => exact ⟨[.put d.gate.phase key text false], hd, rfl, rfl, Or.inr ⟨rfl, rfl⟩⟩

def outcomeOf : Except Stop α → Except Stop (Except Error α)
  | .ok a => .ok (.ok a)
  | .error (.failed e) => .ok (.error e)
  | .error .hung => .error .hung

theorem does_outcome {j : Job α} (h : j.Does hosts P) :
    j.outcome.Does hosts fun c es c' r => ∃ r', P c es c' r' ∧ r = outcomeOf r' := by
  intro d hd
  obtain ⟨es, hhosts, hjournal, hP⟩ := h d hd
  rw [perform_outcome]
  rcases hr : j.perform d with ⟨(e | _) | a, d'⟩ <;> rw [hr] at hhosts hjournal hP
  all_goals exact ⟨es, hhosts, hjournal, _, hP, rfl⟩

end Does

section Says

variable {Q : Phase → List Event → Except Stop α → Prop}

theorem Says.mono {j : Job α} {Q' : Phase → List Event → Except Stop α → Prop} (h : j.Says hosts Q)
    (hq : ∀ φ es r, Q φ es r → Q' φ es r) : j.Says hosts Q' :=
  Does.mono h fun c es _ r hr => ⟨hr.1, hq c.gate.phase es r hr.2⟩

theorem says_pure {a : α} (h : ∀ φ, Q φ [] (.ok a)) : (pure a : Job α).Says hosts Q :=
  does_pure fun c => ⟨rfl, h c.gate.phase⟩

theorem says_fail {e : Error} (h : ∀ φ, Q φ [] (.error (.failed e))) :
    (fail e : Job α).Says hosts Q :=
  does_throw fun c => ⟨rfl, h c.gate.phase⟩

theorem Says.bind {j : Job α} {f : α → Job β} {R : α → Phase → List Event → Except Stop β → Prop}
    {S : Phase → List Event → Except Stop β → Prop} (hj : j.Says hosts Q)
    (hf : ∀ a, (f a).Says hosts (R a)) (stops : ∀ φ es s, Q φ es (.error s) → S φ es (.error s))
    (goes : ∀ φ es a es' r, Q φ es (.ok a) → R a φ es' r → S φ (es ++ es') r) :
    (j >>= f).Says hosts S := by
  refine Does.bind hj hf (fun c es c' s h => ⟨h.1, stops _ _ _ h.2⟩) ?_
  rintro c es c' a es' c'' r ⟨rfl, hQ⟩ ⟨rfl, hR⟩
  exact ⟨rfl, goes _ _ _ _ _ hQ hR⟩

end Says

end Job

def Node.heard (n : Node) : Reply → Except Stop String
  | .output text => .ok text
  | .unreachable reason => .error (.failed (.unreachable n.target.name reason))
  | .failed reason => .error (.failed (.commandFailed n.target.name reason))
  | .silent => .error .hung

namespace Job

variable {α ι : Type} {hosts : Nat}

theorem says_run {n : Node} (hn : n.index < hosts) (command : String) :
    (n.run command).Says hosts fun φ es r =>
      ∃ reply, es = [.command n.index φ command reply] ∧ r = n.heard reply := by
  intro d hd
  have hlt : n.index < d.hosts.length := hd ▸ hn
  obtain ⟨host, hhost⟩ : ∃ host, d.hosts[n.index]? = some host :=
    ⟨_, List.getElem?_eq_getElem hlt⟩
  refine ⟨[.command n.index d.gate.phase command (host.answer host.asked command)], ?_⟩
  have hlen : ∀ host', (d.hosts.set n.index host').length = hosts := fun _ => by
    rw [List.length_set, hd]
  rw [Node.run, perform_bind, perform_act]
  simp only [Deployment.perform, Deployment.command, hhost]
  cases host.answer host.asked command
  all_goals exact ⟨hlen _, rfl, rfl, _, rfl, rfl⟩

/-- What is had of a fan-out one of whose jobs waits. A failure behind it still counts. -/
def waiting : Except Stop (List α) → Except Stop (List α)
  | .error (.failed e) => .error (.failed e)
  | _ => .error .hung

def gathered (r : Except Stop α) (rs : Except Stop (List α)) : Except Stop (List α) :=
  match r with
  | .error s => .error s
  | .ok a => rs.map (a :: ·)

section FanOut

variable {f : ι → Job α} {i : ι} {is : List ι} {d : Deployment}

theorem perform_upToFailure_cons : (upToFailure ((i :: is).map f)).perform d =
    match (f i).perform d with
    | (.error (.failed e), d') => (.error (.failed e), d')
    | (.error .hung, d') =>
      (waiting ((upToFailure (is.map f)).perform d').1, ((upToFailure (is.map f)).perform d').2)
    | (.ok a, d') => (((upToFailure (is.map f)).perform d').1.map (a :: ·),
        ((upToFailure (is.map f)).perform d').2) := by
  refine (Plan.run_bind (f i).run _ d).trans ?_
  unfold perform
  rcases (f i).run.run d with ⟨(e | _) | a, d'⟩
  · rfl
  · refine (Plan.run_bind (upToFailure (is.map f)).run _ d').trans ?_
    dsimp only
    rcases (upToFailure (is.map f)).run.run d' with ⟨(e | _) | as, d''⟩ <;> rfl
  · refine (Plan.run_bind (upToFailure (is.map f)).run _ d').trans ?_
    dsimp only
    rcases (upToFailure (is.map f)).run.run d' with ⟨s | as, d''⟩ <;> rfl

theorem perform_all_cons : (all ((i :: is).map f)).perform d =
    (gathered ((f i).perform d).1 ((all (is.map f)).perform ((f i).perform d).2).1,
      ((all (is.map f)).perform ((f i).perform d).2).2) := by
  have hboth : (both (f i) (all (is.map f))).perform d =
      ((match ((f i).perform d).1, ((all (is.map f)).perform ((f i).perform d).2).1 with
        | .ok a, .ok as => .ok (a, as)
        | .error s, _ => .error s
        | _, .error s => .error s), ((all (is.map f)).perform ((f i).perform d).2).2) := by
    refine (Plan.run_bind (f i).run _ d).trans ?_
    refine (Plan.run_bind (all (is.map f)).run _ _).trans ?_
    unfold perform
    rcases (f i).run.run d with ⟨s | a, d'⟩ <;>
      rcases (all (is.map f)).run.run d' with ⟨s' | as, d''⟩ <;> rfl
  simp only [List.map_cons, all, perform_bind, hboth]
  rcases ((f i).perform d).1 with s | a <;>
    rcases ((all (is.map f)).perform ((f i).perform d).2).1 with s' | as <;> rfl

/-- What becomes of a fan-out that is over with the first failure. Those behind a job that waits are
not held up. -/
inductive FailFast (P : ι → List Event → Except Stop α → Prop) :
    List ι → List Event → Except Stop (List α) → Prop
  | nil : FailFast P [] [] (.ok [])
  | failed {i is es e} (h : P i es (.error (.failed e))) :
      FailFast P (i :: is) es (.error (.failed e))
  | hung {i is es es' r} (h : P i es (.error .hung)) (rest : FailFast P is es' r) :
      FailFast P (i :: is) (es ++ es') (waiting r)
  | ok {i is es es' a r} (h : P i es (.ok a)) (rest : FailFast P is es' r) :
      FailFast P (i :: is) (es ++ es') (r.map (a :: ·))

theorem says_upToFailure {Q : ι → Phase → List Event → Except Stop α → Prop} {is : List ι}
    (h : ∀ i ∈ is, (f i).Says hosts (Q i)) :
    (upToFailure (is.map f)).Says hosts fun φ => FailFast (fun i => Q i φ) is := by
  induction is with
  | nil => exact says_pure fun _ => .nil
  | cons i is ih =>
    intro d hd
    obtain ⟨es, hhosts, hjournal, hscene, hQ⟩ := h i List.mem_cons_self d hd
    obtain ⟨es', hhosts', hjournal', hscene', hrest⟩ :=
      ih (fun i hi => h i (List.mem_cons_of_mem _ hi)) ((f i).perform d).2 hhosts
    rw [hscene] at hscene' hrest
    rw [hjournal, List.append_assoc] at hjournal'
    rw [perform_upToFailure_cons]
    rcases hr : (f i).perform d with ⟨(e | _) | a, d'⟩ <;>
      rw [hr] at hhosts hjournal hscene hQ hhosts' hjournal' hscene' hrest
    · exact ⟨es, hhosts, hjournal, hscene, .failed hQ⟩
    · exact ⟨es ++ es', hhosts', hjournal', hscene', .hung hQ hrest⟩
    · exact ⟨es ++ es', hhosts', hjournal', hscene', .ok hQ hrest⟩

inductive Each (P : ι → Scene → List Event → Scene → Except Stop α → Prop) :
    List ι → Scene → List Event → Scene → Except Stop (List α) → Prop
  | nil {c} : Each P [] c [] c (.ok [])
  | cons {i is c es c' r es' c'' rs} (h : P i c es c' r) (rest : Each P is c' es' c'' rs) :
      Each P (i :: is) c (es ++ es') c'' (gathered r rs)

theorem does_all {P : ι → Scene → List Event → Scene → Except Stop α → Prop} {is : List ι}
    (h : ∀ i ∈ is, (f i).Does hosts (P i)) : (all (is.map f)).Does hosts (Each P is) := by
  induction is with
  | nil => exact does_pure fun _ => .nil
  | cons i is ih =>
    intro d hd
    obtain ⟨es, hhosts, hjournal, hP⟩ := h i List.mem_cons_self d hd
    obtain ⟨es', hhosts', hjournal', hrest⟩ :=
      ih (fun i hi => h i (List.mem_cons_of_mem _ hi)) ((f i).perform d).2 hhosts
    rw [hjournal, List.append_assoc] at hjournal'
    rw [perform_all_cons]
    exact ⟨es ++ es', hhosts', hjournal', .cons hP hrest⟩

end FanOut

end Job

end FleetSnapshot
