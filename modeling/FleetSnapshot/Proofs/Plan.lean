import FleetSnapshot.Deployment

/-! What a plan may do, whatever the answers to its acts are. A discipline follows a plan with a
state of its own: it says which acts it lets pass, which answers it reckons with, and what it makes
of them. A plan that keeps a discipline keeps it among any other plans, since the answers are not
restricted to those of an undisturbed run. -/

namespace FleetSnapshot

structure Discipline (σ : Type) where
  allows : {β : Type} → σ → Act β → Prop
  expects : {β : Type} → σ → Act β → β → Prop := fun _ _ _ => True
  after : {β : Type} → σ → Act β → β → σ

namespace Plan

variable {σ α β : Type} {D : Discipline σ}

/-- The acts of the plan are allowed, and what it ends with satisfies `post`. -/
def Keeps (D : Discipline σ) : Plan α → σ → (σ → α → Prop) → Prop
  | .done a, c, post => post c a
  | .step act next, c, post =>
    D.allows c act ∧ ∀ r, D.expects c act r → (next r).Keeps D (D.after c act r) post

theorem keeps_bind (p : Plan α) (f : α → Plan β) (c : σ) (post : σ → β → Prop) :
    (p.bind f).Keeps D c post ↔ p.Keeps D c fun c a => (f a).Keeps D c post := by
  induction p generalizing c with
  | done a => rfl
  | step act next ih => simp only [bind, Keeps, ih]

theorem Keeps.mono {p : Plan α} {c : σ} {post post' : σ → α → Prop} (h : p.Keeps D c post)
    (hp : ∀ c a, post c a → post' c a) : p.Keeps D c post' := by
  induction p generalizing c with
  | done a => exact hp c a h
  | step act next ih => exact ⟨h.1, fun r hr => ih r (h.2 r hr)⟩

theorem Keeps.and {p : Plan α} {c : σ} {post post' : σ → α → Prop} (h : p.Keeps D c post)
    (h' : p.Keeps D c post') : p.Keeps D c fun c a => post c a ∧ post' c a := by
  induction p generalizing c with
  | done a => exact ⟨h, h'⟩
  | step act next ih => exact ⟨h.1, fun r hr => ih r (h.2 r hr) (h'.2 r hr)⟩

/-- What each act of a disciplined plan carries over from its state of mind to the deployment, the
whole run does, unless something has come to pass that the discipline does not reckon with. -/
theorem run_keeps {I : σ → Deployment → Prop} {Upset : Deployment → Prop}
    (stays : ∀ {β : Type} (act : Act β) (d : Deployment), Upset d → Upset (d.perform act).2)
    (step : ∀ {β : Type} (act : Act β) (c : σ) (d : Deployment), D.allows c act → I c d →
      Upset (d.perform act).2 ∨
        D.expects c act (d.perform act).1 ∧ I (D.after c act (d.perform act).1) (d.perform act).2)
    (p : Plan α) {c : σ} {d : Deployment} {post : σ → α → Prop} (hp : p.Keeps D c post)
    (hI : I c d) :
    Upset (p.run d).2 ∨ ∃ c', I c' (p.run d).2 ∧ post c' (p.run d).1 := by
  have upset_run : ∀ (p : Plan α) (d : Deployment), Upset d → Upset (p.run d).2 := by
    intro p
    induction p with
    | done a => exact fun d h => h
    | step act next ih => exact fun d h => ih _ _ (stays act d h)
  induction p generalizing c d with
  | done a => exact Or.inr ⟨c, hI, hp⟩
  | step act next ih =>
    rcases step act c d hp.1 hI with hu | ⟨he, hI'⟩
    · exact Or.inl (upset_run (next _) _ hu)
    · exact ih _ (hp.2 _ he) hI'

/-- As above, of a discipline that reckons with every answer that can come. -/
theorem run_maintains {I : σ → Deployment → Prop}
    (step : ∀ {β : Type} (act : Act β) (c : σ) (d : Deployment), D.allows c act → I c d →
      D.expects c act (d.perform act).1 ∧ I (D.after c act (d.perform act).1) (d.perform act).2)
    (p : Plan α) {c : σ} {d : Deployment} {post : σ → α → Prop} (hp : p.Keeps D c post)
    (hI : I c d) : ∃ c', I c' (p.run d).2 ∧ post c' (p.run d).1 := by
  have stays : ∀ {β : Type} (_ : Act β) (_ : Deployment), False → False := fun _ _ h => h
  have hrun := run_keeps stays (fun act c d ha hc => Or.inr (step act c d ha hc)) p hp hI
  exact hrun.resolve_left id

theorem run_bind (p : Plan α) (f : α → Plan β) (d : Deployment) :
    (p.bind f).run d = (f (p.run d).1).run (p.run d).2 := by
  induction p generalizing d with
  | done a => rfl
  | step act next ih => exact ih _ _

end Plan

namespace Job

section Perform

variable {α β : Type} (d : Deployment)

/-- A job carried out to its end: what it comes to, and the deployment that it leaves. -/
def perform (j : Job α) (d : Deployment) : Except Stop α × Deployment := j.run.run d

@[simp] theorem perform_pure (a : α) : perform (pure a) d = (.ok a, d) := rfl

@[simp] theorem perform_fail (e : Error) : perform (fail e : Job α) d = (.error (.failed e), d) := rfl

@[simp] theorem perform_act (a : Act α) :
    perform (act a) d = (.ok (d.perform a).1, (d.perform a).2) := rfl

theorem perform_bind (j : Job α) (f : α → Job β) :
    perform (j >>= f) d = match j.perform d with
      | (.ok a, d') => (f a).perform d'
      | (.error s, d') => (.error s, d') := by
  refine (Plan.run_bind j.run _ d).trans ?_
  unfold perform
  rcases j.run.run d with ⟨_ | _, d'⟩ <;> rfl

theorem perform_ofExcept (x : Except Error α) :
    perform (ofExcept x) d = (x.mapError .failed, d) := by
  cases x <;> rfl

theorem perform_audit (op : Audit.Op α) :
    perform (audit op) d =
      ((op.run d.store).1.mapError .failed, { d with store := (op.run d.store).2 }) := by
  simp only [audit, perform_bind, perform_act, perform_ofExcept]
  rfl

theorem perform_outcome (j : Job α) :
    perform j.outcome d = match j.perform d with
      | (.ok a, d') => (.ok (.ok a), d')
      | (.error (.failed e), d') => (.ok (.error e), d')
      | (.error .hung, d') => (.error .hung, d') := by
  refine (Plan.run_bind j.run _ d).trans ?_
  unfold perform
  rcases j.run.run d with ⟨(_ | _) | _, d'⟩ <;> rfl

end Perform

variable {σ α β ι : Type} {D : Discipline σ} {c : σ}

/-- As for plans: `good` of a result, `bad` where the job stops without one. -/
def Keeps (D : Discipline σ) (j : Job α) (c : σ) (good : σ → α → Prop) (bad : σ → Stop → Prop) :
    Prop :=
  j.run.Keeps D c fun c r => match r with
    | .ok a => good c a
    | .error s => bad c s

variable {good : σ → α → Prop} {bad : σ → Stop → Prop}

theorem Keeps.mono {j : Job α} {good' : σ → α → Prop} {bad' : σ → Stop → Prop}
    (h : j.Keeps D c good bad) (hg : ∀ c a, good c a → good' c a)
    (hb : ∀ c s, bad c s → bad' c s) : j.Keeps D c good' bad' :=
  Plan.Keeps.mono h fun c r => match r with
    | .ok a => hg c a
    | .error s => hb c s

theorem Keeps.and {j : Job α} {good' : σ → α → Prop} {bad' : σ → Stop → Prop}
    (h : j.Keeps D c good bad) (h' : j.Keeps D c good' bad') :
    j.Keeps D c (fun c a => good c a ∧ good' c a) fun c s => bad c s ∧ bad' c s :=
  (Plan.Keeps.and h h').mono fun _ r hr => by cases r <;> exact hr

@[simp] theorem keeps_pure (a : α) : Keeps D (pure a) c good bad ↔ good c a := Iff.rfl

@[simp] theorem keeps_throw (s : Stop) : Keeps D (throw s : Job α) c good bad ↔ bad c s := Iff.rfl

@[simp] theorem keeps_fail (e : Error) :
    Keeps D (fail e : Job α) c good bad ↔ bad c (.failed e) := Iff.rfl

@[simp] theorem keeps_bind (j : Job α) (f : α → Job β) {good : σ → β → Prop} :
    Keeps D (j >>= f) c good bad ↔ j.Keeps D c (fun c a => (f a).Keeps D c good bad) bad := by
  refine (Plan.keeps_bind j.run _ c _).trans (iff_of_eq ?_)
  refine congrArg (j.run.Keeps D c) (funext fun c => funext fun r => ?_)
  cases r <;> rfl

@[simp] theorem keeps_act (a : Act α) :
    Keeps D (act a) c good bad ↔
      D.allows c a ∧ ∀ r, D.expects c a r → good (D.after c a r) r := Iff.rfl

@[simp] theorem keeps_ofExcept (x : Except Error α) :
    Keeps D (ofExcept x) c good bad ↔ match x with
      | .ok a => good c a
      | .error e => bad c (.failed e) := by
  cases x <;> rfl

@[simp] theorem keeps_audit (op : Audit.Op α) :
    Keeps D (audit op) c good bad ↔ D.allows c (.audit op) ∧
      (∀ a, D.expects c (.audit op) (.ok a) → good (D.after c (.audit op) (.ok a)) a) ∧
      ∀ e, D.expects c (.audit op) (.error e) →
        bad (D.after c (.audit op) (.error e)) (.failed e) := by
  simp only [audit, keeps_bind, keeps_act, keeps_ofExcept]
  refine and_congr_right fun _ => ⟨fun h => ⟨fun a => h (.ok a), fun e => h (.error e)⟩, ?_⟩
  rintro ⟨hok, herror⟩ (e | a)
  · exact herror e
  · exact hok a

@[simp] theorem keeps_outcome (j : Job α) {good : σ → Except Error α → Prop} :
    Keeps D j.outcome c good bad ↔ j.Keeps D c (fun c a => good c (.ok a)) fun c s => match s with
      | .failed e => good c (.error e)
      | .hung => bad c .hung := by
  refine (Plan.keeps_bind j.run _ c _).trans (iff_of_eq ?_)
  refine congrArg (j.run.Keeps D c) (funext fun c => funext fun r => ?_)
  rcases r with (_ | _) | _ <;> rfl

theorem keeps_both {j : Job α} {k : Job β} {good : σ → α × β → Prop}
    (h : j.Keeps D c (fun c a => k.Keeps D c (fun c b => good c (a, b)) bad)
      fun c s => k.Keeps D c (fun c _ => bad c s) fun c _ => bad c s) :
    Keeps D (both j k) c good bad := by
  refine (Plan.keeps_bind j.run _ c _).2 (Plan.Keeps.mono h fun c r hr => ?_)
  refine (Plan.keeps_bind k.run _ c _).2 ?_
  cases r with
  | ok a =>
    refine Plan.Keeps.mono hr fun c r hr => ?_
    cases r <;> exact hr
  | error s =>
    refine Plan.Keeps.mono hr fun c r hr => ?_
    cases r <;> exact hr

/-- `inv` is told which of the jobs are still to come and what the others came to; `lost` is what is
left of it once a job has stopped without a result. -/
theorem keeps_each {f : ι → Job α} (inv : List ι → List α → σ → Prop) (lost : List ι → σ → Prop)
    (stops : Stop → Prop)
    (step : ∀ i is as c, inv (i :: is) as c →
      (f i).Keeps D c (fun c a => inv is (as ++ [a]) c) fun c s => stops s ∧ lost is c)
    (drift : ∀ i is c, lost (i :: is) c →
      (f i).Keeps D c (fun c _ => lost is c) fun c _ => lost is c)
    (is : List ι) (as : List α) (h : inv is as c) :
    Keeps D (all (is.map f)) c (fun c bs => inv [] (as ++ bs) c) fun c s => stops s ∧ lost [] c := by
  have drifts : ∀ is c, lost is c →
      Keeps D (all (is.map f)) c (fun c _ => lost [] c) fun c _ => lost [] c := by
    intro is
    induction is with
    | nil => exact fun c h => h
    | cons i is ih =>
      intro c h
      simp only [List.map_cons, all, keeps_bind]
      exact keeps_both ((drift i is c h).mono (fun c _ hc => ih c hc) fun c _ hc => ih c hc)
  induction is generalizing c as with
  | nil => rwa [List.map_nil, all, keeps_pure, List.append_nil]
  | cons i is ih =>
    simp only [List.map_cons, all, keeps_bind]
    refine keeps_both ((step i is as c h).mono (fun c a hc => ?_) fun c s hc => ?_)
    · refine (ih _ hc).mono (fun c bs h => ?_) fun _ _ h => h
      rwa [List.append_assoc] at h
    · exact (drifts is c hc.2).mono (fun _ _ h => ⟨hc.1, h⟩) fun _ _ h => ⟨hc.1, h⟩

/-- As above, where it makes no difference what the jobs come to. -/
theorem keeps_all {f : ι → Job α} (inv : List ι → σ → Prop) (stops : Stop → Prop)
    (step : ∀ i is c, inv (i :: is) c →
      (f i).Keeps D c (fun c _ => inv is c) fun c s => stops s ∧ inv is c)
    (is : List ι) (h : inv is c) :
    Keeps D (all (is.map f)) c (fun c _ => inv [] c) fun c s => stops s ∧ inv [] c :=
  keeps_each (fun is _ => inv is) inv stops (fun i is _ => step i is)
    (fun i is c h => (step i is c h).mono (fun _ _ h => h) fun _ _ h => h.2) is [] h

/-- As for all jobs, where a job that fails may leave another state behind. -/
theorem keeps_upToFailure {f : ι → Job α} (inv : List ι → σ → Prop) (failed : σ → Error → Prop)
    (step : ∀ i is c, inv (i :: is) c → (f i).Keeps D c (fun c _ => inv is c) fun c s =>
      match s with
      | .failed e => failed c e
      | .hung => inv is c)
    (is : List ι) (h : inv is c) :
    Keeps D (upToFailure (is.map f)) c (fun c _ => inv [] c) fun c s =>
      match s with
      | .failed e => failed c e
      | .hung => inv [] c := by
  induction is generalizing c with
  | nil => exact h
  | cons i is ih =>
    refine (Plan.keeps_bind _ _ c _).2 (Plan.Keeps.mono (step i is c h) fun c r hr => ?_)
    rcases r with (_ | _) | a
    · exact hr
    · refine (Plan.keeps_bind _ _ c _).2 (Plan.Keeps.mono (ih hr) fun c r hr => ?_)
      rcases r with (_ | _) | _ <;> exact hr
    · refine (Plan.keeps_bind _ _ c _).2 (Plan.Keeps.mono (ih hr) fun c r hr => ?_)
      rcases r with (_ | _) | _ <;> exact hr

end Job

end FleetSnapshot
