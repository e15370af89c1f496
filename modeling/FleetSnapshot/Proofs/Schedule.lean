import FleetSnapshot.Proofs.Agreement
import FleetSnapshot.Proofs.Chronicle
import FleetSnapshot.Watch
import Mathlib.Data.List.Chain
import Mathlib.Data.List.Induction
import Mathlib.Order.Bounds.Basic

/-! When snapshots are taken. One look at the fleet asks for nothing but its state; if the fleet is in
step, its height and the next boundary are noted, and an attempt is made at a boundary or when the last
attempt lies too far back. -/

namespace FleetSnapshot.Watch

open Audit Job

section Boundaries

variable {height interval : UInt64}

theorem blocksLeft_toNat (h : 0 < interval) : (blocksLeft height interval).toNat =
    if interval.toNat ∣ height.toNat then 0 else interval.toNat - height.toNat % interval.toNat := by
  have hpos : 0 < interval.toNat := UInt64.lt_iff_toNat_lt.1 h
  have hne : interval ≠ 0 := by
    rintro rfl
    exact absurd hpos (by decide)
  have hmod : height % interval = 0 ↔ interval.toNat ∣ height.toNat := by
    rw [← UInt64.toNat_inj, UInt64.toNat_mod, Nat.dvd_iff_mod_eq_zero]
    rfl
  have hle : height % interval ≤ interval := by
    rw [UInt64.le_iff_toNat_le, UInt64.toNat_mod]
    exact (Nat.mod_lt _ hpos).le
  unfold blocksLeft
  by_cases hdvd : interval.toNat ∣ height.toNat
  · simp [hmod.2 hdvd, hdvd]
  · have hrest : ¬ height % interval = 0 := fun hzero => hdvd (hmod.1 hzero)
    simp only [hne, hrest, decide_false, Bool.or_false, Bool.false_eq_true, if_false, hdvd]
    rw [UInt64.toNat_sub_of_le _ _ hle, UInt64.toNat_mod]

theorem blocksLeft_eq_zero_iff (h : 0 < interval) :
    blocksLeft height interval = 0 ↔ interval.toNat ∣ height.toNat := by
  have hpos : 0 < interval.toNat := UInt64.lt_iff_toNat_lt.1 h
  have hlt := Nat.mod_lt height.toNat hpos
  rw [← UInt64.toNat_inj, blocksLeft_toNat h]
  change _ = 0 ↔ _
  split
  case isTrue hdvd => exact iff_of_true rfl hdvd
  case isFalse hdvd => exact iff_of_false (by omega) hdvd

/-- From a height upwards, so far it is to the first multiple. -/
theorem isLeast_multiple {a i : Nat} (hpos : 0 < i) :
    IsLeast {m | i ∣ m ∧ a ≤ m} (a + if i ∣ a then 0 else i - a % i) := by
  have hsplit := Nat.div_add_mod a i
  have hlt := Nat.mod_lt a hpos
  by_cases hdvd : i ∣ a
  · rw [if_pos hdvd]
    exact ⟨⟨hdvd, le_rfl⟩, fun m hm => hm.2⟩
  · rw [if_neg hdvd]
    have hnext : a + (i - a % i) = i * (a / i + 1) := by
      rw [Nat.mul_succ]
      omega
    refine ⟨⟨hnext ▸ Nat.dvd_mul_right _ _, by omega⟩, ?_⟩
    rintro _ ⟨⟨k, rfl⟩, hle⟩
    have hmod : a % i ≠ 0 := fun hzero => hdvd (Nat.dvd_of_mod_eq_zero hzero)
    have hk : a / i < k := by
      refine Nat.lt_of_mul_lt_mul_left (a := i) ?_
      omega
    rw [hnext]
    exact Nat.mul_le_mul_left i hk

/-- The boundary that is noted as the next one is the first at or above the height. -/
theorem next_isLeast (h : 0 < interval)
    (hbelow : ∃ m < UInt64.size, interval.toNat ∣ m ∧ height.toNat ≤ m) :
    IsLeast {m | interval.toNat ∣ m ∧ height.toNat ≤ m}
      (height + blocksLeft height interval).toNat := by
  have hleast := isLeast_multiple (a := height.toNat) (UInt64.lt_iff_toNat_lt.1 h)
  rw [← blocksLeft_toNat h] at hleast
  obtain ⟨m, hm, hmultiple⟩ := hbelow
  have hbound : height.toNat + (blocksLeft height interval).toNat < 2 ^ 64 :=
    lt_of_le_of_lt (hleast.2 hmultiple) hm
  rwa [UInt64.toNat_add, Nat.mod_eq_of_lt hbound]

/-- What is more than the sum up to the greatest word is more than the sum. -/
theorem addUpTo_lt_iff {a b c : UInt64} : addUpTo a b < c ↔ a.toNat + b.toNat < c.toNat := by
  have hgreatest : greatestWord.toNat = 2 ^ 64 - 1 := by decide
  have hb := b.toNat_lt
  have hc := c.toNat_lt
  have hle : b ≤ greatestWord := by
    rw [UInt64.le_iff_toNat_le, hgreatest]
    omega
  unfold addUpTo
  rw [UInt64.lt_iff_toNat_lt]
  by_cases hover : a > greatestWord - b
  · rw [if_pos hover, hgreatest]
    rw [gt_iff_lt, UInt64.lt_iff_toNat_lt, UInt64.toNat_sub_of_le _ _ hle, hgreatest] at hover
    omega
  · rw [if_neg hover, UInt64.toNat_add]
    rw [gt_iff_lt, UInt64.lt_iff_toNat_lt, UInt64.toNat_sub_of_le _ _ hle, hgreatest] at hover
    omega

end Boundaries

/-- The most recent attempt lies so far back that the next one does not wait for a boundary. -/
def Overdue (interval height : UInt64) (s : Store) : Prop :=
  ∃ last, s.attempts.getLast? = some last ∧
    last.height.toUInt64.toNat + interval.toNat < height.toNat

theorem isStale_iff {s : Store} (h : Chronicle s)
    (hlater : (s.attempts.map (·.startTime)).Pairwise (Stamp.le · · = true))
    (interval height : UInt64) :
    isStale interval height (mostRecent s).1 = true ↔ Overdue interval height s := by
  rcases h.mostRecent hlater with ⟨hnone, hrecent⟩ | ⟨last, a, hlast, ha, hrecent⟩
  · rw [hrecent, Overdue, hnone]
    exact ⟨fun h => absurd h Bool.false_ne_true, fun ⟨_, h, _⟩ => absurd h nofun⟩
  · simp only [hrecent, isStale, decide_eq_true_eq, gt_iff_lt, addUpTo_lt_iff, ha, Overdue, hlast,
      Option.some.injEq, exists_eq_left']

end FleetSnapshot.Watch

namespace FleetSnapshot

open Audit Job

def Node.questions (n : Node) : List String := [n.syncCommand, n.syncingCommand, n.heightCommand]

def Event.Asks (fleet : List Node) (e : Event) : Prop :=
  ∃ n ∈ fleet, ∃ text ∈ n.questions, ∃ φ reply, e = .command n.index φ text reply

/-- Nodes have been asked about their state, and that is all. -/
def Asked (fleet : List Node) (d d' : Deployment) : Prop :=
  ∃ hosts es, d' = { d with hosts, journal := d.journal ++ es } ∧ ∀ e ∈ es, e.Asks fleet

def asks (fleet : List Node) : Discipline Unit where
  allows _ act := match act with
    | .command node text => ∃ n ∈ fleet, n.index = node ∧ text ∈ n.questions
    | _ => False
  after c _ _ := c

section Questions

variable {fleet : List Node} {d d' : Deployment}

theorem Asked.refl (fleet : List Node) (d : Deployment) : Asked fleet d d :=
  ⟨d.hosts, [], by rw [List.append_nil], List.forall_mem_nil _⟩

theorem Asked.perform {β : Type} {act : Act β} (h : Asked fleet d d')
    (hallows : (asks fleet).allows () act) : Asked fleet d (d'.perform act).2 := by
  cases act with
  | command node text =>
    obtain ⟨n, hn, rfl, htext⟩ := hallows
    obtain ⟨hosts, es, rfl, hes⟩ := h
    simp only [Deployment.perform, Deployment.command]
    split
    case h_1 => exact ⟨hosts, es, rfl, hes⟩
    case h_2 host _ =>
      refine ⟨_, es ++ [_], congrArg _ (List.append_assoc ..), fun e he => ?_⟩
      rcases List.mem_append.1 he with he | he
      · exact hes e he
      · exact ⟨n, hn, text, htext, _, _, List.mem_singleton.1 he⟩
  | _ => exact hallows.elim

/-- The job asks nodes about their state, and fails only where it waits for ever. -/
def Inquires {α : Type} (fleet : List Node) (j : Job α) : Prop :=
  j.Keeps (asks fleet) () (fun _ _ => True) fun _ s => s = .hung

theorem inquires_both {α β : Type} {j : Job α} {k : Job β} (hj : Inquires fleet j)
    (hk : Inquires fleet k) : Inquires fleet (both j k) := by
  refine keeps_both (hj.mono (fun _ _ _ => hk) fun _ s hs => ?_)
  exact hk.mono (fun _ _ _ => hs) fun _ _ _ => hs

theorem inquires_bind {α β : Type} {j : Job α} {f : α → Job β} (hj : Inquires fleet j)
    (hf : ∀ a, Inquires fleet (f a)) : Inquires fleet (j >>= f) :=
  (keeps_bind j f).2 (hj.mono (fun _ a _ => hf a) fun _ _ h => h)

theorem inquires_all {α : Type} {js : List (Job α)} (h : ∀ j ∈ js, Inquires fleet j) :
    Inquires fleet (all js) := by
  induction js with
  | nil => exact trivial
  | cons j js ih =>
    rw [List.forall_mem_cons] at h
    exact inquires_bind (inquires_both h.1 (ih h.2)) fun _ => trivial

theorem Node.inquires_run {α : Type} {n : Node} (hn : n ∈ fleet) {text : String}
    (htext : text ∈ n.questions) {use : String → Job α}
    (huse : ∀ out, Stays (asks fleet) () (use out)) :
    Inquires fleet (n.run text >>= use).outcome := by
  have hrun : Stays (asks fleet) () (n.run text) :=
    n.run_ignored ⟨⟨n, hn, rfl, htext⟩, fun _ => rfl⟩
  refine (keeps_outcome _).2 ((stays_bind hrun huse).mono (fun _ _ _ => trivial) fun _ s _ => ?_)
  cases s with
  | failed e => exact trivial
  | hung => rfl

theorem Agreement.inquires_probe {n : Node} (hn : n ∈ fleet) : Inquires fleet (Agreement.probe n) := by
  have hreport : Inquires fleet n.syncReport.outcome := by
    refine Node.inquires_run hn (by simp [Node.questions]) fun out => ?_
    split
    · exact stays_pure _
    · exact stays_fail _
  have hsyncing : Inquires fleet n.executionSyncing.outcome := by
    refine Node.inquires_run hn (by simp [Node.questions, Node.syncingCommand]) fun out => ?_
    split
    · exact stays_pure _
    · exact stays_fail _
  have hheight : Inquires fleet n.height.outcome := by
    refine Node.inquires_run hn (by simp [Node.questions, Node.heightCommand]) fun out => ?_
    split
    · exact stays_pure _
    · exact stays_fail _
  exact inquires_bind (inquires_both hreport (inquires_both hsyncing hheight)) fun _ => trivial

theorem Agreement.check_asked (fleet : List Node) (d : Deployment) :
    Asked fleet d ((Agreement.check fleet).perform d).2 ∧
      ∀ s, (Agreement.check fleet).result d = .error s → s = .hung := by
  have hinquires : Inquires fleet (Agreement.check fleet) := by
    refine inquires_bind (inquires_all fun j hj => ?_) fun _ => trivial
    obtain ⟨n, hn, rfl⟩ := List.mem_map.1 hj
    exact Agreement.inquires_probe hn
  obtain ⟨_, hasked, hend⟩ := Plan.run_maintains (I := fun _ => Asked fleet d)
    (fun act _ _ hallows h => ⟨trivial, h.perform hallows⟩) _ hinquires (Asked.refl fleet d)
  refine ⟨hasked, fun s hs => ?_⟩
  rw [show ((Agreement.check fleet).run.run d).1 = .error s from hs] at hend
  exact hend

end Questions

end FleetSnapshot

namespace FleetSnapshot.Watch

open Audit Job

def Due (interval height : UInt64) (s : Store) : Prop :=
  interval.toNat ∣ height.toNat ∨ Overdue interval height s

structure Passed (p : Capture.Plant) (d d' : Deployment) (r : Except Stop Tick) : Prop where
  asked : Asked p.fleet d d'
  result : r = .ok .notSynced ∨ r = .error .hung

/-- What a tick comes to whose fleet is in step at this height. An attempt that is made may wait for
ever, and the tick with it. -/
structure Heeded (interval height : UInt64) (d d' : Deployment) (r : Except Stop Tick) : Prop where
  processed : d'.gate.processedHeight = height
  next : (∃ m < UInt64.size, interval.toNat ∣ m ∧ height.toNat ≤ m) →
    IsLeast {m | interval.toNat ∣ m ∧ height.toNat ≤ m} d'.gate.nextHeight.toNat
  due : Due interval height d.store →
    (∃ a, a.height.toUInt64 = height ∧ d'.store.attempts = d.store.attempts ++ [a]) ∧
      ((∃ x, r = .ok (.triggered height x)) ∨ r = .error .hung)
  early : ¬ Due interval height d.store →
    d'.store = d.store ∧ r = .ok (.waiting height (blocksLeft height interval))

/-- Nobody is let in, and the records are in order. -/
structure Quiet (d : Deployment) : Prop where
  chronicle : Chronicle d.store
  free : d.gate.inProgress = false

def heed (p : Capture.Plant) (interval height : UInt64) : Job Tick := do
  let left := blocksLeft height interval
  Job.act (.agreed height (height + left))
  let stale := isStale interval height (← Job.act (.audit .mostRecent))
  if left ≠ 0 && !stale then return .waiting height left
  return .triggered height (← (Capture.run p height).outcome)

section Ticks

variable {p : Capture.Plant} {interval : UInt64} {d : Deployment}

theorem perform_tick : (tick p interval).perform d = match (Agreement.check p.fleet).perform d with
    | (.error s, d') => (.error s, d')
    | (.ok none, d') => (.ok .notSynced, d')
    | (.ok (some height), d') => (heed p interval height).perform d' := by
  rw [tick, perform_bind]
  rcases (Agreement.check p.fleet).perform d with ⟨s | _ | height, d'⟩ <;> rfl

/-- The fleet is in step, and there is nothing to be done about it yet. -/
def early (interval height : UInt64) (s : Store) : Bool :=
  blocksLeft height interval ≠ 0 && !isStale interval height (mostRecent s).1

/-- An attempt is made unless it is too early, and what it comes to the tick comes to. -/
theorem heed_perform (p : Capture.Plant) (interval height : UInt64) (h : d.store.Ready) :
    let d₁ := { d with gate := d.gate.agreed height (height + blocksLeft height interval) }
    (heed p interval height).perform d =
      if early interval height d.store then (.ok (.waiting height (blocksLeft height interval)), d₁)
      else match (Capture.run p height).perform d₁ with
        | (.ok a, d') => (.ok (.triggered height (.ok a)), d')
        | (.error (.failed e), d') => (.ok (.triggered height (.error e)), d')
        | (.error .hung, d') => (.error .hung, d') := by
  intro d₁
  have hrecent : (mostRecent d.store).2 = d.store := mostRecent_still d.store h
  have hask : d₁.perform (.audit .mostRecent) = ((mostRecent d.store).1, d₁) :=
    congrArg (fun s => ((mostRecent d.store).1, { d₁ with store := s })) hrecent
  have hperform : (heed p interval height).perform d =
      (if early interval height d.store then pure (.waiting height (blocksLeft height interval))
      else (Capture.run p height).outcome >>= fun x => pure (.triggered height x) : Job Tick).perform
        d₁ := by
    rw [heed, perform_bind, perform_act]
    change Job.perform _ d₁ = _
    rw [perform_bind, perform_act, hask]
    rfl
  rw [hperform]
  split
  · rfl
  · rw [perform_bind, perform_outcome]
    rcases (Capture.run p height).perform d₁ with ⟨(e | _) | x, d'⟩ <;> rfl

theorem heed_cases (p : Capture.Plant) (interval height : UInt64) (h : Quiet d) :
    let d₁ := { d with gate := d.gate.agreed height (height + blocksLeft height interval) }
    if early interval height d.store then
      (heed p interval height).perform d = (.ok (.waiting height (blocksLeft height interval)), d₁)
    else ∃ r, (heed p interval height).perform d = (r, ((Capture.run p height).perform d₁).2) ∧
      ((∃ x, r = .ok (.triggered height x)) ∨ r = .error .hung) := by
  intro d₁
  rw [heed_perform p interval height h.chronicle.ready]
  split
  · rfl
  · dsimp only [d₁]
    rcases (Capture.run p height).perform _ with ⟨(e | _) | x, d'⟩
    · exact ⟨_, rfl, Or.inl ⟨_, rfl⟩⟩
    · exact ⟨_, rfl, Or.inr rfl⟩
    · exact ⟨_, rfl, Or.inl ⟨_, rfl⟩⟩

theorem early_iff (hpos : 0 < interval) (h : Quiet d)
    (hlater : (d.store.attempts.map (·.startTime)).Pairwise (Stamp.le · · = true)) {height : UInt64} :
    early interval height d.store = true ↔ ¬ Due interval height d.store := by
  rw [early, Due, not_or, ← blocksLeft_eq_zero_iff hpos, ← isStale_iff h.chronicle hlater]
  simp

theorem heed_heeded (hpos : 0 < interval) (h : Quiet d)
    (hlater : (d.store.attempts.map (·.startTime)).Pairwise (Stamp.le · · = true))
    (height : UInt64) :
    Heeded interval height d ((heed p interval height).perform d).2
      ((heed p interval height).result d) := by
  have hnext : (∃ m < UInt64.size, interval.toNat ∣ m ∧ height.toNat ≤ m) →
      IsLeast {m | interval.toNat ∣ m ∧ height.toNat ≤ m}
        (height + blocksLeft height interval).toNat := next_isLeast hpos
  have hcases := heed_cases p interval height h
  rw [result]
  dsimp only at hcases
  split at hcases
  case isTrue hearly =>
    rw [hcases]
    exact ⟨rfl, hnext, fun hdue => absurd hdue ((early_iff hpos h hlater).1 hearly),
      fun _ => ⟨rfl, rfl⟩⟩
  case isFalse hnow =>
    have hattempted := Capture.run_attempted p height (d := { d with
      gate := d.gate.agreed height (height + blocksLeft height interval) }) h.chronicle h.free
    obtain ⟨r, hr, hends⟩ := hcases
    obtain ⟨a, ha, hrows⟩ := hattempted.row
    rw [hr]
    refine ⟨hattempted.processed, fun hm => ?_, fun _ => ⟨⟨a, ?_, hrows⟩, hends⟩,
      fun hearly => absurd ((early_iff hpos h hlater).2 hearly) hnow⟩
    · rw [hattempted.next]
      exact hnext hm
    · rw [ha, UInt64.toUInt64_toInt64]

/-- Nobody is let in when the tick is over, and it has taken no attempt away. -/
structure Leaves (d d' : Deployment) : Prop where
  quiet : Quiet d'
  rows : ∃ added, d'.store.attempts = d.store.attempts ++ added

theorem heed_leaves (p : Capture.Plant) (interval height : UInt64) (h : Quiet d) :
    Leaves d ((heed p interval height).perform d).2 := by
  have hcases := heed_cases p interval height h
  dsimp only at hcases
  split at hcases
  · rw [hcases]
    exact ⟨⟨h.chronicle, h.free⟩, [], (List.append_nil _).symm⟩
  · obtain ⟨r, hr, -⟩ := hcases
    have hattempted := Capture.run_attempted p height (d := { d with
      gate := d.gate.agreed height (height + blocksLeft height interval) }) h.chronicle h.free
    obtain ⟨a, -, hrows⟩ := hattempted.row
    rw [hr]
    exact ⟨⟨hattempted.chronicle, hattempted.free⟩, [a], hrows⟩

theorem Quiet.asked {d' : Deployment} (h : Quiet d) (hasked : Asked p.fleet d d') : Quiet d' := by
  obtain ⟨hosts, es, rfl, -⟩ := hasked
  exact ⟨h.chronicle, h.free⟩

theorem tick_leaves (p : Capture.Plant) (interval : UInt64) (h : Quiet d) : Leaves d ((tick p interval).perform d).2 := by
  obtain ⟨hasked, -⟩ := Agreement.check_asked p.fleet d
  rw [perform_tick]
  rcases hcheck : (Agreement.check p.fleet).perform d with ⟨s | _ | height, d₁⟩ <;>
    rw [hcheck] at hasked <;> dsimp only at hasked ⊢
  all_goals
    have hquiet := h.asked hasked
    obtain ⟨hosts, es, rfl, -⟩ := hasked
  · exact ⟨hquiet, [], (List.append_nil _).symm⟩
  · exact ⟨hquiet, [], (List.append_nil _).symm⟩
  · have hleaves := heed_leaves p interval height hquiet
    exact ⟨hleaves.quiet, hleaves.rows⟩

/-- What a tick comes to goes by whether the fleet is in step. -/
theorem tick_step (hpos : 0 < interval) (h : Quiet d)
    (hlater : (d.store.attempts.map (·.startTime)).Pairwise (Stamp.le · · = true)) :
    ((∀ height, (Agreement.check p.fleet).result d ≠ .ok (some height)) →
        Passed p d ((tick p interval).perform d).2 ((tick p interval).result d)) ∧
      ∀ height, (Agreement.check p.fleet).result d = .ok (some height) →
        Heeded interval height d ((tick p interval).perform d).2 ((tick p interval).result d) := by
  obtain ⟨hasked, hstops⟩ := Agreement.check_asked p.fleet d
  simp only [result, perform_tick] at hstops ⊢
  rcases hcheck : (Agreement.check p.fleet).perform d with ⟨s | _ | height, d₁⟩ <;>
    rw [hcheck] at hasked hstops <;> dsimp only at hasked hstops ⊢
  · obtain rfl := hstops s rfl
    exact ⟨fun _ => ⟨hasked, Or.inr rfl⟩, fun _ h => by cases h⟩
  · exact ⟨fun _ => ⟨hasked, Or.inl rfl⟩, fun _ h => by cases h⟩
  · have hquiet := h.asked hasked
    obtain ⟨hosts, es, rfl, -⟩ := hasked
    have hheeded := heed_heeded (p := p) hpos hquiet hlater height
    refine ⟨fun hno => absurd rfl (hno height), ?_⟩
    rintro _ ⟨⟩
    exact ⟨hheeded.processed, hheeded.next, hheeded.due, hheeded.early⟩

/-- A tick adds one attempt at most, behind the others. -/
theorem tick_rows (hpos : 0 < interval) (h : Quiet d)
    (hlater : (d.store.attempts.map (·.startTime)).Pairwise (Stamp.le · · = true)) :
    ((tick p interval).perform d).2.store.attempts = d.store.attempts ∨
      ∃ a, Due interval a.height.toUInt64 d.store ∧
        ((tick p interval).perform d).2.store.attempts = d.store.attempts ++ [a] := by
  obtain ⟨hpassed, hheeded⟩ := tick_step (p := p) hpos h hlater
  by_cases hstep : ∃ height, (Agreement.check p.fleet).result d = .ok (some height)
  · obtain ⟨height, hheight⟩ := hstep
    have hmade := hheeded height hheight
    by_cases hdue : Due interval height d.store
    · obtain ⟨⟨a, rfl, hrows⟩, -⟩ := hmade.due hdue
      exact Or.inr ⟨a, hdue, hrows⟩
    · exact Or.inl (congrArg Store.attempts (hmade.early hdue).1)
  · obtain ⟨hosts, es, hd, -⟩ := (hpassed fun height hheight => hstep ⟨height, hheight⟩).asked
    exact Or.inl (by rw [hd])

end Ticks

structure Round where
  hosts : List Host
  refusesPut : Bool := false

def Round.on (r : Round) (d : Deployment) : Deployment :=
  { d with hosts := r.hosts, refusesPut := r.refusesPut }

def watch (p : Capture.Plant) (interval : UInt64) (d : Deployment) (rounds : List Round) :
    Deployment :=
  rounds.foldl (fun d r => ((tick p interval).perform (r.on d)).2) d

section Rounds

variable {p : Capture.Plant} {interval : UInt64} {d : Deployment}

theorem watch_append (rounds rounds' : List Round) :
    watch p interval d (rounds ++ rounds') = watch p interval (watch p interval d rounds) rounds' :=
  List.foldl_append

/-- Of two attempts that follow each other, the later one is at a boundary or far ahead. -/
def Spaced (interval : UInt64) (a b : AttemptRow) : Prop :=
  interval.toNat ∣ b.height.toUInt64.toNat ∨
    a.height.toUInt64.toNat + interval.toNat < b.height.toUInt64.toNat

theorem watch_leaves (p : Capture.Plant) (interval : UInt64) (h : Quiet d) (rounds : List Round) :
    Leaves d (watch p interval d rounds) := by
  induction rounds generalizing d with
  | nil => exact ⟨h, [], (List.append_nil _).symm⟩
  | cons r rounds ih =>
    have hfound : Quiet (r.on d) := ⟨h.chronicle, h.free⟩
    have htick : Leaves (r.on d) ((tick p interval).perform (r.on d)).2 := tick_leaves p interval hfound
    obtain ⟨added, hadded⟩ := htick.rows
    obtain ⟨hquiet, added', hadded'⟩ := ih htick.quiet
    refine ⟨hquiet, added ++ added', ?_⟩
    rw [← List.append_assoc]
    exact hadded'.trans (congrArg (· ++ added') hadded)

/-- What is in order in the end was so before. -/
theorem later_before (h : Quiet d) {before after : List Round}
    (hlater : ((watch p interval d (before ++ after)).store.attempts.map (·.startTime)).Pairwise
      (Stamp.le · · = true)) :
    ((watch p interval d before).store.attempts.map (·.startTime)).Pairwise
      (Stamp.le · · = true) := by
  have hbefore := watch_leaves p interval h before
  obtain ⟨added, hadded⟩ := (watch_leaves p interval hbefore.quiet after).rows
  rw [watch_append, hadded, List.map_append, List.pairwise_append] at hlater
  exact hlater.1

theorem watch_spaced (hpos : 0 < interval) (h : Quiet d) (rounds : List Round)
    (hlater : ((watch p interval d rounds).store.attempts.map (·.startTime)).Pairwise
      (Stamp.le · · = true))
    (hspaced : d.store.attempts.IsChain (Spaced interval)) :
    (watch p interval d rounds).store.attempts.IsChain (Spaced interval) := by
  induction rounds using List.reverseRecOn with
  | nil => exact hspaced
  | append_singleton rounds r ih =>
    have hbefore := later_before h hlater
    have hquiet := (watch_leaves p interval h rounds).quiet
    have hfound : Quiet (r.on (watch p interval d rounds)) := ⟨hquiet.chronicle, hquiet.free⟩
    rw [watch_append]
    change ((tick p interval).perform (r.on (watch p interval d rounds))).2.store.attempts.IsChain _
    rcases tick_rows hpos hfound hbefore with hsame | ⟨a, hdue, hrows⟩
    · rw [hsame]
      exact ih hbefore
    · rw [hrows, List.isChain_append]
      refine ⟨ih hbefore, List.isChain_singleton _, fun b hb c hc => ?_⟩
      obtain rfl : a = c := Option.some.inj hc
      rcases hdue with hdue | ⟨last, hlast, hfar⟩
      · exact Or.inl hdue
      · obtain rfl : last = b := Option.some.inj (hlast.symm.trans hb)
        exact Or.inr hfar

/-- Whatever the nodes reply in whatever rounds, starting from an empty audit store that refuses
nothing, with times that can be read and that do not go back from one attempt to the next: a tick whose
fleet is not in step only asks the nodes about their state; one whose fleet is in step notes its height
and the next boundary, and makes an attempt just if this is a boundary or the last attempt, whatever
became of it, lies more than the interval back. So two attempts that follow each other are that far
apart, or the later one is at a boundary. -/
theorem schedule_kept (p : Capture.Plant) (interval : UInt64) (hpos : 0 < interval) (d : Deployment)
    (htables : d.store.tables = {}) (htriggers : d.store.triggers = [])
    (hrefusals : d.store.refusals = []) (hfree : d.gate.inProgress = false)
    (htelling : d.store.Telling) (rounds : List Round)
    (hlater : ((watch p interval d rounds).store.attempts.map (·.startTime)).Pairwise
      (Stamp.le · · = true)) :
    (∀ before r after, rounds = before ++ r :: after →
      let found := r.on (watch p interval d before)
      let left := watch p interval d (before ++ [r])
      ((∀ height, (Agreement.check p.fleet).result found ≠ .ok (some height)) →
        Passed p found left ((tick p interval).result found)) ∧
      ∀ height, (Agreement.check p.fleet).result found = .ok (some height) →
        Heeded interval height found left ((tick p interval).result found)) ∧
    (watch p interval d rounds).store.attempts.IsChain (Spaced interval) := by
  have hquiet : Quiet d := ⟨.fresh htables htriggers hrefusals htelling, hfree⟩
  refine ⟨?_, watch_spaced hpos hquiet rounds hlater ?_⟩
  · rintro before r after rfl
    have hfound := (watch_leaves p interval hquiet before).quiet
    have hstep := tick_step (p := p) hpos (d := r.on (watch p interval d before))
      ⟨hfound.chronicle, hfound.free⟩ (later_before hquiet hlater)
    dsimp only
    rw [watch_append]
    exact hstep
  · rw [Store.attempts, htables]
    exact .nil

def roundAt (height : String) : Round where
  hosts := [Agreement.soundHost Capture.loneNode height]

def rehearsed : Capture.Plant := { Capture.lonePlant with dryRun := true }

def unwatched : Deployment where
  hosts := []
  store := { clock := fun _ => default }
  gate := { blockInterval := 1000 }

/-- A first attempt at a boundary, and another one when the next boundary has been missed. -/
theorem schedule_kept_overdue :
    (0 : UInt64) < 1000 ∧ unwatched.store.tables = {} ∧ unwatched.store.triggers = [] ∧
      unwatched.store.refusals = [] ∧ unwatched.gate.inProgress = false ∧
      unwatched.store.Telling ∧
      ∃ first second : AttemptRow,
        (watch rehearsed 1000 unwatched [roundAt "0x3e8", roundAt "0x9c4"]).store.attempts =
          [first, second] ∧ second.height.toUInt64 = 2500 ∧
        Stamp.le first.startTime second.startTime = true ∧ Spaced 1000 first second := by
  have htelling : unwatched.store.Telling := by
    have hdefault : (Stamp.ofInstant default).instant?.isSome = true := by decide +kernel
    exact fun _ => hdefault
  have hmap : (watch rehearsed 1000 unwatched [roundAt "0x3e8", roundAt "0x9c4"]).store.attempts.map
      (fun a => (a.height.toUInt64, a.startTime)) =
      [(1000, .ofInstant default), (2500, .ofInstant default)] := by decide +kernel
  obtain ⟨first, rest, hrows, hfirst, hrest⟩ := List.map_eq_cons_iff.1 hmap
  obtain ⟨second, none, rfl, hsecond, hnone⟩ := List.map_eq_cons_iff.1 hrest
  obtain rfl := List.map_eq_nil_iff.1 hnone
  rw [Prod.mk.injEq] at hfirst hsecond
  have hle : Stamp.le first.startTime second.startTime = true := by
    rw [hfirst.2, hsecond.2]
    decide +kernel
  obtain ⟨-, hspaced⟩ := schedule_kept rehearsed 1000 (by decide) unwatched rfl rfl rfl rfl htelling
    [roundAt "0x3e8", roundAt "0x9c4"] (by simpa [hrows] using hle)
  rw [hrows, List.isChain_pair] at hspaced
  exact ⟨by decide, rfl, rfl, rfl, rfl, htelling, first, second, hrows, hsecond.1, hle, hspaced⟩

end Rounds

end FleetSnapshot.Watch
