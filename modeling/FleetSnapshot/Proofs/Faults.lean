import FleetSnapshot.Proofs.Drill
import FleetSnapshot.Proofs.Restart

/-! What the journal shows of an attempt. A step that fails does so with the last of its commands, and
the error can be read off the reply, or off the heights if they differ. So whatever goes wrong in
the preparations or in the return to service is seen in the events of that phase. -/

namespace FleetSnapshot

namespace Event

def phase? : Event → Option Phase
  | .command _ phase _ _ | .put phase _ _ _ => some phase
  | _ => none

def call? : Event → Option (Nat × String)
  | .command node _ text _ => some (node, text)
  | _ => none

/-- A command that goes on for ever. -/
def hangs : Event → Bool
  | .command _ _ _ .silent => true
  | _ => false

/-- What is wrong with the node, going by the reply. -/
def fault? (fleet : List Node) : Event → Option Error
  | .command node _ text reply => (fleet.find? (·.index == node)).bind (·.fault? text reply)
  | _ => none

def height? (fleet : List Node) : Event → Option (String × UInt64)
  | .command node _ text (.output out) => (fleet.find? (·.index == node)).bind fun n =>
    if text = n.heightCommand then (Quantity.read? out).map (n.target.name, ·) else none
  | _ => none

end Event

def during (φ : Phase) (es : List Event) : List Event := es.filter (·.phase? = some φ)

def spoken (es : List Event) : List (Nat × String) := es.filterMap Event.call?

def firstFault (fleet : List Node) (es : List Event) : Option Error :=
  es.findSome? (Event.fault? fleet)

def heightsTold (fleet : List Node) (es : List Event) : List (String × UInt64) :=
  es.filterMap (Event.height? fleet)

section During

variable {φ ψ : Phase} {es es' : List Event}

theorem during_append (φ : Phase) (es es' : List Event) :
    during φ (es ++ es') = during φ es ++ during φ es' := List.filter_append es es'

theorem during_same (h : ∀ e ∈ es, e.phase? = some φ) : during φ es = es :=
  List.filter_eq_self.2 fun e he => by simpa using h e he

theorem during_other (h : ∀ e ∈ es, e.phase? = some ψ) (hne : ψ ≠ φ) : during φ es = [] :=
  List.filter_eq_nil_iff.2 fun e he => by simpa [h e he] using hne

theorem firstFault_append (fleet : List Node) (es es' : List Event) :
    firstFault fleet (es ++ es') = (firstFault fleet es).or (firstFault fleet es') :=
  List.findSome?_append

theorem heightsTold_append (fleet : List Node) (es es' : List Event) :
    heightsTold fleet (es ++ es') = heightsTold fleet es ++ heightsTold fleet es' :=
  List.filterMap_append

theorem spoken_append (es es' : List Event) : spoken (es ++ es') = spoken es ++ spoken es' :=
  List.filterMap_append

end During

namespace Node

section Words

/-- Texts that go on differently after a common opening are different. -/
theorem apart_of_parts {a b : String} (h : ¬ a.toList <+: b.toList) (h' : ¬ b.toList <+: a.toList)
    (opening rest rest' : String) : opening ++ a ++ rest ≠ opening ++ b ++ rest' := by
  intro heq
  have hl := congrArg String.toList heq
  simp only [String.toList_append, List.append_assoc, List.append_cancel_left_eq] at hl
  have hp : a.toList <+: b.toList ++ rest'.toList := ⟨rest.toList, hl⟩
  rcases List.prefix_or_prefix_of_prefix hp (List.prefix_append _ _) with hp | hp
  · exact h hp
  · exact h' hp

/-- Dumps are told from the question for the height by what they ask. -/
theorem dumpCommand_apart (n : Node) {request : String} (path : String)
    (h : ¬ (Shell.quote request).toList <+: (Shell.quote (requestOf "eth_blockNumber")).toList)
    (h' : ¬ (Shell.quote (requestOf "eth_blockNumber")).toList <+: (Shell.quote request).toList) :
    n.dumpCommand request path ≠ n.heightCommand := by
  have apart : ∀ opening a b c d e : String, opening ++ Shell.quote request ++ a ++ b ++ c ++ d ++
      path ++ e ≠ opening ++ Shell.quote (requestOf "eth_blockNumber") ++ a ++ b ++ c := by
    intro opening a b c d e heq
    refine apart_of_parts h h' opening (a ++ b ++ c ++ d ++ path ++ e) (a ++ b ++ c) ?_
    simpa only [String.append_assoc] using heq
  exact apart _ _ _ _ _ _

theorem dumpCalls_apart (n : Node) : ∀ c ∈ Capture.dumpCalls n, c ≠ n.heightCommand := by
  intro c hc
  rcases List.mem_cons.1 hc with rfl | hc
  · exact n.dumpCommand_apart _ (by decide +kernel) (by decide +kernel)
  · rw [List.mem_singleton.1 hc]
    exact n.dumpCommand_apart _ (by decide +kernel) (by decide +kernel)

theorem stop_apart (n : Node) (container : String) (force : Bool) :
    stopCommand container force ≠ n.heightCommand := fun h =>
  ((foreign_rpcCommand n _).idle container).2 force h.symm

theorem start_apart (n : Node) (container : String) : startCommand container ≠ n.heightCommand :=
  fun h => ((foreign_rpcCommand n _).idle container).1 h.symm

end Words

end Node

/-- What a job comes to is seen in its events: it fails with the last of them, and it waits for a
command without a reply. -/
def Shows {α : Type} (fleet : List Node) (es : List Event) : Except Stop α → Prop
  | .ok _ => firstFault fleet es = none ∧ ∀ e ∈ es, Capture.replied e = true
  | .error (.failed e) => ∃ before last, es = before ++ [last] ∧ firstFault fleet before = none ∧
      last.fault? fleet = some e
  | .error .hung => firstFault fleet es = none ∧ ∃ e ∈ es, e.hangs = true

section Shows

open Job

variable {α β : Type} {fleet : List Node} {es es' : List Event}

theorem shows_nil (a : α) : Shows fleet [] (.ok a) := ⟨rfl, List.forall_mem_nil _⟩

theorem Shows.map {r : Except Stop α} (h : Shows fleet es r) (f : α → β) :
    Shows fleet es (r.map f) := by
  rcases r with (e | _) | a <;> exact h

theorem Shows.failed {e : Error} (h : Shows (α := α) fleet es (.error (.failed e))) :
    firstFault fleet es = some e := by
  obtain ⟨before, last, rfl, hbefore, hlast⟩ := h
  rw [firstFault_append, hbefore, Option.none_or, firstFault, List.findSome?_singleton, hlast]

theorem Shows.failFast {r : Except Stop α} (h : Shows fleet es r) : ∀ e, firstFault fleet es = some e →
    ∃ before last, es = before ++ [last] ∧ firstFault fleet before = none ∧
      last.fault? fleet = some e := by
  intro e he
  rcases r with (e' | _) | a
  · rw [h.failed] at he
    cases he
    exact h
  · rw [h.1] at he
    cases he
  · rw [h.1] at he
    cases he

/-- Behind events without a fault, whether one of them has had no reply or not. -/
theorem Shows.behind {r : Except Stop α} (hes : firstFault fleet es = none)
    (h : Shows fleet es' r) (hok : ∀ a, r = .ok a → ∀ e ∈ es, Capture.replied e = true) :
    Shows fleet (es ++ es') r := by
  have hfault : firstFault fleet (es ++ es') = firstFault fleet es' := by
    rw [firstFault_append, hes, Option.none_or]
  rcases r with (e | _) | a
  · obtain ⟨before, last, rfl, hbefore, hlast⟩ := h
    refine ⟨es ++ before, last, (List.append_assoc _ _ _).symm, ?_, hlast⟩
    rw [firstFault_append, hes, hbefore, Option.none_or]
  · obtain ⟨hnone, e, he, hhangs⟩ := h
    exact ⟨hfault.trans hnone, e, List.mem_append_right _ he, hhangs⟩
  · refine ⟨hfault.trans h.1, fun e he => ?_⟩
    rcases List.mem_append.1 he with he | he
    · exact hok a rfl e he
    · exact h.2 e he

theorem Shows.append {a : α} {r : Except Stop β} (h : Shows fleet es (.ok a))
    (h' : Shows fleet es' r) : Shows fleet (es ++ es') r :=
  Shows.behind h.1 h' fun _ _ => h.2

theorem Shows.waiting {r : Except Stop (List β)} (h : Shows (α := α) fleet es (.error .hung))
    (h' : Shows fleet es' r) : Shows fleet (es ++ es') (waiting r) := by
  obtain ⟨hnone, e, he, hhangs⟩ := h
  rcases r with (e' | _) | as
  · exact Shows.behind hnone h' nofun
  · exact Shows.behind hnone h' nofun
  · refine ⟨?_, e, List.mem_append_left _ he, hhangs⟩
    rw [firstFault_append, hnone, h'.1, Option.none_or]

end Shows

namespace Job

section FailFast

variable {ι α : Type} {P : ι → List Event → Except Stop α → Prop} {is : List ι} {es : List Event}
  {r : Except Stop (List α)} {fleet : List Node}

theorem FailFast.shows (h : FailFast P is es r)
    (hP : ∀ i ∈ is, ∀ es r, P i es r → Shows fleet es r) : Shows fleet es r := by
  induction h with
  | nil => exact shows_nil []
  | failed h => exact (hP _ List.mem_cons_self _ _ h).map id
  | hung h _ ih =>
    have hrest := ih fun i hi => hP i (List.mem_cons_of_mem _ hi)
    exact (hP _ List.mem_cons_self _ _ h).waiting hrest
  | ok h _ ih =>
    have hrest := ih fun i hi => hP i (List.mem_cons_of_mem _ hi)
    exact ((hP _ List.mem_cons_self _ _ h).append hrest).map _

/-- Every event belongs to one of the jobs. -/
theorem FailFast.event (h : FailFast P is es r) {e : Event} (he : e ∈ es) :
    ∃ i ∈ is, ∃ es' r', P i es' r' ∧ e ∈ es' := by
  have later : ∀ {i : ι} {is : List ι}, (∃ i ∈ is, ∃ es' r', P i es' r' ∧ e ∈ es') →
      ∃ j ∈ i :: is, ∃ es' r', P j es' r' ∧ e ∈ es' := by
    rintro i is ⟨j, hj, hpart⟩
    exact ⟨j, List.mem_cons_of_mem _ hj, hpart⟩
  induction h with
  | nil => cases he
  | failed h => exact ⟨_, List.mem_cons_self, _, _, h, he⟩
  | hung h _ ih =>
    rcases List.mem_append.1 he with he | he
    · exact ⟨_, List.mem_cons_self, _, _, h, he⟩
    · exact later (ih he)
  | ok h _ ih =>
    rcases List.mem_append.1 he with he | he
    · exact ⟨_, List.mem_cons_self, _, _, h, he⟩
    · exact later (ih he)

/-- The commands come in the order of the jobs. -/
theorem FailFast.spoken (h : FailFast P is es r) {calls : ι → List (Nat × String)}
    (hP : ∀ i ∈ is, ∀ es r, P i es r → (spoken es).Sublist (calls i)) :
    (spoken es).Sublist (is.flatMap calls) := by
  induction h with
  | nil => exact List.nil_sublist _
  | failed h =>
    rw [List.flatMap_cons]
    exact (hP _ List.mem_cons_self _ _ h).trans (List.sublist_append_left _ _)
  | hung h _ ih =>
    rw [spoken_append, List.flatMap_cons]
    exact (hP _ List.mem_cons_self _ _ h).append (ih fun i hi => hP i (List.mem_cons_of_mem _ hi))
  | ok h _ ih =>
    rw [spoken_append, List.flatMap_cons]
    exact (hP _ List.mem_cons_self _ _ h).append (ih fun i hi => hP i (List.mem_cons_of_mem _ hi))

/-- If it succeeds then all the jobs have, each with its own result. -/
theorem FailFast.parts {as : List α} (h : FailFast P is es (.ok as)) :
    ∀ i ∈ is, ∃ es' a, P i es' (.ok a) ∧ es' ⊆ es ∧ a ∈ as := by
  generalize hr : (Except.ok as : Except Stop (List α)) = r at h
  induction h generalizing as with
  | nil => exact nofun
  | failed => cases hr
  | @hung _ _ _ _ r => rcases r with (_ | _) | _ <;> cases hr
  | @ok i is es es' a r h _ ih =>
    rcases r with s | as'
    · cases hr
    cases hr
    intro j hj
    rcases List.mem_cons.1 hj with rfl | hj
    · exact ⟨es, a, h, List.subset_append_left _ _, List.mem_cons_self⟩
    · obtain ⟨es'', a', hP, hes, ha⟩ := ih rfl j hj
      exact ⟨es'', a', hP, List.subset_append_of_subset_right _ hes, List.mem_cons_of_mem _ ha⟩

/-- What the jobs come to can be read off the events if it can be for each. -/
theorem FailFast.results {as : List α} (h : FailFast P is es (.ok as)) {view : Event → Option α}
    (hP : ∀ i ∈ is, ∀ es a, P i es (.ok a) → es.filterMap view = [a]) :
    es.filterMap view = as := by
  generalize hr : (Except.ok as : Except Stop (List α)) = r at h
  induction h generalizing as with
  | nil =>
    cases hr
    rfl
  | failed => cases hr
  | @hung _ _ _ _ r => rcases r with (_ | _) | _ <;> cases hr
  | @ok i is es es' a r h _ ih =>
    rcases r with s | as'
    · cases hr
    cases hr
    have hrest := ih (fun i hi => hP i (List.mem_cons_of_mem _ hi)) rfl
    rw [List.filterMap_append, hP i List.mem_cons_self es a h, hrest]
    rfl

theorem FailFast.map_eq {β : Type} {as : List α} (h : FailFast P is es (.ok as)) {f : ι → β}
    {g : α → β} (hP : ∀ i es a, P i es (.ok a) → g a = f i) : as.map g = is.map f := by
  generalize hr : (Except.ok as : Except Stop (List α)) = r at h
  induction h generalizing as with
  | nil =>
    cases hr
    rfl
  | failed => cases hr
  | @hung _ _ _ _ r => rcases r with (_ | _) | _ <;> cases hr
  | @ok i is es es' a r h _ ih =>
    rcases r with s | as'
    · cases hr
    cases hr
    rw [List.map_cons, List.map_cons, hP i es a h, ih rfl]

end FailFast

end Job

namespace Node

section Fleet

variable {fleet : List Node} {n : Node} {φ : Phase} {c : String} {cs : List String}
  {es : List Event}

theorem find_of_seated (hseats : (fleet.map (·.index)).Nodup) (hn : n ∈ fleet) :
    fleet.find? (·.index == n.index) = some n :=
  Audit.find_of_mem hseats hn

theorem fault_command (hseats : (fleet.map (·.index)).Nodup) (hn : n ∈ fleet) (reply : Reply) :
    Event.fault? fleet (.command n.index φ c reply) = n.fault? c reply := by
  rw [Event.fault?, find_of_seated hseats hn, Option.bind_some]

theorem fault_output (hc : c ≠ n.heightCommand) (out : String) : n.fault? c (.output out) = none := by
  rw [fault?, if_neg fun h => hc h.1]

/-- A single command, of which nothing but its success is asked. -/
theorem shows_command (hseats : (fleet.map (·.index)).Nodup) (hn : n ∈ fleet)
    (hc : c ≠ n.heightCommand) (reply : Reply) :
    Shows fleet [.command n.index φ c reply] (n.heard reply) := by
  have hfault := fault_command (φ := φ) (c := c) hseats hn reply
  cases reply with
  | output out =>
    refine ⟨?_, fun e he => by rw [List.mem_singleton.1 he]; rfl⟩
    rw [firstFault, List.findSome?_singleton, hfault, fault_output hc]
  | unreachable reason => exact ⟨[], _, rfl, rfl, hfault⟩
  | failed reason => exact ⟨[], _, rfl, rfl, hfault⟩
  | silent =>
    refine ⟨?_, _, List.mem_singleton.2 rfl, rfl⟩
    rw [firstFault, List.findSome?_singleton, hfault]
    rfl

theorem Obeys.shows {r : Except Stop Unit} (h : n.Obeys φ cs es r)
    (hseats : (fleet.map (·.index)).Nodup) (hn : n ∈ fleet) (hcs : ∀ c ∈ cs, c ≠ n.heightCommand) :
    Shows fleet es r := by
  induction h with
  | nil => exact shows_nil ()
  | @stops c _ reply s h =>
    have hlast := shows_command (φ := φ) hseats hn (hcs c List.mem_cons_self) reply
    rw [h] at hlast
    exact hlast.map fun _ => ()
  | @goes c _ out _ _ _ ih =>
    have hfirst := shows_command (φ := φ) hseats hn (hcs c List.mem_cons_self) (.output out)
    exact hfirst.append (ih fun c hc => hcs c (List.mem_cons_of_mem _ hc))

theorem Obeys.event {r : Except Stop Unit} (h : n.Obeys φ cs es r) {e : Event} (he : e ∈ es) :
    ∃ c ∈ cs, ∃ reply, e = .command n.index φ c reply := by
  induction h with
  | nil => cases he
  | stops => exact ⟨_, List.mem_cons_self, _, List.mem_singleton.1 he⟩
  | goes _ ih =>
    rcases List.mem_cons.1 he with rfl | he
    · exact ⟨_, List.mem_cons_self, _, rfl⟩
    · obtain ⟨c, hc, reply, rfl⟩ := ih he
      exact ⟨c, List.mem_cons_of_mem _ hc, reply, rfl⟩

theorem Obeys.spoken {r : Except Stop Unit} (h : n.Obeys φ cs es r) :
    (spoken es).Sublist (cs.map (n.index, ·)) := by
  induction h with
  | nil => exact List.nil_sublist _
  | stops => exact List.Sublist.cons_cons _ (List.nil_sublist _)
  | goes _ ih => exact List.Sublist.cons_cons _ ih

theorem Obeys.complete (h : n.Obeys φ cs es (.ok ())) :
    ∀ c ∈ cs, ∃ out, .command n.index φ c (.output out) ∈ es := by
  generalize hr : (Except.ok () : Except Stop Unit) = r at h
  induction h with
  | nil => exact nofun
  | stops => cases hr
  | goes _ ih =>
    intro c hc
    rcases List.mem_cons.1 hc with rfl | hc
    · exact ⟨_, List.mem_cons_self⟩
    · obtain ⟨out, hout⟩ := ih hr c hc
      exact ⟨out, List.mem_cons_of_mem _ hout⟩

theorem Reports.shows {r : Except Stop (String × UInt64)} (h : n.Reports φ es r)
    (hseats : (fleet.map (·.index)).Nodup) (hn : n ∈ fleet) : Shows fleet es r := by
  obtain ⟨reply, rfl, rfl⟩ := h
  have hfault := fault_command (φ := φ) (c := n.heightCommand) hseats hn reply
  refine Shows.map ?_ _
  cases reply with
  | output out =>
    simp only [heard, Except.bind, heightIn]
    rw [fault?] at hfault
    cases hq : Quantity.read? out with
    | some height =>
      rw [if_neg (by simp [hq])] at hfault
      refine ⟨?_, fun e he => by rw [List.mem_singleton.1 he]; rfl⟩
      rw [firstFault, List.findSome?_singleton, hfault]
    | none =>
      rw [if_pos ⟨rfl, hq⟩] at hfault
      exact ⟨[], _, rfl, rfl, hfault⟩
  | unreachable reason => exact ⟨[], _, rfl, rfl, hfault⟩
  | failed reason => exact ⟨[], _, rfl, rfl, hfault⟩
  | silent =>
    refine ⟨?_, _, List.mem_singleton.2 rfl, rfl⟩
    rw [firstFault, List.findSome?_singleton, hfault]
    rfl

/-- A node that reports its height has told it. -/
theorem Reports.told {a : String × UInt64} (h : n.Reports φ es (.ok a))
    (hseats : (fleet.map (·.index)).Nodup) (hn : n ∈ fleet) :
    heightsTold fleet es = [a] ∧ ∃ out, es = [.command n.index φ n.heightCommand (.output out)] ∧
      Quantity.read? out = some a.2 := by
  obtain ⟨reply, rfl, hr⟩ := h
  cases reply with
  | output out =>
    simp only [heard, Except.bind, heightIn] at hr
    cases hq : Quantity.read? out with
    | some height =>
      rw [hq] at hr
      cases hr
      refine ⟨?_, out, rfl, hq⟩
      simp [heightsTold, Event.height?, find_of_seated hseats hn, hq]
    | none =>
      rw [hq] at hr
      cases hr
  | _ => cases hr

theorem Reports.name {a : String × UInt64} (h : n.Reports φ es (.ok a)) : a.1 = n.target.name := by
  obtain ⟨reply, -, hr⟩ := h
  cases hh : (n.heard reply).bind n.heightIn with
  | error s =>
    rw [hh] at hr
    cases hr
  | ok height =>
    rw [hh] at hr
    cases hr
    rfl

/-- Commands other than the question for it tell no height. -/
theorem no_height (hseats : (fleet.map (·.index)).Nodup)
    (h : ∀ e ∈ es, ∃ n ∈ fleet, ∃ c, c ≠ n.heightCommand ∧ ∃ reply,
      e = .command n.index φ c reply) : heightsTold fleet es = [] := by
  refine List.filterMap_eq_nil_iff.2 fun e he => ?_
  obtain ⟨n, hn, c, hc, reply, rfl⟩ := h e he
  cases reply with
  | output out => rw [Event.height?, find_of_seated hseats hn, Option.bind_some, if_neg hc]
  | _ => rfl

end Fleet

end Node

namespace Capture

open Job Node

/-- What keeps the preparations from success, going by their events: a fault of a node, or heights
that are not the same everywhere. -/
def unprepared? (fleet : List Node) (es : List Event) : Option Error :=
  (firstFault fleet es).or <| match Agreement.unanimous ((heightsTold fleet es).map (·.2)) with
    | some _ => none
    | none => some (Agreement.disagreement (heightsTold fleet es))

def Heard (fleet : List Node) (es : List Event) : Prop :=
  (heightsTold fleet es).map (·.1) = fleet.map (·.target.name)

section Steps

variable {fleet : List Node} {φ : Phase} {es : List Event} {r : Except Stop Unit}
  {calls : Node → List String}

theorem Step.event (h : Step calls fleet φ es r) {e : Event} (he : e ∈ es) :
    ∃ n ∈ fleet, ∃ c ∈ calls n, ∃ reply, e = .command n.index φ c reply := by
  obtain ⟨rs, hrs, -⟩ := h
  obtain ⟨n, hn, es', r', hobeys, he⟩ := hrs.event he
  exact ⟨n, hn, hobeys.event he⟩

theorem Step.shows (h : Step calls fleet φ es r) (hseats : (fleet.map (·.index)).Nodup)
    (hcalls : ∀ n, ∀ c ∈ calls n, c ≠ n.heightCommand) : Shows fleet es r := by
  obtain ⟨rs, hrs, rfl⟩ := h
  exact (hrs.shows fun n hn es r h => h.shows hseats hn (hcalls n)).map _

theorem Step.spoken (h : Step calls fleet φ es r) :
    (spoken es).Sublist (fleet.flatMap fun n => (calls n).map (n.index, ·)) := by
  obtain ⟨rs, hrs, -⟩ := h
  exact hrs.spoken fun n _ es r h => h.spoken

theorem Step.complete (h : Step calls fleet φ es (.ok ())) :
    ∀ n ∈ fleet, ∀ c ∈ calls n, ∃ out, .command n.index φ c (.output out) ∈ es := by
  obtain ⟨rs, hrs, hr⟩ := h
  rcases rs with s | as
  · cases hr
  intro n hn c hc
  obtain ⟨es', a, hobeys, hsub, -⟩ := hrs.parts n hn
  obtain ⟨out, hout⟩ := hobeys.complete c hc
  exact ⟨out, hsub hout⟩

theorem Step.no_height (h : Step calls fleet φ es r) (hseats : (fleet.map (·.index)).Nodup)
    (hcalls : ∀ n, ∀ c ∈ calls n, c ≠ n.heightCommand) : heightsTold fleet es = [] := by
  refine Node.no_height (φ := φ) hseats fun e he => ?_
  obtain ⟨n, hn, c, hc, reply, rfl⟩ := h.event he
  exact ⟨n, hn, c, hcalls n c hc, reply, rfl⟩

end Steps

section Recheck

variable {fleet : List Node} {φ : Phase} {es : List Event} {r : Except Stop Unit}

theorem Recheck.event (h : Recheck fleet φ es r) {e : Event} (he : e ∈ es) :
    ∃ n ∈ fleet, ∃ reply, e = .command n.index φ n.heightCommand reply := by
  obtain ⟨rs, hrs, -⟩ := h
  obtain ⟨n, hn, es', r', ⟨reply, rfl, -⟩, he⟩ := hrs.event he
  exact ⟨n, hn, reply, List.mem_singleton.1 he⟩

theorem Recheck.spoken (h : Recheck fleet φ es r) :
    (spoken es).Sublist (fleet.flatMap fun n => [(n.index, n.heightCommand)]) := by
  obtain ⟨rs, hrs, -⟩ := h
  refine hrs.spoken fun n _ es r h => ?_
  obtain ⟨reply, rfl, -⟩ := h
  exact List.Sublist.refl _

/-- Either a node is at fault, or it all depends on the heights that were told. -/
theorem Recheck.shows (h : Recheck fleet φ es r) (hseats : (fleet.map (·.index)).Nodup) :
    (∃ s, r = .error s ∧ Shows fleet es r) ∨ Shows fleet es (.ok ()) ∧
      r = agreed (heightsTold fleet es) ∧ Heard fleet es := by
  obtain ⟨rs, hrs, rfl⟩ := h
  have hshows := hrs.shows fun n hn es r h => h.shows hseats hn
  rcases rs with s | heights
  · exact Or.inl ⟨s, rfl, hshows.map fun _ => ()⟩
  · have htold : heightsTold fleet es = heights :=
      hrs.results fun n hn es a h => (h.told hseats hn).1
    have hnames := hrs.map_eq (f := (·.target.name)) (g := (·.1)) fun n _ _ h => h.name
    exact Or.inr ⟨hshows, by rw [htold]; rfl, by rw [Heard, htold, hnames]⟩

theorem unanimous_all {heights : List UInt64} {h : UInt64}
    (hu : Agreement.unanimous heights = some h) : ∀ h' ∈ heights, h' = h := by
  unfold Agreement.unanimous at hu
  split at hu
  · cases hu
  · split at hu
    · rename_i h₀ hs hall
      cases hu
      intro h' hmem
      rcases List.mem_cons.1 hmem with rfl | hmem
      · rfl
      · exact beq_iff_eq.1 (List.all_eq_true.1 hall h' hmem)
    · cases hu

/-- If the re-check is passed then all nodes stand at one height. -/
theorem Recheck.passed (h : Recheck fleet φ es (.ok ())) (hseats : (fleet.map (·.index)).Nodup) :
    ∃ height, ∀ n ∈ fleet, ∃ out, .command n.index φ n.heightCommand (.output out) ∈ es ∧
      Quantity.read? out = some height := by
  obtain ⟨rs, hrs, hr⟩ := h
  rcases rs with s | heights
  · cases hr
  change Except.ok () = agreed heights at hr
  unfold agreed at hr
  split at hr
  · rename_i height hu
    refine ⟨height, fun n hn => ?_⟩
    obtain ⟨es', a, hreports, hsub, ha⟩ := hrs.parts n hn
    obtain ⟨-, out, rfl, hread⟩ := hreports.told hseats hn
    rw [unanimous_all hu a.2 (List.mem_map_of_mem ha)] at hread
    exact ⟨out, hsub (List.mem_singleton.2 rfl), hread⟩
  · cases hr

end Recheck

section Series

variable {fleet : List Node} {φ : Phase} {es : List Event} {r : Except Stop Unit}
  {Ps : List (Phase → List Event → Except Stop Unit → Prop)}

theorem Series.shows (h : Series φ Ps es r)
    (hP : ∀ P ∈ Ps, ∀ es r, P φ es r → Shows fleet es r) : Shows fleet es r := by
  induction h with
  | nil => exact shows_nil ()
  | stops h => exact hP _ List.mem_cons_self _ _ h
  | goes h _ ih =>
    exact (hP _ List.mem_cons_self _ _ h).append (ih fun P hmem => hP P (List.mem_cons_of_mem _ hmem))

theorem Series.event {R : Event → Prop} (h : Series φ Ps es r)
    (hP : ∀ P ∈ Ps, ∀ es r, P φ es r → ∀ e ∈ es, R e) : ∀ e ∈ es, R e := by
  induction h with
  | nil => exact nofun
  | stops h => exact hP _ List.mem_cons_self _ _ h
  | goes h _ ih =>
    intro e he
    rcases List.mem_append.1 he with he | he
    · exact hP _ List.mem_cons_self _ _ h e he
    · exact ih (fun P hmem => hP P (List.mem_cons_of_mem _ hmem)) e he

end Series

end Capture

end FleetSnapshot
