import FleetSnapshot.Proofs.Attempt

/-! The fleet is at rest before anything is uploaded, and stays at rest until every upload is over.
A command that fails in the preparations, or heights that differ, end the attempt on the spot. Once
the fleet is at rest, it is started again whatever becomes of the uploads and the marker. An attempt
goes on for ever only if one of its commands does. -/

namespace FleetSnapshot

open Node Job

namespace Capture

def askHeight (n : Node) : List String := [n.heightCommand]

def preparationSteps : List (Node → List String) :=
  [stopSidecar, askHeight, dumpCalls, stopExecution]

def restorationSteps : List (Node → List String) := [startSidecar, startExecution, cycleConsensus]

def callsOf (fleet : List Node) (calls : Node → List String) : List (Nat × String) :=
  fleet.flatMap fun n => (calls n).map (n.index, ·)

/-- The events of some steps of the whole fleet, all in one phase. The commands come step by step and
in the order of the fleet, and none comes after one that shows a node at fault. -/
structure Drilled (fleet : List Node) (φ : Phase) (steps : List (Node → List String))
    (es : List Event) : Prop where
  commands : ∀ e ∈ es, ∃ node text reply, e = .command node φ text reply
  order : (spoken es).Sublist (steps.flatMap (callsOf fleet))
  failFast : ∀ e, firstFault fleet es = some e → ∃ before last, es = before ++ [last] ∧
    firstFault fleet before = none ∧ last.fault? fleet = some e

/-- Every node has done all that it was told, and they stand at one height. -/
structure Quiesced (fleet : List Node) (es : List Event) : Prop where
  replied : ∀ e ∈ es, Capture.replied e = true
  obeyed : ∀ calls ∈ preparationSteps, ∀ n ∈ fleet, ∀ c ∈ calls n,
    ∃ out, .command n.index .preparing c (.output out) ∈ es
  level : ∃ height, ∀ n ∈ fleet, ∃ out,
    .command n.index .preparing n.heightCommand (.output out) ∈ es ∧
      Quantity.read? out = some height

/-- All nodes have told their heights, unless one is at fault or is waited for. -/
def Questioned (fleet : List Node) (es : List Event) : Prop :=
  firstFault fleet es = none → (∀ e ∈ es, e.hangs = false) → Heard fleet es

/-- The uploads of the nodes one after the other; nothing of one that could not be put on record. -/
def Uploaded (fleet : List Node) (height : UInt64) (es : List Event) : Prop :=
  ∃ parts : List (List Event), es = parts.flatten ∧
    List.Forall₂ (fun n part => part = [] ∨ ∃ r, n.Sends height .uploading part r) fleet parts

/-- The events of a real attempt in four parts: the preparations, the uploads, the marker and the
return to service. -/
structure Barrier (p : Plant) (height : UInt64) (prep up mark rest : List Event) : Prop where
  preparing : Drilled p.fleet .preparing preparationSteps prep
  uploading : Uploaded p.fleet height up
  marking : mark = [] ∨ ∃ accepted,
    mark = [.put .uploading (markerKey p) (toString height.toNat) accepted]
  restoring : Drilled p.fleet .restoring restorationSteps rest
  /-- Until the uploads are over, no container is started and no consensus client is stopped, unless it
  shares a container with the execution client. -/
  unstarted : ∀ node container, (node, startCommand container) ∉ spoken (prep ++ up ++ mark)
  unstopped : ∀ n ∈ p.fleet, n.target.containers.consensus ≠ n.target.containers.execution →
    (n.index, stopCommand n.target.containers.consensus false) ∉ spoken (prep ++ up ++ mark)
  /-- Nothing follows the preparations unless the whole fleet is at rest. -/
  quiesced : up ++ mark ++ rest ≠ [] → Quiesced p.fleet prep
  /-- While a node is still uploading there is no marker and no start. -/
  finished : mark ++ rest ≠ [] → ∀ e ∈ up, e.hangs = false
  /-- Nodes at different heights are told nothing more. -/
  atOdds : Agreement.unanimous ((heightsTold p.fleet prep).map (·.2)) = none →
    (spoken prep).Sublist (callsOf p.fleet stopSidecar ++ callsOf p.fleet askHeight)
  aborted : unprepared? p.fleet prep ≠ none → up = [] ∧ mark = [] ∧ rest = []
  /-- A fleet at rest is started again, once the uploads are over. -/
  returned : unprepared? p.fleet prep = none → (∀ e ∈ prep ++ up, e.hangs = false) →
    ∃ n ∈ p.fleet.head?, ∃ reply, rest.head? =
      some (.command n.index .restoring (startCommand n.target.containers.sidecar) reply)

theorem stopSidecar_apart (n : Node) : ∀ c ∈ stopSidecar n, c ≠ n.heightCommand := by
  intro c hc
  rw [List.mem_singleton.1 hc]
  exact n.stop_apart _ true

theorem stopExecution_apart (n : Node) : ∀ c ∈ stopExecution n, c ≠ n.heightCommand := by
  intro c hc
  rw [List.mem_singleton.1 hc]
  exact n.stop_apart _ false

theorem restorationSteps_apart :
    ∀ calls ∈ restorationSteps, ∀ n : Node, ∀ c ∈ calls n, c ≠ n.heightCommand := by
  intro calls hcalls n c hc
  simp only [restorationSteps, List.mem_cons, List.not_mem_nil, or_false] at hcalls
  rcases hcalls with rfl | rfl | rfl
  · rw [List.mem_singleton.1 hc]
    exact n.start_apart _
  · rw [List.mem_singleton.1 hc]
    exact n.start_apart _
  · simp only [cycleConsensus, List.mem_cons, List.not_mem_nil, or_false] at hc
    rcases hc with rfl | rfl
    · exact n.stop_apart _ false
    · exact n.start_apart _

section Series

variable {fleet : List Node} {φ : Phase} {es : List Event} {r : Except Stop Unit}
  {Ps : List (Phase → List Event → Except Stop Unit → Prop)} {steps : List (Node → List String)}

def Tells (fleet : List Node) (φ : Phase) (P : Phase → List Event → Except Stop Unit → Prop)
    (calls : Node → List String) : Prop :=
  ∀ es r, P φ es r → (∀ e ∈ es, ∃ node text reply, e = .command node φ text reply) ∧
    (spoken es).Sublist (callsOf fleet calls)

theorem step_tells (calls : Node → List String) : Tells fleet φ (Step calls fleet) calls := by
  intro es r h
  refine ⟨fun e he => ?_, h.spoken⟩
  obtain ⟨n, -, c, -, reply, rfl⟩ := h.event he
  exact ⟨n.index, c, reply, rfl⟩

theorem recheck_tells : Tells fleet φ (Recheck fleet) askHeight := by
  intro es r h
  refine ⟨fun e he => ?_, h.spoken⟩
  obtain ⟨n, -, reply, rfl⟩ := h.event he
  exact ⟨n.index, n.heightCommand, reply, rfl⟩

theorem Series.commands (h : Series φ Ps es r) (ht : List.Forall₂ (Tells fleet φ) Ps steps) :
    (∀ e ∈ es, ∃ node text reply, e = .command node φ text reply) ∧
      (spoken es).Sublist (steps.flatMap (callsOf fleet)) := by
  induction h generalizing steps with
  | nil => exact ⟨nofun, List.nil_sublist _⟩
  | stops h =>
    cases ht with
    | cons hP _ =>
      obtain ⟨hcommands, horder⟩ := hP _ _ h
      rw [List.flatMap_cons]
      exact ⟨hcommands, horder.trans (List.sublist_append_left _ _)⟩
  | goes h _ ih =>
    cases ht with
    | cons hP hPs =>
      obtain ⟨hcommands, horder⟩ := hP _ _ h
      obtain ⟨hcommands', horder'⟩ := ih hPs
      rw [List.flatMap_cons, spoken_append]
      refine ⟨fun e he => ?_, horder.append horder'⟩
      rcases List.mem_append.1 he with he | he
      · exact hcommands e he
      · exact hcommands' e he

theorem preparation_tells : List.Forall₂ (Tells fleet φ) (preparation fleet) preparationSteps :=
  .cons (step_tells _) (.cons recheck_tells (.cons (step_tells _) (.cons (step_tells _) .nil)))

theorem restoration_tells : List.Forall₂ (Tells fleet φ) (restoration fleet) restorationSteps :=
  .cons (step_tells _) (.cons (step_tells _) (.cons (step_tells _) .nil))

/-- The preparations are over by the re-check, or they have got past it and the heights are the
same. -/
theorem Series.recheck (h : Series φ (preparation fleet) es r)
    (hseats : (fleet.map (·.index)).Nodup) :
    ((∃ s, r = .error s) ∧
        (spoken es).Sublist (callsOf fleet stopSidecar ++ callsOf fleet askHeight) ∧
        (Shows fleet es r ∨
          Shows fleet es (.ok ()) ∧ r = agreed (heightsTold fleet es) ∧ Heard fleet es)) ∨
      Shows fleet es r ∧ agreed (heightsTold fleet es) = .ok () ∧ Heard fleet es := by
  cases h with
  | stops hstops =>
    refine Or.inl ⟨⟨_, rfl⟩, hstops.spoken.trans (List.sublist_append_left _ _), Or.inl ?_⟩
    exact hstops.shows hseats stopSidecar_apart
  | @goes _ _ es₁ _ _ hstops hrest =>
    have hshows₁ := hstops.shows hseats stopSidecar_apart
    have hnone₁ := hstops.no_height hseats stopSidecar_apart
    cases hrest with
    | stops hrecheck =>
      refine Or.inl ⟨⟨_, rfl⟩, ?_, ?_⟩
      · rw [spoken_append]
        exact hstops.spoken.append hrecheck.spoken
      · rw [Heard, heightsTold_append, hnone₁, List.nil_append]
        rcases hrecheck.shows hseats with ⟨s, -, hshows⟩ | ⟨hshows, hr, hheard⟩
        · exact Or.inl (hshows₁.append hshows)
        · exact Or.inr ⟨hshows₁.append hshows, hr, hheard⟩
    | @goes _ _ es₂ es₃ _ hrecheck hlater =>
      refine Or.inr ?_
      have hsteps : ∀ P ∈ [Step dumpCalls fleet, Step stopExecution fleet], ∀ es r, P φ es r →
          Shows fleet es r ∧ heightsTold fleet es = [] := by
        intro P hP es r h
        simp only [List.mem_cons, List.not_mem_nil, or_false] at hP
        rcases hP with rfl | rfl
        · exact ⟨h.shows hseats dumpCalls_apart, h.no_height hseats dumpCalls_apart⟩
        · exact ⟨h.shows hseats stopExecution_apart, h.no_height hseats stopExecution_apart⟩
      have hshows₃ := hlater.shows fun P hP es r h => (hsteps P hP es r h).1
      have hnone₃ : heightsTold fleet es₃ = [] := by
        refine List.filterMap_eq_nil_iff.2 (hlater.event fun P hP es r h => ?_)
        exact List.filterMap_eq_nil_iff.1 (hsteps P hP es r h).2
      rw [Heard, heightsTold_append, heightsTold_append, hnone₁, hnone₃, List.nil_append,
        List.append_nil]
      rcases hrecheck.shows hseats with ⟨s, hs, -⟩ | ⟨hshows₂, hr, hheard⟩
      · cases hs
      · exact ⟨hshows₁.append (hshows₂.append hshows₃), hr.symm, hheard⟩

theorem Series.parts (h : Series φ Ps es (.ok ())) : ∀ P ∈ Ps, ∃ es', es' ⊆ es ∧ P φ es' (.ok ()) := by
  generalize hr : (Except.ok () : Except Stop Unit) = r at h
  induction h with
  | nil => exact nofun
  | stops => cases hr
  | @goes P Ps es es' r h _ ih =>
    intro Q hQ
    rcases List.mem_cons.1 hQ with rfl | hQ
    · exact ⟨es, List.subset_append_left _ _, hr ▸ h⟩
    · obtain ⟨es'', hsub, hQ⟩ := ih hr Q hQ
      exact ⟨es'', List.subset_append_of_subset_right _ hsub, hQ⟩

theorem agreed_ok {heights : List (String × UInt64)} (h : agreed heights = .ok ()) :
    ∃ height, Agreement.unanimous (heights.map (·.2)) = some height := by
  unfold agreed at h
  cases hu : Agreement.unanimous (heights.map (·.2)) with
  | some height => exact ⟨height, rfl⟩
  | none =>
    rw [hu] at h
    cases h

theorem agreed_error {heights : List (String × UInt64)} {s : Stop} (h : agreed heights = .error s) :
    Agreement.unanimous (heights.map (·.2)) = none ∧
      s = .failed (Agreement.disagreement heights) := by
  unfold agreed at h
  cases hu : Agreement.unanimous (heights.map (·.2)) with
  | some height =>
    rw [hu] at h
    cases h
  | none =>
    rw [hu] at h
    exact ⟨rfl, (Except.error.inj h).symm⟩

/-- What the preparations come to can be told from their events. -/
theorem Series.unprepared (h : Series φ (preparation fleet) es r)
    (hseats : (fleet.map (·.index)).Nodup) : match r with
      | .ok () => unprepared? fleet es = none
      | .error (.failed e) => unprepared? fleet es = some e
      | .error .hung => ∃ e ∈ es, e.hangs = true := by
  have failing : ∀ e, Shows (α := Unit) fleet es (.error (.failed e)) →
      unprepared? fleet es = some e := by
    intro e hshows
    rw [unprepared?, hshows.failed, Option.some_or]
  rcases h.recheck hseats with ⟨⟨s, rfl⟩, -, hshows | ⟨hshows, hr, -⟩⟩ | ⟨hshows, hagreed, -⟩
  · cases s with
    | failed e => exact failing e hshows
    | hung => exact hshows.2
  · obtain ⟨hnone, rfl⟩ := agreed_error hr.symm
    simp only [unprepared?, hshows.1, hnone, Option.none_or]
  · rcases r with (e | _) | ⟨⟩
    · exact failing e hshows
    · exact hshows.2
    · obtain ⟨height, hu⟩ := agreed_ok hagreed
      simp only [unprepared?, hshows.1, hu, Option.none_or]

/-- In a step that succeeds every node has done as it was told. -/
theorem Series.complete (h : Series φ Ps es (.ok ())) {calls : Node → List String}
    (hcalls : Step calls fleet ∈ Ps) :
    ∀ n ∈ fleet, ∀ c ∈ calls n, ∃ out, .command n.index φ c (.output out) ∈ es := by
  intro n hn c hc
  obtain ⟨es', hsub, hdone⟩ := h.parts _ hcalls
  obtain ⟨out, hout⟩ := hdone.complete n hn c hc
  exact ⟨out, hsub hout⟩

theorem Series.quiesced (h : Series .preparing (preparation fleet) es (.ok ()))
    (hseats : (fleet.map (·.index)).Nodup) : Quiesced fleet es := by
  have hshows : Shows fleet es (.ok ()) := by
    rcases h.recheck hseats with ⟨⟨s, hs⟩, -⟩ | ⟨hshows, -⟩
    · cases hs
    · exact hshows
  obtain ⟨es', hsub, hrecheck⟩ := h.parts (Recheck fleet) (by simp [preparation])
  obtain ⟨height, hlevel⟩ := hrecheck.passed hseats
  refine ⟨hshows.2, fun calls hcalls n hn c hc => ?_, height, fun n hn => ?_⟩
  · simp only [preparationSteps, List.mem_cons, List.not_mem_nil, or_false] at hcalls
    rcases hcalls with rfl | rfl | rfl | rfl
    · exact h.complete (by simp [preparation]) n hn c hc
    · obtain ⟨out, hout, -⟩ := hlevel n hn
      rw [List.mem_singleton.1 hc]
      exact ⟨out, hsub hout⟩
    · exact h.complete (by simp [preparation]) n hn c hc
    · exact h.complete (by simp [preparation]) n hn c hc
  · obtain ⟨out, hout, hread⟩ := hlevel n hn
    exact ⟨out, hsub hout, hread⟩

theorem Series.questioned (h : Series φ (preparation fleet) es r)
    (hseats : (fleet.map (·.index)).Nodup) : Questioned fleet es := by
  intro hfault hover
  rcases h.recheck hseats with ⟨⟨s, rfl⟩, -, hshows | ⟨-, -, hheard⟩⟩ | ⟨-, -, hheard⟩
  · cases s with
    | failed e =>
      rw [hshows.failed] at hfault
      cases hfault
    | hung =>
      obtain ⟨-, e, he, hhangs⟩ := hshows
      rw [hover e he] at hhangs
      cases hhangs
  · exact hheard
  · exact hheard

theorem Series.preparing (h : Series .preparing (preparation fleet) es r)
    (hseats : (fleet.map (·.index)).Nodup) :
    Drilled fleet .preparing preparationSteps es ∧
      (Agreement.unanimous ((heightsTold fleet es).map (·.2)) = none →
        (spoken es).Sublist (callsOf fleet stopSidecar ++ callsOf fleet askHeight)) := by
  obtain ⟨hcommands, horder⟩ := h.commands preparation_tells
  rcases h.recheck hseats with ⟨-, hearly, hshows | ⟨hshows, -⟩⟩ | ⟨hshows, hagreed, -⟩
  · exact ⟨⟨hcommands, horder, hshows.failFast⟩, fun _ => hearly⟩
  · exact ⟨⟨hcommands, horder, hshows.failFast⟩, fun _ => hearly⟩
  · obtain ⟨height, hu⟩ := agreed_ok hagreed
    refine ⟨⟨hcommands, horder, hshows.failFast⟩, fun hnone => ?_⟩
    rw [hnone] at hu
    cases hu

theorem Series.restoring (h : Series .restoring (restoration fleet) es r)
    (hseats : (fleet.map (·.index)).Nodup) :
    Shows fleet es r ∧ Drilled fleet .restoring restorationSteps es := by
  obtain ⟨hcommands, horder⟩ := h.commands restoration_tells
  have hshows : Shows fleet es r := by
    refine h.shows fun P hP es r hP' => ?_
    simp only [restoration, List.mem_cons, List.not_mem_nil, or_false] at hP
    rcases hP with rfl | rfl | rfl
    · exact hP'.shows hseats (restorationSteps_apart _ (by simp [restorationSteps]))
    · exact hP'.shows hseats (restorationSteps_apart _ (by simp [restorationSteps]))
    · exact hP'.shows hseats (restorationSteps_apart _ (by simp [restorationSteps]))
  exact ⟨hshows, hcommands, horder, hshows.failFast⟩

end Series

section Uploads

variable {fleet : List Node} {attemptId : Int} {height : UInt64} {c c' : Scene}
  {es : List Event}

theorem Uploads.part {n : Node} {r : Except Stop (Option String)}
    (h : Uploads attemptId height n c es c' r) (hphase : c.gate.phase = .uploading) :
    (es = [] ∨ ∃ r', n.Sends height .uploading es r') ∧
      ((∃ failed, r = .ok failed) ∧ (∀ e ∈ es, e.hangs = false) ∨
        r = .error .hung ∧ ∃ e ∈ es, e.hangs = true) := by
  cases h with
  | unrecorded => exact ⟨Or.inl rfl, Or.inl ⟨⟨_, rfl⟩, nofun⟩⟩
  | recorded _ hcloses =>
    cases hcloses with
    | ended outcome hsends =>
      simp only [hphase] at hsends
      refine ⟨Or.inr ⟨_, hsends⟩, Or.inl ⟨⟨_, rfl⟩, fun e he => ?_⟩⟩
      cases hh : e.hangs with
      | false => rfl
      | true =>
        have hung := hsends.waits_iff.2 ⟨e, he, hh⟩
        cases outcome <;> cases hung
    | waits hsends =>
      simp only [hphase] at hsends
      exact ⟨Or.inr ⟨_, hsends⟩, Or.inr ⟨rfl, hsends.waits_iff.1 rfl⟩⟩

/-- The uploads come in the order of the fleet, and they are over unless a node is waited for. -/
theorem uploads_parts {r : Except Stop (List (Option String))}
    (h : Each (Uploads attemptId height) fleet c es c' r) (hphase : c.gate.phase = .uploading) :
    Uploaded fleet height es ∧ ((∃ failed, r = .ok failed) ∧ (∀ e ∈ es, e.hangs = false) ∨
      r = .error .hung ∧ ∃ e ∈ es, e.hangs = true) := by
  induction h with
  | nil => exact ⟨⟨[], rfl, .nil⟩, Or.inl ⟨⟨[], rfl⟩, nofun⟩⟩
  | @cons n ns c es c₁ r es' c' rs h _ ih =>
    have hphase' : c₁.gate.phase = .uploading := by rw [h.gate, hphase]
    obtain ⟨hpart, hover⟩ := h.part hphase
    obtain ⟨⟨parts, rfl, hparts⟩, hovers⟩ := ih hphase'
    refine ⟨⟨es :: parts, rfl, .cons hpart hparts⟩, ?_⟩
    rcases hover with ⟨⟨failed, rfl⟩, hno⟩ | ⟨rfl, e, he, hhangs⟩
    · rcases hovers with ⟨⟨faileds, rfl⟩, hnone⟩ | ⟨rfl, e, he, hhangs⟩
      · refine Or.inl ⟨⟨_, rfl⟩, fun e he => ?_⟩
        rcases List.mem_append.1 he with he | he
        · exact hno e he
        · exact hnone e he
      · exact Or.inr ⟨rfl, e, List.mem_append_right _ he, hhangs⟩
    · exact Or.inr ⟨rfl, e, List.mem_append_left _ he, hhangs⟩

theorem Uploaded.idle (h : Uploaded fleet height es) : ∀ c ∈ spoken es, Idle c.2 := by
  obtain ⟨parts, rfl, hparts⟩ := h
  intro call hcall
  obtain ⟨e, he, hsaid⟩ := List.mem_filterMap.1 hcall
  obtain ⟨part, hpart, he⟩ := List.mem_flatten.1 he
  obtain ⟨n, -, rfl | ⟨r, hsends⟩⟩ := Audit.source_of_mem hparts hpart
  · cases he
  · exact (hsends.text call (List.mem_filterMap.2 ⟨e, he, hsaid⟩)).2

end Uploads

section Words

variable {fleet : List Node} {es : List Event}

theorem Drilled.mem {φ : Phase} {steps : List (Node → List String)} (h : Drilled fleet φ steps es)
    {node : Nat} {text : String} (hc : (node, text) ∈ spoken es) :
    ∃ calls ∈ steps, ∃ n ∈ fleet, text ∈ calls n ∧ n.index = node := by
  obtain ⟨calls, hcalls, hmem⟩ := List.mem_flatMap.1 (h.order.subset hc)
  obtain ⟨n, hn, hmem⟩ := List.mem_flatMap.1 hmem
  obtain ⟨text', htext, heq⟩ := List.mem_map.1 hmem
  cases heq
  exact ⟨calls, hcalls, n, hn, htext, rfl⟩

/-- What is said in the preparations is either no start and no stop, or it stops the sidecar or the
execution client. -/
theorem preparing_text {calls : Node → List String} (hcalls : calls ∈ preparationSteps) {n : Node}
    {text : String} (ht : text ∈ calls n) : Idle text ∨
      text = stopCommand n.target.containers.sidecar true ∨
        text = stopCommand n.target.containers.execution false := by
  simp only [preparationSteps, List.mem_cons, List.not_mem_nil, or_false] at hcalls
  rcases hcalls with rfl | rfl | rfl | rfl
  · exact Or.inr (Or.inl (List.mem_singleton.1 ht))
  · rw [List.mem_singleton.1 ht]
    exact Or.inl (foreign_rpcCommand n _).idle
  · simp only [dumpCalls, List.mem_cons, List.not_mem_nil, or_false] at ht
    rcases ht with rfl | rfl <;> exact Or.inl (foreign_dumpCommand n _ _).idle
  · exact Or.inr (Or.inr (List.mem_singleton.1 ht))

theorem forced_ne_plain (container container' : String) :
    stopCommand container true ≠ stopCommand container' false := by
  intro h
  have hl := congrArg String.toList h
  simp [stopCommand, String.toList_append] at hl

theorem Drilled.unstarted (h : Drilled fleet .preparing preparationSteps es) (node : Nat)
    (container : String) : (node, startCommand container) ∉ spoken es := by
  intro hmem
  obtain ⟨calls, hcalls, n, -, htext, -⟩ := h.mem hmem
  rcases preparing_text hcalls htext with hidle | heq | heq
  · exact (hidle container).1 rfl
  · exact start_ne_stop _ _ _ heq
  · exact start_ne_stop _ _ _ heq

theorem Drilled.unstopped (h : Drilled fleet .preparing preparationSteps es)
    (hseats : (fleet.map (·.index)).Nodup) {n : Node} (hn : n ∈ fleet)
    (hapart : n.target.containers.consensus ≠ n.target.containers.execution) :
    (n.index, stopCommand n.target.containers.consensus false) ∉ spoken es := by
  intro hmem
  obtain ⟨calls, hcalls, m, hm, htext, hseat⟩ := h.mem hmem
  obtain rfl := List.inj_on_of_nodup_map hseats hm hn hseat
  rcases preparing_text hcalls htext with hidle | heq | heq
  · exact (hidle _).2 false rfl
  · exact forced_ne_plain _ _ heq.symm
  · exact hapart (stopCommand_inj heq)

end Words

section Barrier

variable {p : Plant} {attemptId : Int} {height : UInt64} {c c' : Scene} {es : List Event}

theorem drilled_nil (fleet : List Node) (φ : Phase) (steps : List (Node → List String)) :
    Drilled fleet φ steps [] :=
  ⟨nofun, List.nil_sublist _, nofun⟩

theorem uploaded_nil (fleet : List Node) (height : UInt64) : Uploaded fleet height [] := by
  refine ⟨fleet.map fun _ => [], by simp, ?_⟩
  rw [List.forall₂_map_right_iff]
  exact List.forall₂_same.2 fun _ _ => Or.inl rfl

theorem unprepared_nil (fleet : List Node) : unprepared? fleet [] ≠ none := nofun

/-- An attempt that gets no further than its preparations. -/
theorem barrier_of_preparing {prep : List Event} (hseats : (p.fleet.map (·.index)).Nodup)
    (hprep : Drilled p.fleet .preparing preparationSteps prep)
    (hodds : Agreement.unanimous ((heightsTold p.fleet prep).map (·.2)) = none →
      (spoken prep).Sublist (callsOf p.fleet stopSidecar ++ callsOf p.fleet askHeight))
    (hno : unprepared? p.fleet prep = none → ∃ e ∈ prep, e.hangs = true) :
    Barrier p height prep [] [] [] where
  preparing := hprep
  uploading := uploaded_nil _ _
  marking := Or.inl rfl
  restoring := drilled_nil _ _ _
  unstarted node container := by simpa using hprep.unstarted node container
  unstopped n hn hapart := by simpa using hprep.unstopped hseats hn hapart
  quiesced h := absurd rfl h
  finished h := absurd rfl h
  atOdds := hodds
  aborted _ := ⟨rfl, rfl, rfl⟩
  returned hnone hover := by
    obtain ⟨e, he, hhangs⟩ := hno hnone
    rw [hover e (List.mem_append_left _ he)] at hhangs
    cases hhangs

theorem barrier_nil (hseats : (p.fleet.map (·.index)).Nodup) : Barrier p height [] [] [] [] :=
  barrier_of_preparing hseats (drilled_nil _ _ _) (fun _ => List.nil_sublist _) fun h =>
    absurd h (unprepared_nil _)

/-- An attempt whose preparations have succeeded. -/
theorem barrier_of_quiesced {prep up mark rest : List Event} (hseats : (p.fleet.map (·.index)).Nodup)
    (hprep : Series .preparing (preparation p.fleet) prep (.ok ()))
    (hup : Uploaded p.fleet height up)
    (hmark : mark = [] ∨ ∃ accepted,
      mark = [.put .uploading (markerKey p) (toString height.toNat) accepted])
    (hrest : Drilled p.fleet .restoring restorationSteps rest)
    (hover : (∃ e ∈ up, e.hangs = true) ∧ mark = [] ∧ rest = [] ∨
      (∀ e ∈ up, e.hangs = false) ∧ ∃ n ∈ p.fleet.head?, ∃ reply, rest.head? =
        some (.command n.index .restoring (startCommand n.target.containers.sidecar) reply)) :
    Barrier p height prep up mark rest := by
  obtain ⟨hdrilled, hodds⟩ := hprep.preparing hseats
  have hnone : unprepared? p.fleet prep = none := hprep.unprepared hseats
  have hspoken : spoken (prep ++ up ++ mark) = spoken prep ++ spoken up := by
    have hmarked : spoken mark = [] := by rcases hmark with rfl | ⟨accepted, rfl⟩ <;> rfl
    rw [spoken_append, spoken_append, hmarked, List.append_nil]
  constructor
  case preparing => exact hdrilled
  case uploading => exact hup
  case marking => exact hmark
  case restoring => exact hrest
  case unstarted =>
    intro node container hmem
    rw [hspoken] at hmem
    rcases List.mem_append.1 hmem with hmem | hmem
    · exact hdrilled.unstarted node container hmem
    · exact (hup.idle _ hmem container).1 rfl
  case unstopped =>
    intro n hn hapart hmem
    rw [hspoken] at hmem
    rcases List.mem_append.1 hmem with hmem | hmem
    · exact hdrilled.unstopped hseats hn hapart hmem
    · exact (hup.idle _ hmem _).2 false rfl
  case quiesced => exact fun _ => hprep.quiesced hseats
  case finished =>
    intro hlater
    rcases hover with ⟨-, rfl, rfl⟩ | ⟨hover, -⟩
    · exact absurd rfl hlater
    · exact hover
  case atOdds => exact hodds
  case aborted => exact fun h => absurd hnone h
  case returned =>
    intro _ hreplied
    rcases hover with ⟨⟨e, he, hhangs⟩, -⟩ | ⟨-, hbegins⟩
    · rw [hreplied e (List.mem_append_right _ he)] at hhangs
      cases hhangs
    · exact hbegins

/-- The first command of a step is sent, whatever comes of it. -/
theorem Series.begins {fleet : List Node} {φ : Phase} (calls : Node → List String)
    {Ps : List (Phase → List Event → Except Stop Unit → Prop)} {r : Except Stop Unit} {n : Node}
    (h : Series φ (Step calls fleet :: Ps) es r) (hn : n ∈ fleet.head?) {text : String}
    {texts : List String} (htext : calls n = text :: texts) :
    ∃ reply, es.head? = some (.command n.index φ text reply) := by
  have hobeys : ∀ es r, n.Obeys φ (calls n) es r →
      ∃ reply rest, es = .command n.index φ text reply :: rest := by
    intro es r hobeys
    rw [htext] at hobeys
    cases hobeys <;> exact ⟨_, _, rfl⟩
  have hstep : ∀ es r, Step calls fleet φ es r →
      ∃ reply rest, es = .command n.index φ text reply :: rest := by
    rintro es r ⟨rs, hrs, -⟩
    cases hrs with
    | nil => cases hn
    | failed hfirst =>
      cases hn
      exact hobeys _ _ hfirst
    | hung hfirst _ =>
      cases hn
      obtain ⟨reply, rest, rfl⟩ := hobeys _ _ hfirst
      exact ⟨reply, _, rfl⟩
    | ok hfirst _ =>
      cases hn
      obtain ⟨reply, rest, rfl⟩ := hobeys _ _ hfirst
      exact ⟨reply, _, rfl⟩
  cases h with
  | stops hfirst =>
    obtain ⟨reply, rest, rfl⟩ := hstep _ _ hfirst
    exact ⟨reply, rfl⟩
  | goes hfirst _ =>
    obtain ⟨reply, rest, rfl⟩ := hstep _ _ hfirst
    exact ⟨reply, rfl⟩

/-- A fleet without nodes is never prepared. -/
theorem manned {fleet : List Node} {prep : List Event} (h : unprepared? fleet prep = none) :
    ∃ n, n ∈ fleet.head? := by
  cases fleet with
  | cons n ns => exact ⟨n, rfl⟩
  | nil =>
    have hnone : heightsTold [] prep = [] := by
      refine List.filterMap_eq_nil_iff.2 fun e _ => ?_
      rcases e with ⟨_, _, _, _ | _⟩ | _ <;> rfl
    simp [unprepared?, hnone, Agreement.unanimous] at h

theorem Drives.barrier {r : Except Stop Unit} (h : Drives p attemptId height c es c' r)
    (hseats : (p.fleet.map (·.index)).Nodup) : ∃ prep up mark rest,
      es = prep ++ up ++ mark ++ rest ∧ Barrier p height prep up mark rest ∧
        (unprepared? p.fleet prep ≠ none → c'.store = c.store) ∧ Questioned p.fleet prep := by
  cases h with
  | @unprepared _ s hprep =>
    obtain ⟨hdrilled, hodds⟩ := hprep.preparing hseats
    have hresult := hprep.unprepared hseats
    refine ⟨es, [], [], [], by simp, barrier_of_preparing hseats hdrilled hodds fun hnone => ?_,
      fun _ => rfl, hprep.questioned hseats⟩
    cases s with
    | failed e =>
      rw [hnone] at hresult
      cases hresult
    | hung => exact hresult
  | @waits prep up _ s hprep hup =>
    have hnone : unprepared? p.fleet prep = none := hprep.unprepared hseats
    obtain ⟨huploaded, ⟨⟨failed, hs⟩, -⟩ | ⟨-, hhangs⟩⟩ := uploads_parts hup rfl
    · cases hs
    · exact ⟨prep, up, [], [], by simp, barrier_of_quiesced hseats hprep huploaded (Or.inl rfl)
        (drilled_nil _ _ _) (Or.inl ⟨hhangs, rfl, rfl⟩), fun h => absurd hnone h,
        hprep.questioned hseats⟩
  | @restores prep up _ failed mark marker rest r hprep hup hmark hrest =>
    have hnone : unprepared? p.fleet prep = none := hprep.unprepared hseats
    obtain ⟨n, hn⟩ := manned hnone
    obtain ⟨huploaded, ⟨-, hover⟩ | ⟨hs, -⟩⟩ := uploads_parts hup rfl
    · obtain ⟨reply, hbegins⟩ := hrest.begins startSidecar hn rfl
      refine ⟨prep, up, mark, rest, by simp, barrier_of_quiesced hseats hprep huploaded hmark.events
        (hrest.restoring hseats).2 (Or.inr ⟨hover, n, hn, reply, hbegins⟩),
        fun h => absurd hnone h, hprep.questioned hseats⟩
    · cases hs

end Barrier

/-! ### Waiting -/

section Waiting

variable {p : Plant} {attemptId : Int} {height : UInt64} {c c' : Scene} {es : List Event}

theorem concluded_ends (failed : List String) (marker : Except Error Unit) :
    concluded failed marker ≠ .error .hung := by
  unfold concluded
  split
  · cases marker <;> exact nofun
  · exact nofun

theorem Drives.waits_for {r : Except Stop Unit} (h : Drives p attemptId height c es c' r)
    (hseats : (p.fleet.map (·.index)).Nodup) (hr : r = .error .hung) :
    ∃ e ∈ es, e.hangs = true := by
  cases h with
  | unprepared hprep =>
    cases hr
    exact hprep.unprepared hseats
  | waits _ hup =>
    obtain ⟨-, ⟨⟨failed, hs⟩, -⟩ | ⟨-, e, he, hhangs⟩⟩ := uploads_parts hup rfl
    · cases hs
    · exact ⟨e, List.mem_append_right _ he, hhangs⟩
  | @restores prep up _ _ mark _ rest r' _ _ _ hrest =>
    rcases r' with s | ⟨⟩
    · cases hr
      obtain ⟨-, e, he, hhangs⟩ := (hrest.restoring hseats).1
      refine ⟨e, ?_, hhangs⟩
      simp only [List.mem_append, he, or_true]
    · exact absurd hr (concluded_ends _ _)

/-- What follows the course of an attempt waits for nothing of its own. -/
theorem Settles.waits_iff {r : Except Stop Unit} {r' : Except Stop Audit.Attempt}
    (h : Settles attemptId c r c' r') : r' = .error .hung ↔ r = .error .hung := by
  cases h with
  | waits => exact ⟨fun _ => rfl, fun _ => rfl⟩
  | fails => exact ⟨nofun, nofun⟩
  | unwritten _ hfails =>
    cases hfails
    exact ⟨nofun, nofun⟩
  | succeeds =>
    refine ⟨?_, nofun⟩
    split <;> exact nofun

theorem Runs.waits_for {r : Except Stop Audit.Attempt} (h : Runs p height c es c' r)
    (hseats : (p.fleet.map (·.index)).Nodup) (hr : r = .error .hung) :
    ∃ e ∈ es, e.hangs = true := by
  cases h with
  | busy => cases hr
  | admitted _ hattempts =>
    cases hattempts with
    | unrecorded => cases hr
    | recorded _ hdrives hsettles => exact hdrives.waits_for hseats (hsettles.waits_iff.1 hr)

/-- A real attempt goes on for ever only if a command does. -/
theorem run_waits_for (p : Plant) (height : UInt64) (d : Deployment) (hreal : p.dryRun = false)
    (hseats : (p.fleet.map (·.index)).Nodup) (hhosts : ∀ n ∈ p.fleet, n.index < d.hosts.length)
    (h : (run p height).result d = .error .hung) :
    ∃ e ∈ (run p height).events d, e.hangs = true :=
  (run_does height hreal hhosts).course.waits_for hseats h

end Waiting

section Untouched

open Audit Query

/-- An operation on attempts leaves the rows of the uploads as they are. -/
def Apart {α : Type} (q : Query α) : Prop := Leads (fun s s' => s'.uploads = s.uploads) q

theorem apart_bind {α β : Type} {q : Query α} {f : α → Query β} (hq : Apart q)
    (hf : ∀ a, Apart (f a)) : Apart (q >>= f) :=
  leads_bind (fun _ _ _ h h' => h'.trans h) hq hf

theorem apart_of_alike {α : Type} {q : Query α} (h : Leads Alike q) : Apart q :=
  fun s => (h s).uploads

theorem insertAttempt_apart (row : AttemptRow) : Apart (insertAttempt row) := by
  intro s
  rw [insertAttempt, statement_apply]
  cases s.refusal? with
  | some f => rfl
  | none =>
    simp only [bind_apply, attemptRows_apply, get_apply]
    cases s.begun.tables.attempts with
    | none => rfl
    | some rows =>
      dsimp only
      cases judge s.begun.triggers .attempts .insertion { row with id := -1 }.shows <;> rfl

theorem createAttempt_apart (height : UInt64) (dryRun : Bool) :
    Apart (createAttempt height dryRun) :=
  apart_bind (apart_of_alike now_alike) fun _ =>
    apart_bind (insertAttempt_apart _) fun _ => fun _ => rfl

theorem finishAttempt_apart (id : Int) (status : Progress) (message : Option String) :
    Apart (finishAttempt id status message) :=
  apart_bind (apart_of_alike now_alike) fun _ =>
    apart_bind (updateAttempts_uploads _ _ _) fun _ => fun _ => rfl

theorem Settles.uploads {attemptId : Int} {c c' : Scene} {r : Except Stop Unit}
    {r' : Except Stop Attempt} (h : Settles attemptId c r c' r') :
    c'.store.uploads = c.store.uploads := by
  have hfinish : ∀ status message (s : Store),
      ((Op.finishAttempt attemptId status message).run s).2.uploads = s.uploads :=
    fun status message => finishAttempt_apart attemptId status message
  induction h with
  | waits => rfl
  | fails c e => exact hfinish _ _ _
  | @unwritten c _ _ _ _ h _ ih =>
    have hs := hfinish .success none c.store
    rw [h] at hs
    exact ih.trans hs
  | @succeeds c s h =>
    have hs := hfinish .success none c.store
    rw [h] at hs
    exact (getAttempt_alike attemptId s).uploads.trans hs

end Untouched

theorem Attempts.barrier {p : Plant} {height : UInt64} {c c' : Scene} {es : List Event}
    {r : Except Stop Audit.Attempt} (h : Attempts p height c es c' r)
    (hseats : (p.fleet.map (·.index)).Nodup) : ∃ prep up mark rest,
      es = prep ++ up ++ mark ++ rest ∧ Barrier p height prep up mark rest ∧
        (unprepared? p.fleet prep ≠ none → c'.store.uploads = c.store.uploads) ∧
        ((Audit.createAttempt height false c.store).1.isOk = true → Questioned p.fleet prep) := by
  have hcreate := createAttempt_apart height false c.store
  cases h with
  | unrecorded hop =>
    rw [show Audit.createAttempt height false c.store = _ from hop] at hcreate ⊢
    exact ⟨[], [], [], [], rfl, barrier_nil hseats, fun _ => hcreate, nofun⟩
  | recorded hop hdrives hsettles =>
    rw [show Audit.createAttempt height false c.store = _ from hop] at hcreate
    obtain ⟨prep, up, mark, rest, hes, hbarrier, hstore, hquestioned⟩ := hdrives.barrier hseats
    refine ⟨prep, up, mark, rest, hes, hbarrier, fun hno => ?_, fun _ => hquestioned⟩
    rw [hsettles.uploads, hstore hno]
    exact hcreate

theorem Runs.barrier {p : Plant} {height : UInt64} {c c' : Scene} {es : List Event}
    {r : Except Stop Audit.Attempt} (h : Runs p height c es c' r)
    (hseats : (p.fleet.map (·.index)).Nodup) : ∃ prep up mark rest,
      es = prep ++ up ++ mark ++ rest ∧ Barrier p height prep up mark rest ∧
        (unprepared? p.fleet prep ≠ none → c'.store.uploads = c.store.uploads) ∧
        (c.gate.inProgress = false →
          (Audit.createAttempt height false (Scene.entered c).store).1.isOk = true →
          Questioned p.fleet prep) := by
  cases h with
  | busy hbusy =>
    refine ⟨[], [], [], [], rfl, barrier_nil hseats, fun _ => rfl, fun hfree => ?_⟩
    rw [hbusy] at hfree
    cases hfree
  | admitted _ hattempts =>
    obtain ⟨prep, up, mark, rest, hes, hbarrier, hstore, hquestioned⟩ := hattempts.barrier hseats
    exact ⟨prep, up, mark, rest, hes, hbarrier, hstore, fun _ => hquestioned⟩

/-- In every run of a real attempt the fleet is at rest before anything is uploaded and until all
uploads are over. If a node fails the preparations, or the heights differ, nothing more is done and no
upload is put on record. An attempt that is let in and put on record asks the whole fleet for its
heights, unless a node fails before. -/
theorem quiescence_barrier (p : Plant) (height : UInt64) (d : Deployment) (hreal : p.dryRun = false)
    (hseats : (p.fleet.map (·.index)).Nodup) (hhosts : ∀ n ∈ p.fleet, n.index < d.hosts.length) :
    ∃ prep up mark rest, (run p height).events d = prep ++ up ++ mark ++ rest ∧
      Barrier p height prep up mark rest ∧
      (unprepared? p.fleet prep ≠ none →
        ((run p height).perform d).2.store.uploads = d.store.uploads) ∧
      (d.gate.inProgress = false →
        (Audit.createAttempt height false (Scene.entered d.scene).store).1.isOk = true →
        Questioned p.fleet prep) := by
  have hruns := (run_does height hreal hhosts).course
  have hstore : ((run p height).perform d).2.store = ((run p height).perform d).2.scene.store := rfl
  rw [hstore]
  generalize (run p height).events d = es at hruns ⊢
  generalize ((run p height).perform d).2.scene = c' at hruns ⊢
  generalize (run p height).result d = r at hruns
  exact hruns.barrier hseats

def secondNode : Node :=
  { loneNode with
    index := 1
    target := { loneNode.target with name := "geth-2", uploadPrefix := "q" } }

def pairPlant : Plant := { lonePlant with fleet := [loneNode, secondNode] }

def lameAnswer (_ : List String) (text : String) : Reply :=
  if text = secondNode.inspectCommand then .failed "no such object" else .output "0x3e8"

/-- Two nodes at one height. The upload of the second fails. -/
def lamePair : Deployment where
  hosts := [{ answer := fun _ _ => .output "0x3e8" }, { answer := lameAnswer }]
  store := { clock := fun _ => default }
  gate := { blockInterval := 1000 }

theorem quiescence_barrier_pair :
    .command 1 .uploading secondNode.inspectCommand (.failed "no such object") ∈
        (run pairPlant 1000).events lamePair ∧
      ∃ prep up mark rest, (run pairPlant 1000).events lamePair = prep ++ up ++ mark ++ rest ∧
        Barrier pairPlant 1000 prep up mark rest ∧
        (unprepared? pairPlant.fleet prep ≠ none →
          ((run pairPlant 1000).perform lamePair).2.store.uploads = lamePair.store.uploads) ∧
        (lamePair.gate.inProgress = false →
          (Audit.createAttempt 1000 false (Scene.entered lamePair.scene).store).1.isOk = true →
          Questioned pairPlant.fleet prep) :=
  ⟨by decide +kernel, quiescence_barrier pairPlant 1000 lamePair rfl (by decide) (by decide)⟩

end Capture

end FleetSnapshot
