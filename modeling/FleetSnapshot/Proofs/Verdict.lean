import FleetSnapshot.Proofs.Entries

/-! What comes of a real attempt, told in three places: the answer, the row on record and the phase of
the gate. All three go by the first of the things that may be wrong, in the order of the
preparations, the return to service, the uploads, the marker and the update that records success. -/

namespace FleetSnapshot

open Audit Job

def Event.refused? : Event → Option Error
  | .put _ key _ false => some (.storage s!"failed to put {key}")
  | _ => none

namespace Capture

/-- What is wrong with an attempt, going by its events. -/
def trouble? (fleet : List Node) (es : List Event) : Option Error :=
  (unprepared? fleet (during .preparing es)).or <|
    (firstFault fleet (during .restoring es)).or <|
      if failedAliases fleet es = [] then (es.filter Event.isPut).findSome? Event.refused?
      else some (.uploadsFailed (failedAliases fleet es))

/-- Everything has gone well with the nodes and the bucket. -/
structure Flawless (p : Plant) (height : UInt64) (es : List Event) : Prop where
  quiesced : Quiesced p.fleet (during .preparing es)
  sent : ∀ n ∈ p.fleet, n.Sent height (n.talk .uploading es)
  marked : .put .uploading (markerKey p) (toString height.toNat) true ∈ es
  faultless : ∀ e ∈ during .restoring es, e.fault? p.fleet = none
  restored : ∀ calls ∈ restorationSteps, ∀ n ∈ p.fleet, ∀ c ∈ calls n,
    ∃ out, .command n.index .restoring c (.output out) ∈ es

section Trouble

variable {p : Plant} {height : UInt64} {s₀ s : Store} {a : AttemptRow} {es : List Event}
  {rows : List UploadRow} {r : Except Stop Unit}

/-- What an attempt comes to that has got past its preparations can be told from its events. -/
theorem Driven.trouble (h : Driven p height s₀ a es rows s r)
    (hseats : (p.fleet.map (·.index)).Nodup) (hover : r ≠ .error .hung) :
    r = match trouble? p.fleet es with
      | none => .ok ()
      | some e => .error (.failed e) := by
  obtain ⟨marker, r', hmarks, hrest, rfl⟩ := h.outcome
  have hshows := (hrest.restoring hseats).1
  rw [trouble?, h.prepared, Option.none_or]
  rcases r' with (e | _) | ⟨⟩
  · rw [hshows.failed]
    rfl
  · exact absurd rfl hover
  · rw [hshows.1, Option.none_or]
    change concluded _ _ = _
    unfold concluded Marks at *
    split
    case isTrue hnone =>
      rw [if_pos hnone] at hmarks
      rcases hmarks with ⟨hput, rfl⟩ | ⟨hput, rfl⟩ <;> rw [hput] <;> rfl
    case isFalse => rfl

theorem Driven.sent_iff (h : Driven p height s₀ a es rows s r) :
    failedAliases p.fleet es = [] ↔ ∀ n ∈ p.fleet, n.Sent height (n.talk .uploading es) := by
  have hown : ∀ n ∈ p.fleet, failedAlias n (n.ending ((n.talk .uploading es).map (·.2))) = none ↔
      n.Sent height (n.talk .uploading es) := by
    intro n hn
    obtain ⟨i, hi⟩ := List.mem_iff_getElem?.1 hn
    obtain ⟨u, -, hentry⟩ := entry_at h.entries hi
    exact hentry.success_iff.symm.trans hentry.complete
  rw [failedAliases, List.filterMap_eq_nil_iff]
  exact forall₂_congr hown

theorem Driven.flawless_iff (h : Driven p height s₀ a es rows s r)
    (hseats : (p.fleet.map (·.index)).Nodup) (hover : r ≠ .error .hung) :
    trouble? p.fleet es = none ↔ Flawless p height es := by
  obtain ⟨marker, r', hmarks, hrest, hr⟩ := h.outcome
  have hshows := (hrest.restoring hseats).1
  have hmem : ∀ e : Event, e.isPut = true → (e ∈ es ↔ e ∈ es.filter Event.isPut) := fun e he => by
    rw [List.mem_filter, he, and_iff_left rfl]
  rw [trouble?, h.prepared, Option.none_or]
  constructor
  · intro hnone
    obtain ⟨hrestoring, hlater⟩ := Option.or_eq_none_iff.1 hnone
    have hfailed : failedAliases p.fleet es = [] := by
      by_contra hsome
      rw [if_neg hsome] at hlater
      cases hlater
    have hok : r' = .ok () := by
      rcases r' with (e | _) | ⟨⟩
      · rw [hshows.failed] at hrestoring
        cases hrestoring
      · exact absurd hr hover
      · rfl
    subst hok
    refine ⟨h.quiesced, h.sent_iff.1 hfailed, ?_, List.findSome?_eq_none_iff.1 hrestoring, ?_⟩
    · rw [Marks, if_pos hfailed] at hmarks
      rw [if_pos hfailed] at hlater
      rw [hmem _ rfl]
      rcases hmarks with ⟨hput, -⟩ | ⟨hput, -⟩
      · rw [hput]
        exact List.mem_cons_self
      · rw [hput] at hlater
        cases hlater
    · intro calls hcalls n hn c hc
      have hstep : Step calls p.fleet ∈ restoration p.fleet := by
        simp only [restorationSteps, List.mem_cons, List.not_mem_nil, or_false] at hcalls
        rcases hcalls with rfl | rfl | rfl <;> simp [restoration]
      obtain ⟨out, hout⟩ := hrest.complete hstep n hn c hc
      exact ⟨out, (List.mem_filter.1 hout).1⟩
  · intro hgood
    have hfailed := h.sent_iff.2 hgood.sent
    have hmarked := (hmem _ rfl).1 hgood.marked
    rw [firstFault, List.findSome?_eq_none_iff.2 hgood.faultless, Option.none_or, if_pos hfailed]
    rw [Marks, if_pos hfailed] at hmarks
    rcases hmarks with ⟨hput, -⟩ | ⟨hput, -⟩
    · rw [hput]
      rfl
    · rw [hput] at hmarked
      simp at hmarked

end Trouble

/-- The attempt fails, and its row and the phase say so. -/
structure Fails (s₀ : Store) (a : AttemptRow) (c : Scene) (r : Except Stop Attempt) (e : Error) :
    Prop where
  answer : r = .error (.failed e)
  phase : c.gate.phase = .failed
  row : ∃ t, c.store.attempts = s₀.attempts ++ [a.ended .failed (some e.message) t]

/-- The attempt succeeds, its row and the phase say so, and the row is the answer. -/
structure Succeeds (s₀ : Store) (a : AttemptRow) (c : Scene) (r : Except Stop Attempt) : Prop where
  phase : c.gate.phase = .success
  row : ∃ t x, c.store.attempts = s₀.attempts ++ [a.ended .success none t] ∧
    Records c.store (a.ended .success none t) x ∧ r = .ok x

section Closing

variable {s₀ : Store} {a : AttemptRow} {rows : List UploadRow} {c c' : Scene}
  {r : Except Stop Attempt}

/-- The error of an attempt goes into its row. -/
theorem Settles.of_failed {e : Error} (h : Settles a.id c (.error (.failed e)) c' r)
    (hus : Underway s₀ a rows c.store) (hrunning : a.status = Progress.running.text)
    (hgoes : c.store.refusal? = none) : Fails s₀ a c' r e := by
  cases h with
  | fails =>
    have hended := hus.endAttempt hrunning hgoes .failed (some e.message)
    exact ⟨rfl, rfl, _, hended.attempts⟩

theorem legible_read {t : Instant} (h : (Stamp.ofInstant t).instant?.isSome = true)
    (column : String) : ∃ t', (Stamp.ofInstant t).read column = .ok t' := by
  obtain ⟨t', ht⟩ := Option.isSome_iff_exists.1 h
  exact ⟨t', by rw [Stamp.read, ht]⟩

/-- A row with times that can be read. -/
theorem readable_ended {s : Stamp} {t : Instant} (status : Progress)
    (hs : ∃ t', s.read "start_time" = .ok t') (ht : (Stamp.ofInstant t).instant?.isSome = true) :
    (∃ t', s.read "start_time" = .ok t') ∧ (∃ t', readEnd (some (.ofInstant t)) = .ok t') ∧
      ∃ p, readStatus status.text = .ok p := by
  refine ⟨hs, ?_, status, ?_⟩
  · obtain ⟨t', ht'⟩ := legible_read ht "end_time"
    exact ⟨some t', by simp [readEnd, ht', Except.map]⟩
  · simp [readStatus, Progress.ofText?_text]

/-- If success cannot be recorded, then the failure to do so is. -/
theorem Settles.of_refused {f : StoreFault} (h : Settles a.id c (.ok ()) c' r)
    (hus : Underway s₀ a rows c.store) (hrunning : a.status = Progress.running.text)
    (hrefused : c.store.refusal? = some f) (hgoes : c.store.begun.refusal? = none) :
    Fails s₀ a c' r (.store f) := by
  have hfinish : (Op.finishAttempt a.id .success none).run c.store = _ :=
    finishAttempt_plain hus.filed.plain a.id .success none
  rw [hrefused] at hfinish
  cases h with
  | succeeds hop => exact absurd (congrArg Prod.fst (hfinish.symm.trans hop)) nofun
  | unwritten hop hfails =>
    obtain ⟨he, rfl⟩ := Prod.mk.inj (hfinish.symm.trans hop)
    cases he
    exact hfails.of_failed (hus.alike ⟨rfl, rfl⟩) hrunning hgoes

/-- The record of an attempt can be read back with the uploads under it. -/
theorem read_back {row : AttemptRow} {s : Store} (h : Underway s₀ row rows s)
    (hs₀ : Filed s₀) (hnew : row.id ∉ s₀.attempts.map (·.id)) (hread : ∃ x, row.read = .ok x)
    (hrows : ∀ u ∈ rows, ∃ x, u.read = .ok x) (hgoes : s.refusal? = none)
    (hgoes' : s.begun.refusal? = none) :
    ∃ x, Records s row x ∧ Audit.getAttempt row.id s = (.ok (some x), s.begun.begun) := by
  have hmem : row ∈ s.attempts := by
    rw [h.attempts]
    exact List.mem_append_right _ List.mem_cons_self
  obtain ⟨x, hx⟩ := hread
  obtain ⟨x', hrecords⟩ := exists_records (s := s) hx fun u hu hown => by
    have hmine := Underway.filter_uploads h hs₀ hnew
    exact hrows u (hmine ▸ List.mem_filter.2 ⟨hu, by simpa using hown⟩)
  have hget := getAttempt_plain h.filed.plain h.filed.numbered hgoes hgoes' hmem hrecords
  exact ⟨x', hrecords, hget⟩

/-- Once success is recorded the record is read back and given as the answer. -/
theorem Settles.of_ok (h : Settles a.id c (.ok ()) c' r) (hs₀ : Filed s₀)
    (hnew : a.id ∉ s₀.attempts.map (·.id)) (hus : Underway s₀ a rows c.store)
    (hrunning : a.status = Progress.running.text)
    (hstart : ∃ t, a.startTime.read "start_time" = .ok t)
    (hlegible : ∀ k, (Stamp.ofInstant (c.store.clock k)).instant?.isSome = true)
    (hrows : ∀ u ∈ rows, ∃ x, u.read = .ok x) (hgoes : c.store.refusal? = none)
    (hgoes' : c.store.begun.refusal? = none) (hgoes'' : c.store.begun.begun.refusal? = none) :
    Succeeds s₀ a c' r := by
  have hended := hus.endAttempt hrunning hgoes .success none
  have hfinish : (Op.finishAttempt a.id .success none).run c.store = _ :=
    finishAttempt_plain hus.filed.plain a.id .success none
  rw [hgoes] at hfinish
  cases h with
  | unwritten hop => exact absurd (congrArg Prod.fst (hfinish.symm.trans hop)) nofun
  | @succeeds _ s hop =>
    rw [show (Audit.finishAttempt a.id .success none c.store).2 = s from congrArg Prod.snd hop]
      at hended
    obtain ⟨-, hs⟩ := Prod.mk.inj (hop.symm.trans hfinish)
    have hrefusals : s.refusals = c.store.begun.refusals := by
      rw [hs]
      rfl
    have hread : ∃ x, (a.ended .success none (c.store.clock c.store.ticks)).read = .ok x :=
      (AttemptRow.readable_iff _).2 (readable_ended .success hstart (hlegible _))
    obtain ⟨x, hrecords, hget⟩ := read_back hended hs₀ hnew hread hrows
      (by rwa [Store.refusal?, hrefusals])
      (by rwa [Store.refusal?, show s.begun.refusals = s.refusals.tail from rfl, hrefusals])
    rw [show (Op.getAttempt a.id).run s = _ from hget]
    exact ⟨rfl, _, x, hended.attempts, hrecords.alike ⟨rfl, rfl⟩, rfl⟩

end Closing

/-- A real attempt that finds the gate free. The audit store accepts its statements, but for the one that
would record success: behind the two for each upload. -/
structure Audited (p : Plant) (height : UInt64) (d : Deployment) : Prop
    extends Admitted p height d where
  /-- The times of the clock can be read back. -/
  legible : ∀ k, (Stamp.ofInstant (d.store.clock k)).instant?.isSome = true
  accepts : ∀ k, d.store.balks k = true →
    k = 2 * p.fleet.length + 1 ∧ trouble? p.fleet ((run p height).events d) = none

def verdict? (p : Plant) (height : UInt64) (d : Deployment) : Option Error :=
  (trouble? p.fleet ((run p height).events d)).or
    ((d.store.refusals[2 * p.fleet.length + 1]?).join.map .store)

/-- The answer, the row and the phase agree on what an attempt has come to. -/
def Agree (verdict : Option Error) (r : Except Stop Attempt) (row : AttemptRow) (s : Store)
    (phase : Phase) : Prop :=
  match verdict with
  | none => ∃ a, r = .ok a ∧ Records s row a ∧ row.status = Progress.success.text ∧
      row.errorMessage = none ∧ phase = .success
  | some e => r = .error (.failed e) ∧ row.status = Progress.failed.text ∧
      row.errorMessage = some e.message ∧ phase = .failed

section Audited

variable {p : Plant} {height : UInt64} {d : Deployment}

theorem Audited.opened (h : Audited p height d) {k : Nat} (hk : k ≠ 2 * p.fleet.length + 1) :
    d.store.balks k = false := by
  rw [← Bool.not_eq_true]
  exact fun hb => hk (h.accepts k hb).1

theorem Audited.opened_of_trouble (h : Audited p height d)
    (htrouble : trouble? p.fleet ((run p height).events d) ≠ none) (k : Nat) :
    d.store.balks k = false := by
  rw [← Bool.not_eq_true]
  exact fun hb => htrouble (h.accepts k hb).2

theorem Entry.readable {attemptId : Int} {es : List Event} {place : Node × Nat} {u : UploadRow}
    (h : Entry d.store attemptId height es place u)
    (hlegible : ∀ k, (Stamp.ofInstant (d.store.clock k)).instant?.isSome = true) :
    ∃ x, u.read = .ok x := by
  obtain ⟨k, hk⟩ := h.begun
  obtain ⟨k', hk'⟩ := h.ended
  rw [UploadRow.readable_iff, hk, hk', h.status]
  exact readable_ended _ (legible_read (hlegible k) "start_time") (hlegible k')

/-- What has gone wrong with the nodes or the bucket is what the attempt fails with. -/
theorem Audited.fails_of_trouble (h : Audited p height d) {c c' : Scene} {rows : List UploadRow}
    {e : Error} (htrouble : trouble? p.fleet ((run p height).events d) = some e)
    (hsettles :
      Settles (firstRow height d).id c (.error (.failed e)) c' ((run p height).result d))
    (hus : Underway d.store (firstRow height d) rows c.store) {k : Nat}
    (hrefusals : c.store.refusals = d.store.refusals.drop k) :
    verdict? p height d = some e ∧
      Fails d.store (firstRow height d) c' ((run p height).result d) e := by
  have hgoes := refusal_none hrefusals (h.opened_of_trouble (by simp [htrouble]) k)
  exact ⟨by rw [verdict?, htrouble, Option.some_or], hsettles.of_failed hus rfl hgoes⟩

/-- Where nothing has gone wrong, all depends on the update that records success. -/
theorem Audited.closed_of_flawless (h : Audited p height d) {c c' : Scene} {rows : List UploadRow}
    (htrouble : trouble? p.fleet ((run p height).events d) = none)
    (hsettles : Settles (firstRow height d).id c (.ok ()) c' ((run p height).result d))
    (hdriven : Driven p height d.store (firstRow height d) ((run p height).events d) rows c.store
      (.ok ())) :
    (∃ e, verdict? p height d = some e ∧
        Fails d.store (firstRow height d) c' ((run p height).result d) e ∧
        d.store.balks (2 * p.fleet.length + 1) = true) ∨
      verdict? p height d = none ∧
        Succeeds d.store (firstRow height d) c' ((run p height).result d) ∧
        d.store.balks (2 * p.fleet.length + 1) = false := by
  have hus := hdriven.underway
  have hrefusals := hdriven.since.refusals
  have hgoes' := refusal_none (begun_refusals hrefusals) (h.opened (by omega))
  have hgoes'' := refusal_none (begun_refusals (begun_refusals hrefusals)) (h.opened (by omega))
  have hclosing : c.store.refusal? = (d.store.refusals[2 * p.fleet.length + 1]?).join := by
    rw [Store.refusal?, hrefusals, List.head?_drop]
  rw [verdict?, htrouble, Option.none_or, Store.balks, ← hclosing]
  cases hrefusal : c.store.refusal? with
  | some f => exact Or.inl ⟨_, rfl, hsettles.of_refused hus rfl hrefusal hgoes', rfl⟩
  | none =>
    have hstart : ∃ t, (firstRow height d).startTime.read "start_time" = .ok t :=
      legible_read (h.legible (d.store.ticks + 1)) "start_time"
    have hlegible : ∀ k, (Stamp.ofInstant (c.store.clock k)).instant?.isSome = true := by
      rw [hdriven.since.clock]
      exact h.legible
    have hread : ∀ u ∈ rows, ∃ x, u.read = .ok x := by
      intro u hu
      obtain ⟨place, -, hentry⟩ := source_of_mem hdriven.entries hu
      exact hentry.readable h.legible
    have hnew := firstRow_new h.filed height
    exact Or.inr ⟨rfl, hsettles.of_ok h.filed hnew hus rfl hstart hlegible hread hrefusal hgoes'
      hgoes'', rfl⟩

/-- The two ways in which the record of the attempt may be closed. -/
theorem Audited.closed (h : Audited p height d) :
    ∃ c' : Scene, ((run p height).perform d).2.scene = ⟨c'.gate.leave, c'.store⟩ ∧
      ((∃ e, verdict? p height d = some e ∧
          Fails d.store (firstRow height d) c' ((run p height).result d) e ∧
          ¬ (Flawless p height ((run p height).events d) ∧
            d.store.balks (2 * p.fleet.length + 1) = false)) ∨
        verdict? p height d = none ∧
          Succeeds d.store (firstRow height d) c' ((run p height).result d) ∧
          Flawless p height ((run p height).events d) ∧
          d.store.balks (2 * p.fleet.length + 1) = false) := by
  obtain ⟨c, c₁, r₁, c', hus, hsince, hover, hdrives, hsettles, hscene⟩ :=
    h.toAdmitted.drives (h.opened (by omega))
  refine ⟨c', hscene, ?_⟩
  rcases hdrives.driven hover h.seats hus hsince fun k hk => h.opened (by omega) with
    ⟨e, hcommanded, he, rfl, hsame⟩ | ⟨rows, hdriven⟩
  case inl =>
    have htrouble : trouble? p.fleet ((run p height).events d) = some e := by
      rw [trouble?, he, Option.some_or]
    obtain ⟨hverdict, hfails⟩ :=
      h.fails_of_trouble htrouble hsettles (hsame ▸ hus) (hsame ▸ hsince.refusals)
    refine Or.inl ⟨e, hverdict, hfails, ?_⟩
    rintro ⟨hgood, -⟩
    have hput := List.filter_eq_nil_iff.1 hcommanded.puts _ hgood.marked
    exact hput rfl
  case inr =>
    have hflawless := hdriven.flawless_iff h.seats hover
    have hr₁ := hdriven.trouble h.seats hover
    cases htrouble : trouble? p.fleet ((run p height).events d) with
    | some e =>
      rw [htrouble] at hr₁
      subst hr₁
      obtain ⟨hverdict, hfails⟩ :=
        h.fails_of_trouble htrouble hsettles hdriven.underway hdriven.since.refusals
      refine Or.inl ⟨e, hverdict, hfails, ?_⟩
      rintro ⟨hgood, -⟩
      rw [hflawless.2 hgood] at htrouble
      cases htrouble
    | none =>
      rw [htrouble] at hr₁
      subst hr₁
      rcases h.closed_of_flawless htrouble hsettles hdriven with
        ⟨e, hverdict, hfails, hbalks⟩ | ⟨hverdict, hsucceeds, hbalks⟩
      · refine Or.inl ⟨e, hverdict, hfails, ?_⟩
        rintro ⟨-, hno⟩
        rw [hbalks] at hno
        cases hno
      · exact Or.inr ⟨hverdict, hsucceeds, hflawless.1 htrouble, hbalks⟩

/-- The answer of a real attempt, its row and the phase that is left agree on what has come of it, and
the gate is free. The attempt succeeds just if nothing has gone wrong anywhere. -/
theorem run_verdict (p : Plant) (height : UInt64) (d : Deployment) (h : Audited p height d) :
    ∃ row, ((run p height).perform d).2.store.attempts = d.store.attempts ++ [row] ∧
      row.id = (firstRow height d).id ∧ row.height = height.toInt64 ∧ row.dryRun = false ∧
      row.endTime.isSome = true ∧
      ((run p height).perform d).2.gate.inProgress = false ∧
      ((run p height).perform d).2.gate.startedAt = none ∧
      Agree (verdict? p height d) ((run p height).result d) row ((run p height).perform d).2.store
        ((run p height).perform d).2.gate.phase ∧
      ((∃ a, (run p height).result d = .ok a) ↔ Flawless p height ((run p height).events d) ∧
        d.store.balks (2 * p.fleet.length + 1) = false) := by
  obtain ⟨c', hscene, hclosed⟩ := h.closed
  rw [show ((run p height).perform d).2.store = c'.store from congrArg Scene.store hscene,
    show ((run p height).perform d).2.gate = c'.gate.leave from congrArg Scene.gate hscene]
  rcases hclosed with ⟨e, hverdict, ⟨hr, hphase, t, hrows⟩, hnot⟩ |
    ⟨hverdict, ⟨hphase, t, a, hrows, hrecords, hr⟩, hgood⟩ <;> rw [hverdict, hr]
  · exact ⟨_, hrows, rfl, rfl, rfl, rfl, rfl, rfl,
      ⟨rfl, rfl, rfl, congrArg Phase.settled hphase⟩, iff_of_false nofun hnot⟩
  · exact ⟨_, hrows, rfl, rfl, rfl, rfl, rfl, rfl,
      ⟨a, rfl, hrecords, rfl, rfl, congrArg Phase.settled hphase⟩, iff_of_true ⟨a, rfl⟩ hgood⟩

def mutePair : Deployment :=
  { lamePair with
    hosts := [{ answer := fun _ _ => .output "0x3e8" }, { answer := fun _ _ => .output "0x3e8" }]
    store := {
      clock := fun _ => default
      refusals := [none, none, none, none, none, some (.engine 10 "disk I/O error")] } }

theorem mutePair_balks {k : Nat} (hk : mutePair.store.balks k = true) : k = 5 := by
  have hlt : k < 6 := by
    by_contra hge
    rw [Store.balks, List.getElem?_eq_none (by simpa [mutePair] using hge)] at hk
    cases hk
  have hall : ∀ k < 6, mutePair.store.balks k = true → k = 5 := by decide
  exact hall k hlt hk

theorem mutePair_audited : Audited pairPlant 1000 mutePair where
  real := rfl
  seats := by decide
  hosts := by decide
  free := rfl
  filed := Filed.fresh rfl rfl
  replies := Or.inl (by decide +kernel)
  legible := fun _ => by
    have hread : (Stamp.ofInstant default).instant?.isSome = true := by decide +kernel
    exact hread
  accepts := fun _ hk => ⟨mutePair_balks hk, by decide +kernel⟩

theorem mutePair_verdict :
    verdict? pairPlant 1000 mutePair = some (.store (.engine 10 "disk I/O error")) := by
  decide +kernel

theorem run_verdict_mute :
    Audited pairPlant 1000 mutePair ∧
      (run pairPlant 1000).result mutePair =
        .error (.failed (.store (.engine 10 "disk I/O error"))) ∧
      ∃ row, ((run pairPlant 1000).perform mutePair).2.store.attempts = [row] ∧
        row.status = Progress.failed.text ∧
        row.errorMessage = some (Error.store (.engine 10 "disk I/O error")).message ∧
        ((run pairPlant 1000).perform mutePair).2.gate.phase = .failed ∧
        ((run pairPlant 1000).perform mutePair).2.gate.inProgress = false := by
  have hrun := run_verdict pairPlant 1000 mutePair mutePair_audited
  rw [mutePair_verdict] at hrun
  obtain ⟨row, hrows, -, -, -, -, hfree, -, ⟨hresult, hstatus, hmessage, hphase⟩, -⟩ := hrun
  exact ⟨mutePair_audited, hresult, row, hrows, hstatus, hmessage, hphase, hfree⟩

end Audited

end Capture

end FleetSnapshot
