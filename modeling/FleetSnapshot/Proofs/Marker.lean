import FleetSnapshot.Proofs.Anchored
import FleetSnapshot.Proofs.Collision

/-! The marker never dangles. An attempt puts it once all its uploads are complete, and only then may it
come to be a success: so no complete attempt is higher than the one that the marker names. -/

namespace FleetSnapshot

open Audit Capture

namespace Capture

open Job

/-- The attempt that has been put on record, and whether the marker names its height. -/
structure Writing where
  attempt : Int
  marked : Bool := false

/-- What an attempt at a height may do. It is no success before it has put the marker. -/
def marks (p : Plant) (height : UInt64) : Discipline (Option Writing) where
  allows c act := match act with
    | .command _ _ | .phase _ | .enter | .leave => True
    | .audit (.createAttempt height' _) => c = none ∧ height' = height
    | .audit (.createUpload id _ pre _) =>
      (∃ w, c = some w ∧ w.attempt = id) ∧ ∃ n ∈ p.fleet, pre = uploadPrefix n height
    | .audit (.finishUpload _ _ _) | .audit (.getAttempt _) => True
    | .audit (.finishAttempt id status _) =>
      ∃ w, c = some w ∧ w.attempt = id ∧ (status = .success → w.marked = true)
    | .put key text => c.isSome = true ∧ key = markerKey p ∧ text = toString height.toNat
    | _ => False
  after c act r := match act, r with
    | .audit (.createAttempt _ _), .ok a => some { attempt := a.id }
    | .put _ _, .ok _ => c.map ({ · with marked := true })
    | _, _ => c

section Plans

variable {p : Plant} {height : UInt64}

theorem marks_unmoved : (marks p height).Unmoved := fun _ _ _ => ⟨trivial, fun _ => rfl⟩

theorem marks_unphased : (marks p height).Unphased := fun _ _ => ⟨trivial, fun _ => rfl⟩

theorem marks_overlooks (w : Writing) : Overlooks (marks p height) (some w) p w.attempt height where
  createUpload {n} hn := ⟨⟨⟨w, rfl, rfl⟩, n, hn, rfl⟩, fun _ => rfl⟩
  finishUpload _ _ _ := ⟨trivial, fun _ => rfl⟩

/-- An attempt whose course comes to its end has put the marker. -/
theorem drive_marks (hreal : p.dryRun = false) (id : Int) :
    (drive p id height).Keeps (marks p height) (some { attempt := id })
      (fun c _ => c = some { attempt := id, marked := true })
      fun c _ => ∃ marked, c = some { attempt := id, marked } := by
  have hover : Overlooks (marks p height) (some { attempt := id }) p id height :=
    marks_overlooks { attempt := id }
  refine drive_keeps marks_unmoved marks_unphased ⟨false, rfl⟩ ?_
  refine (uploadAll_stays marks_unmoved hover).keeps (fun failed => ?_) fun _ => ⟨false, rfl⟩
  refine ⟨⟨false, rfl⟩, fun hdry => ?_, fun _ _ => ⟨⟨rfl, rfl, rfl⟩, fun r _ => ?_⟩⟩
  · exact absurd (hreal.symm.trans hdry) Bool.false_ne_true
  · cases r with
    | ok _ => exact ⟨⟨true, rfl⟩, fun _ => rfl⟩
    | error e => exact ⟨⟨false, rfl⟩, fun h => by cases h⟩

theorem record_marks (hreal : p.dryRun = false) (id : Int) :
    (record p id height).Keeps (marks p height) (some { attempt := id }) (fun _ _ => True)
      fun _ _ => True := by
  have hconcludes : Concludes (marks p height) id (· = some { attempt := id, marked := true })
      (fun c => ∃ marked, c = some { attempt := id, marked }) fun _ => True := by
    refine ⟨?_, ?_, fun _ => ⟨trivial, fun _ _ => trivial⟩⟩
    · rintro c rfl
      refine ⟨⟨_, rfl, rfl, fun _ => rfl⟩, fun r _ => ?_⟩
      cases r with
      | ok _ => exact trivial
      | error e => exact ⟨true, rfl⟩
    · rintro c ⟨marked, rfl⟩ message
      exact ⟨⟨_, rfl, rfl, fun h => by cases h⟩, fun _ _ => trivial⟩
  exact (record_keeps marks_unphased hconcludes (drive_marks hreal id)).mono (fun _ _ _ => trivial)
    fun _ _ _ => trivial

theorem run_marks (hreal : p.dryRun = false) :
    (run p height).Keeps (marks p height) none (fun _ _ => True) fun _ _ => True := by
  simp only [run, keeps_bind, keeps_act]
  refine ⟨trivial, fun r _ => ?_⟩
  cases r with
  | error e => trivial
  | ok _ =>
    refine leaving_keeps ?_
    simp only [keeps_bind, keeps_audit]
    refine ⟨⟨rfl, rfl⟩, fun a _ => ?_, fun _ _ => ⟨trivial, trivial⟩⟩
    exact (record_marks hreal a.id).mono (fun _ _ _ => ⟨trivial, trivial⟩)
      fun _ _ _ => ⟨trivial, trivial⟩

end Plans

/-- In the middle of an attempt. No height on record is above its own, and before it is on record itself
they are all below. -/
structure Marking (p : Plant) (height : UInt64) (heights : List UInt64) (before : Option String)
    (c : Option Writing) (d : Deployment) : Prop where
  anchored : Anchored p (heights ++ [height]) before d
  ahead : c = none → ∀ a ∈ d.store.attempts, a.height.toUInt64 < height
  highest : ∀ a ∈ d.store.attempts, a.height.toUInt64 ≤ height
  own : ∀ w, c = some w → ∃ a ∈ d.store.attempts, a.id = w.attempt ∧ a.height.toUInt64 = height
  marked : ∀ w, c = some w → w.marked = true → d.marker p = some (toString height.toNat)

section Acts

variable {p : Plant} {height : UInt64} {heights : List UInt64} {before : Option String}
  {c : Option Writing} {d d' : Deployment}

/-- Nothing is above the height of the attempt. -/
theorem Marking.not_surpassed (h : Marking p height heights before c d) :
    ¬ d.store.Surpasses height := by
  rintro ⟨a, ha, -, hlt⟩
  exact absurd (h.highest a ha) (UInt64.not_le.2 hlt)

theorem Marking.tends (h : Marking p height heights before c d) (ht : Tends p d d')
    (hmarker : d'.marker p = d.marker p) : Marking p height heights before c d' := by
  obtain ⟨g, hg, hattempts, -⟩ := ht.rows.attempts
  have hrow : ∀ a' ∈ d'.store.attempts, ∃ a ∈ d.store.attempts, a'.height = a.height := by
    intro a' ha'
    rw [hattempts] at ha'
    obtain ⟨a, ha, rfl⟩ := List.mem_map.1 ha'
    exact ⟨a, ha, (hg a).2⟩
  refine ⟨h.anchored.tends ht, fun hc a' ha' => ?_, fun a' ha' => ?_, fun w hw => ?_,
    fun w hw hmarked => hmarker.trans (h.marked w hw hmarked)⟩
  · obtain ⟨a, ha, heq⟩ := hrow a' ha'
    exact heq ▸ h.ahead hc a ha
  · obtain ⟨a, ha, heq⟩ := hrow a' ha'
    exact heq ▸ h.highest a ha
  · obtain ⟨a, ha, hid, hheight⟩ := h.own w hw
    refine ⟨g a, hattempts ▸ List.mem_map_of_mem ha, (hg a).1.trans hid, ?_⟩
    rw [(hg a).2, hheight]

theorem Marking.createAttempt (h : Marking p height heights before none d) (dryRun : Bool) :
    Marking p height heights before
      ((marks p height).after none (.audit (.createAttempt height dryRun))
        (d.perform (.audit (.createAttempt height dryRun))).1)
      (d.perform (.audit (.createAttempt height dryRun))).2 := by
  obtain ⟨⟨⟨halone, hready, -⟩, hfiled⟩, hrising, hcalled, hremovals, hunsurpassed, horigin⟩ :=
    h.anchored
  obtain ⟨a, hid, hcreated⟩ := createAttempt_goes hfiled.plain hready.refusal height dryRun
  change Marking p height heights before
    ((marks p height).after none (.audit (.createAttempt height dryRun))
      (Audit.createAttempt height dryRun d.store).1)
    { d with store := (Audit.createAttempt height dryRun d.store).2 }
  rw [hcreated]
  have hnew : (d.store.newAttempt height dryRun).height.toUInt64 = height :=
    UInt64.toUInt64_toInt64 height
  have hfiled' : Filed (d.store.addAttempt (d.store.newAttempt height dryRun)) := hfiled.addAttempt rfl
  have hready' := hfiled'.plain.ready hready (List.tail_suffix _)
  have hlevel : ∀ height', (d.store.addAttempt (d.store.newAttempt height dryRun)).Surpasses height' ↔
      d.store.Surpasses height' := fun _ =>
    Store.surpasses_addAttempt (d.store.newAttempt_unfinished height dryRun)
  have hlast : d.store.newAttempt height dryRun ∈
      (d.store.addAttempt (d.store.newAttempt height dryRun)).attempts :=
    List.mem_append_right _ List.mem_cons_self
  refine ⟨⟨⟨⟨halone, hready', hfiled'.numbered⟩, hfiled'⟩,
    hrising.addAttempt hfiled dryRun (h.ahead rfl), ?_, ?_, ?_, ?_⟩, (fun hc => by cases hc), ?_, ?_, ?_⟩
  · refine List.forall_mem_append.2 ⟨hcalled, List.forall_mem_singleton.2 ?_⟩
    rw [hnew]
    exact List.mem_append_right _ List.mem_cons_self
  · exact fun id pre hopened => (hremovals id pre hopened).mono fun height' => (hlevel height').2
  · exact fun height' hmarker hsurpassed => hunsurpassed height' hmarker ((hlevel height').1 hsurpassed)
  · refine fun text hmarker => (horigin text hmarker).imp_right ?_
    rintro ⟨a', ha', htext⟩
    exact ⟨a', List.mem_append_left _ ha', htext⟩
  · refine List.forall_mem_append.2 ⟨h.highest, List.forall_mem_singleton.2 ?_⟩
    rw [hnew]
    exact UInt64.le_refl _
  · rintro w ⟨⟩
    exact ⟨_, hlast, hid.symm, hnew⟩
  · rintro w ⟨⟩ hmarked
    exact absurd hmarked Bool.false_ne_true

theorem Marking.createUpload {w : Writing} (h : Marking p height heights before (some w) d) {n : Node}
    (hn : n ∈ p.fleet) (target : String) (dryRun : Bool) :
    Marking p height heights before (some w)
      (d.perform (.audit (.createUpload w.attempt target (uploadPrefix n height) dryRun))).2 := by
  obtain ⟨⟨⟨halone, hready, -⟩, hfiled⟩, hrising, hcalled, hremovals, hunsurpassed, horigin⟩ :=
    h.anchored
  obtain ⟨a, ha, hid, hheight⟩ := h.own w rfl
  have howned : ∃ a ∈ d.store.attempts, a.id = w.attempt := ⟨a, ha, hid⟩
  obtain ⟨u, -, hcreated⟩ := createUpload_goes hfiled.plain hready.refusal howned target
    (uploadPrefix n height) dryRun
  change Marking p height heights before (some w) { d with
    store := (Audit.createUpload w.attempt target (uploadPrefix n height) dryRun d.store).2 }
  rw [hcreated]
  have hfiled' : Filed (d.store.addUpload
      (d.store.newUpload w.attempt target (uploadPrefix n height) dryRun)) :=
    hfiled.addUpload rfl howned
  have hready' := hfiled'.plain.ready hready (List.tail_suffix _)
  have hrising' := hrising.addUpload hn ha target dryRun
  rw [hid, hheight] at hrising'
  exact ⟨⟨⟨⟨halone, hready', hfiled'.numbered⟩, hfiled'⟩, hrising', hcalled, hremovals, hunsurpassed,
    horigin⟩, h.ahead, h.highest, h.own, h.marked⟩

/-- The end of an upload changes neither its place nor its mark. -/
theorem Marking.finishUpload (h : Marking p height heights before c d) (id : Int) (status : Progress)
    (message : Option String) :
    Marking p height heights before c (d.perform (.audit (.finishUpload id status message))).2 := by
  have hrest := h.anchored.rest
  have hstore : ((Op.finishUpload id status message).run d.store).2 = _ :=
    congrArg Prod.snd (finishUpload_plain hrest.filed.plain id status message)
  rw [hrest.calm.ready.refusal] at hstore
  dsimp only at hstore
  refine h.tends (.op hrest (fun h => h) ?_ fun height' _ hsurpassed => ?_) rfl
  · rw [hstore]
    exact ⟨.of_same rfl, .of_changed (Store.mapUploads_uploads _ _) (fun _ => ⟨rfl, rfl⟩)
      fun _ _ _ => Or.inl⟩
  · rw [hstore] at hsurpassed
    exact hsurpassed

/-- An attempt becomes a success when the marker names its height, and no height above. -/
theorem Marking.finishAttempt {w : Writing} (h : Marking p height heights before (some w) d)
    {status : Progress} (hdone : status = .success → w.marked = true) (message : Option String) :
    Marking p height heights before (some w)
      (d.perform (.audit (.finishAttempt w.attempt status message))).2 := by
  have hrest := h.anchored.rest
  have hstore : ((Op.finishAttempt w.attempt status message).run d.store).2 = _ :=
    congrArg Prod.snd (finishAttempt_plain hrest.filed.plain w.attempt status message)
  rw [hrest.calm.ready.refusal] at hstore
  dsimp only at hstore
  refine h.tends (.op hrest (fun h => h) ?_ fun height' hmarker hsurpassed => ?_) rfl
  · rw [hstore]
    refine ⟨.of_changed (Store.mapAttempts_attempts _ _) (fun _ => ⟨rfl, rfl⟩)
      fun a _ hsel => ⟨fun hsuccess => absurd hsel ?_, Or.inl⟩, .of_same rfl⟩
    simp [hsuccess, Progress.text]
  · rw [hstore] at hsurpassed
    by_cases hsuccess : status = .success
    · -- the marker names the height of the attempt, and nothing on record is above it
      have hnamed := h.marked w rfl (hdone hsuccess)
      obtain rfl : height = height' := marker_inj (Option.some.inj (hnamed.symm.trans hmarker))
      obtain ⟨a', ha', -, hlt⟩ := hsurpassed
      rw [Store.mapAttempts_attempts] at ha'
      obtain ⟨a, ha, rfl⟩ := List.mem_map.1 ha'
      refine absurd (h.highest a ha) (UInt64.not_le.2 ?_)
      split at hlt <;> exact hlt
    · refine hsurpassed.of_changed (Store.mapAttempts_attempts _ _) (fun _ => rfl) fun a hended => ?_
      exact absurd hended (by cases status <;> simp_all [Progress.text])

/-- The marker comes to name the height of the attempt. -/
theorem Marking.put (h : Marking p height heights before c d) (hc : c.isSome = true) :
    Marking p height heights before
      ((marks p height).after c (.put (markerKey p) (toString height.toNat))
        (d.perform (.put (markerKey p) (toString height.toNat))).1)
      (d.perform (.put (markerKey p) (toString height.toNat))).2 := by
  obtain ⟨w, rfl⟩ := Option.isSome_iff_exists.1 hc
  have hopened := d.perform_opened (.put (markerKey p) (toString height.toNat))
  cases hrefuses : d.refusesPut with
  | true =>
    simp only [Deployment.perform, Deployment.put, hrefuses, if_true] at hopened ⊢
    refine h.tends (.of_same h.anchored.rest rfl rfl rfl fun id pre hmem => ?_) rfl
    exact (hopened id pre hmem).resolve_right fun hnone => by cases hnone
  | false =>
    simp only [Deployment.perform, Deployment.put, hrefuses, Bool.false_eq_true, if_false] at hopened ⊢
    have hmarker : Order.find? (markerKey p)
        (d.objects.put (markerKey p) (toString height.toNat)) = some (toString height.toNat) :=
      (Order.find?_put _ _ _ _).trans (if_pos rfl)
    obtain ⟨a, ha, hid, hheight⟩ := h.own w rfl
    obtain ⟨⟨⟨halone, hready, hnumbered⟩, hfiled⟩, hrising, hcalled, hremovals, -, -⟩ := h.anchored
    refine ⟨⟨⟨⟨halone, hready, hnumbered⟩, hfiled⟩, hrising, hcalled, fun id pre hmem => ?_,
      fun height' hnamed => ?_, fun text hnamed => ?_⟩, (fun hnone => by cases hnone), h.highest, ?_, ?_⟩
    · refine hremovals id pre ((hopened id pre hmem).resolve_right fun hnone => ?_)
      cases hnone
    · obtain rfl : height = height' := marker_inj (Option.some.inj (hmarker.symm.trans hnamed))
      exact h.not_surpassed
    · obtain rfl : toString height.toNat = text := Option.some.inj (hmarker.symm.trans hnamed)
      exact Or.inr ⟨a, ha, by rw [hheight]⟩
    · rintro w' ⟨⟩
      exact ⟨a, ha, hid, hheight⟩
    · exact fun _ _ _ => hmarker

theorem Marking.perform {β : Type} {act : Act β} (h : Marking p height heights before c d)
    (hallows : (marks p height).allows c act) :
    Marking p height heights before ((marks p height).after c act (d.perform act).1)
      (d.perform act).2 := by
  have hrest := h.anchored.rest
  cases act with
  | audit op =>
    cases op with
    | createAttempt height' dryRun =>
      obtain ⟨rfl, rfl⟩ := hallows
      exact h.createAttempt dryRun
    | createUpload id target pre dryRun =>
      obtain ⟨⟨w, rfl, rfl⟩, n, hn, rfl⟩ := hallows
      exact h.createUpload hn target dryRun
    | finishUpload id status message => exact h.finishUpload id status message
    | getAttempt id =>
      have hstill := getAttempt_still id d.store hrest.calm.ready
      exact h.tends (.of_same hrest hstill rfl rfl fun _ _ hopened => hopened) rfl
    | finishAttempt id status message =>
      obtain ⟨w, rfl, rfl, hdone⟩ := hallows
      exact h.finishAttempt hdone message
    | _ => exact hallows.elim
  | put key text =>
    obtain ⟨hc, rfl, rfl⟩ := hallows
    exact h.put hc
  | command node text =>
    simp only [Deployment.perform, Deployment.command]
    split
    · exact h
    · exact h.tends (.of_same hrest rfl rfl rfl (by simp [Deployment.note])) rfl
  | phase φ => exact h.tends (.of_same hrest rfl rfl rfl fun _ _ hopened => hopened) rfl
  | leave => exact h.tends (.of_same hrest rfl rfl rfl fun _ _ hopened => hopened) rfl
  | enter =>
    have hsame : (d.perform .enter).2.store.attempts = d.store.attempts ∧
        (d.perform .enter).2.store.uploads = d.store.uploads ∧
        (d.perform .enter).2.marker p = d.marker p := by
      simp only [Deployment.perform, Deployment.enter]
      split <;> exact ⟨rfl, rfl, rfl⟩
    have hadds : ¬ (Act.enter).Adds := fun h => h
    have hputs : ¬ (Act.enter).Puts := fun h => h
    refine h.tends (.perform hrest hadds hputs (fun pre hpre => by cases hpre)
      (.of_same hsame.1 hsame.2.1) fun height' _ hsurpassed => ?_) hsame.2.2
    obtain ⟨a, ha, hdone⟩ := hsurpassed
    exact ⟨a, hsame.1 ▸ ha, hdone⟩
  | _ => exact hallows.elim

end Acts

end Capture

section Moves

variable {p : Plant} {heights : List UInt64} {before : Option String} {d d' : Deployment}

/-- At any moment of an attempt above all heights so far. -/
theorem Anchored.attempt (h : Anchored p heights before d) (hreal : p.dryRun = false)
    {height : UInt64} (habove : ∀ height' ∈ heights, height' < height) {hosts : List Host} {gate : Gate}
    {refusesPut : Bool}
    (hpasses : (Capture.run p height).run.Passes { d with hosts, gate, refusesPut } d') :
    Anchored p (heights ++ [height]) before d' := by
  have hstart : Marking p height heights before none { d with hosts, gate, refusesPut } := by
    have h₀ : Anchored p heights before { d with hosts, gate, refusesPut } :=
      h.tends (.of_same h.rest rfl rfl rfl fun _ _ hopened => hopened)
    have hbelow : ∀ a ∈ d.store.attempts, a.height.toUInt64 < height := fun a ha =>
      habove _ (h.called a ha)
    refine ⟨⟨h₀.rest, h₀.rising, fun a ha => List.mem_append_left _ (h.called a ha), h₀.removals,
      h₀.unsurpassed, h₀.origin⟩, fun _ => hbelow, fun a ha => UInt64.le_of_lt (hbelow a ha), ?_, ?_⟩
    · rintro w ⟨⟩
    · rintro w ⟨⟩
  obtain ⟨c, hc⟩ := hpasses.maintains (I := Marking p height heights before) (D := marks p height)
    (fun c d prefixes hc => hc.tends (.mood hc.anchored.rest prefixes) rfl)
    (fun act c d hallows hc => ⟨trivial, hc.perform hallows⟩) (run_marks hreal) hstart
  exact hc.anchored

/-- At any moment of a move. -/
theorem Anchored.passes (h : Anchored p heights before d) (hreal : p.dryRun = false) {m : Move}
    (hm : m.Regular p)
    (hrising : (heights ++ m.heights).Pairwise (· < ·))
    (hbound : ∀ height ∈ heights ++ m.heights, height < 0x8000000000000000)
    (hpasses : m.Passes d d') : Anchored p (heights ++ m.heights) before d' := by
  cases m with
  | attempt p' height hosts gate refusesPut =>
    obtain rfl : p' = p := hm
    exact h.attempt hreal (fun height' hmem => (List.pairwise_append.1 hrising).2.2 height' hmem height
      List.mem_cons_self) hpasses
  | cleanup b keep moods =>
    rw [Move.heights, List.append_nil] at hbound ⊢
    exact h.cleanup hm hbound hpasses
  | persistAttempt id value =>
    rw [Move.heights, List.append_nil]
    exact h.act (fun hrest => .persistAttempt hrest id value) hpasses
  | persistUpload id value =>
    rw [Move.heights, List.append_nil]
    exact h.act (fun hrest => .persistUpload hrest id value) hpasses

theorem Anchored.history (h : Anchored p [] before d) (hreal : p.dryRun = false) {ms : List Move}
    (hregular : ∀ m ∈ ms, m.Regular p) (hrising : (ms.flatMap Move.heights).Pairwise (· < ·))
    (hbound : ∀ height ∈ ms.flatMap Move.heights, height < 0x8000000000000000) :
    Anchored p (ms.flatMap Move.heights) before (history d ms) := by
  induction ms using List.reverseRecOn with
  | nil => exact h
  | append_singleton ms m ih =>
    have hlast : FleetSnapshot.history d (ms ++ [m]) = m.after (FleetSnapshot.history d ms) :=
      List.foldl_append ..
    rw [Move.heights_snoc] at hrising hbound ⊢
    have hms := ih (fun m' hm' => hregular m' (List.mem_append_left _ hm'))
      (List.pairwise_append.1 hrising).1 fun height hmem => hbound height (List.mem_append_left _ hmem)
    rw [hlast]
    exact hms.passes hreal (hregular m (List.mem_append_right _ List.mem_cons_self)) hrising hbound
      (m.passes_after _)

end Moves

/-- Whatever a fleet has been through, with attempts at rising heights, and whatever is under way: the
snapshot that the marker names is as it was left. An attempt has made it, unless the marker named it
already at first. -/
theorem marker_never_dangles {p : Plant} (hreal : p.dryRun = false)
    (hapart : ∀ n ∈ p.fleet, ∀ n' ∈ p.fleet,
      ¬ Bucket.Extends n.target.uploadPrefix n'.target.uploadPrefix)
    {d : Deployment} (htables : d.store.tables = {}) (htriggers : d.store.triggers = [])
    (hrefusals : d.store.refusals = []) (halone : d.meanwhile = []) (hjournal : d.journal = [])
    {ms : List Move} {m : Move} (hregular : ∀ m' ∈ ms ++ [m], m'.Regular p)
    (hrising : ((ms ++ [m]).flatMap Move.heights).Pairwise (· < ·))
    (hbound : ∀ height ∈ (ms ++ [m]).flatMap Move.heights, height < 0x8000000000000000)
    {d' : Deployment} (hpasses : m.Passes (history d ms) d') {height : UInt64}
    (hmarker : d'.marker p = some (toString height.toNat)) :
    (d.marker p = some (toString height.toNat) ∨
      ∃ a ∈ d'.store.attempts, a.height.toUInt64 = height) ∧ Intact d' height := by
  have hfiled := Filed.fresh htables htriggers
  have hnone : d.store.attempts = [] := by rw [Store.attempts, htables, Option.getD_some]
  have hready := hfiled.plain.ready ⟨htriggers, hrefusals, hfiled.plain.attemptTable,
    hfiled.plain.uploadTable⟩ (List.suffix_refl _)
  have hstart : Anchored p [] (d.marker p) d := by
    refine ⟨⟨⟨halone, hready, hfiled.numbered⟩, hfiled⟩, .fresh htables, ?_, ?_, ?_, ?_⟩
    · rw [hnone]
      exact List.forall_mem_nil _
    · intro id pre hopened
      rw [hjournal] at hopened
      cases hopened
    · rintro height - ⟨a, ha, -⟩
      rw [hnone] at ha
      cases ha
    · exact fun text htext => Or.inl htext
  rw [Move.heights_snoc] at hrising hbound
  have hbefore := hstart.history hreal (fun m' hm' => hregular m' (List.mem_append_left _ hm'))
    (List.pairwise_append.1 hrising).1 fun h hmem => hbound h (List.mem_append_left _ hmem)
  have hnow := hbefore.passes hreal (hregular m (List.mem_append_right _ List.mem_cons_self)) hrising
    hbound hpasses
  refine ⟨(hnow.origin _ hmarker).imp_right ?_, hnow.intact hapart hmarker⟩
  rintro ⟨a, ha, htext⟩
  exact ⟨a, ha, (marker_inj htext).symm⟩

namespace Capture

/-- Two snapshots are there when a cleanup comes by that keeps one. -/
def twoRisen : List Move := [loneAttempt 1000, loneAttempt 2000]

def keepOne : Move := .cleanup ⟨false, "bucket"⟩ 1 fun _ => []

end Capture

/-- The lower snapshot is removed. -/
theorem marker_never_dangles_swept :
    lonePlant.dryRun = false ∧
    blank.store.tables = {} ∧ blank.store.triggers = [] ∧ blank.store.refusals = [] ∧
    blank.meanwhile = [] ∧ blank.journal = [] ∧
    (∀ n ∈ lonePlant.fleet, ∀ n' ∈ lonePlant.fleet,
      ¬ Bucket.Extends n.target.uploadPrefix n'.target.uploadPrefix) ∧
    (∀ m ∈ twoRisen ++ [keepOne], m.Regular lonePlant) ∧
    (twoRisen ++ [keepOne]).flatMap Move.heights = [1000, 2000] ∧
    keepOne.Passes (history blank twoRisen) (keepOne.after (history blank twoRisen)) ∧
    (keepOne.after (history blank twoRisen)).marker lonePlant =
      some (toString (2000 : UInt64).toNat) ∧
    .removalOpened 1 "p/1000" ∈ (keepOne.after (history blank twoRisen)).journal ∧
    (blank.marker lonePlant = some (toString (2000 : UInt64).toNat) ∨
      ∃ a ∈ (keepOne.after (history blank twoRisen)).store.attempts, a.height.toUInt64 = 2000) ∧
    Intact (keepOne.after (history blank twoRisen)) 2000 := by
  have hregular : ∀ m ∈ twoRisen ++ [keepOne], m.Regular lonePlant := by
    intro m hm
    simp only [twoRisen, List.cons_append, List.nil_append, List.mem_cons, List.not_mem_nil,
      or_false] at hm
    rcases hm with rfl | rfl | rfl
    · exact rfl
    · exact rfl
    · exact Nat.le_refl 1
  have hmarker : (keepOne.after (history blank twoRisen)).marker lonePlant =
        some (toString (2000 : UInt64).toNat) ∧
      .removalOpened 1 "p/1000" ∈ (keepOne.after (history blank twoRisen)).journal := by
    decide +kernel
  have hheights : (twoRisen ++ [keepOne]).flatMap Move.heights = [1000, 2000] := rfl
  have hrising : ((twoRisen ++ [keepOne]).flatMap Move.heights).Pairwise (· < ·) := by
    rw [hheights]
    exact List.pairwise_pair.2 (by decide)
  have hbound : ∀ height ∈ (twoRisen ++ [keepOne]).flatMap Move.heights,
      height < 0x8000000000000000 := by
    rw [hheights, List.forall_mem_cons, List.forall_mem_singleton]
    decide
  refine ⟨rfl, rfl, rfl, rfl, rfl, rfl, Sweep.separate_lone.apart, hregular, hheights,
    keepOne.passes_after _, hmarker.1, hmarker.2, ?_⟩
  exact marker_never_dangles rfl Sweep.separate_lone.apart rfl rfl rfl rfl rfl hregular
    hrising hbound (keepOne.passes_after _) hmarker.1

end FleetSnapshot
