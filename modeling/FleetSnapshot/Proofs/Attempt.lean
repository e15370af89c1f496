import FleetSnapshot.Proofs.Faults

/-! The course of a real attempt: the preparations, an upload for each node with the entries made for
it in the audit store, the marker if there is cause for it, and the return to service. -/

namespace FleetSnapshot

open Audit Job

/-- The upload of a node, up to the first command without an output. What is told about the data
depends on the image that the node reports. -/
inductive Node.Sends (n : Node) (height : UInt64) (φ : Phase) :
    List Event → Except Stop Unit → Prop
  | inspect {reply s} (h : n.heard reply = .error s) :
      n.Sends height φ [.command n.index φ n.inspectCommand reply] (.error s)
  | describe {image reply s} (h : n.heard reply = .error s) :
      n.Sends height φ [.command n.index φ n.inspectCommand (.output image),
        .command n.index φ (n.metadataCommand n.target.dataDir image height) reply] (.error s)
  | send (image out : String) (reply : Reply) :
      n.Sends height φ [.command n.index φ n.inspectCommand (.output image),
        .command n.index φ (n.metadataCommand n.target.dataDir image height) (.output out),
        .command n.index φ (n.uploadCommand n.target.dataDir n.target.uploadPrefix height) reply]
        ((n.heard reply).map fun _ => ())

theorem Node.heard_ok {n : Node} {reply : Reply} {out : String} (h : n.heard reply = .ok out) :
    reply = .output out := by
  cases reply <;> cases h
  rfl

theorem Node.says_upload {hosts : Nat} {n : Node} (hn : n.index < hosts) (height : UInt64) :
    (n.upload n.target.dataDir n.target.uploadPrefix height).Says hosts (n.Sends height) := by
  have hsend : (do let _ ← n.run (n.uploadCommand n.target.dataDir n.target.uploadPrefix height) :
      Job Unit).Says hosts fun φ es r => ∃ reply, es = [.command n.index φ
        (n.uploadCommand n.target.dataDir n.target.uploadPrefix height) reply] ∧
        r = (n.heard reply).map fun _ => () := by
    refine Says.bind (says_run hn _) (R := fun _ _ es r => es = [] ∧ r = .ok ())
      (fun _ => says_pure fun _ => ⟨rfl, rfl⟩) ?_ ?_
    · rintro φ es s ⟨reply, rfl, hs⟩
      exact ⟨reply, rfl, by rw [← hs]; rfl⟩
    · rintro φ es out es' r ⟨reply, rfl, hout⟩ ⟨rfl, rfl⟩
      exact ⟨reply, rfl, by rw [← hout]; rfl⟩
  refine Says.bind (says_run hn _) (fun image => Says.bind (says_run hn _) (fun _ => hsend)
    (S := fun φ es r => n.Sends height φ
      (.command n.index φ n.inspectCommand (.output image) :: es) r) ?_ ?_) ?_ ?_
  · rintro φ es s ⟨reply, rfl, hs⟩
    exact .describe hs.symm
  · rintro φ es out es' r ⟨reply, rfl, hout⟩ ⟨reply', rfl, rfl⟩
    rw [heard_ok hout.symm]
    exact .send image out reply'
  · rintro φ es s ⟨reply, rfl, hs⟩
    exact .inspect hs.symm
  · rintro φ es image es' r ⟨reply, rfl, himage⟩ hrest
    rw [heard_ok himage.symm]
    exact hrest

/-- A node is waited for just if a command of its upload has no reply. -/
theorem Node.Sends.waits_iff {n : Node} {height : UInt64} {φ : Phase} {es : List Event}
    {r : Except Stop Unit} (h : n.Sends height φ es r) :
    r = .error .hung ↔ ∃ e ∈ es, e.hangs = true := by
  cases h with
  | @inspect reply s h => cases reply <;> cases h <;> simp [Event.hangs]
  | @describe image reply s h => cases reply <;> cases h <;> simp [Event.hangs]
  | send image out reply => cases reply <;> simp [Event.hangs, heard, Except.map]

theorem Node.Sends.text {n : Node} {height : UInt64} {φ : Phase} {es : List Event}
    {r : Except Stop Unit} (h : n.Sends height φ es r) :
    ∀ c ∈ spoken es, c.1 = n.index ∧ Idle c.2 := by
  have hinspect := (foreign_inspectCommand n).idle
  have hmetadata := fun image => (foreign_metadataCommand n n.target.dataDir image height).idle
  have hupload := (foreign_uploadCommand n n.target.dataDir n.target.uploadPrefix height).idle
  cases h <;> simp [spoken, Event.call?, hinspect, hmetadata, hupload]

namespace Capture

def failedAlias (n : Node) : Except Error Unit → Option String
  | .ok () => none
  | .error _ => some n.target.name

/-- The upload of a node under a record, which is closed unless the node is waited for. -/
inductive Closes (height : UInt64) (n : Node) (id : Int) :
    Scene → List Event → Scene → Except Stop (Option String) → Prop
  | ended {c es} (outcome : Except Error Unit)
      (hsends : n.Sends height c.gate.phase es (outcome.mapError .failed)) :
      Closes height n id c es
        { c with store :=
          ((Op.finishUpload id (statusOf outcome).1 (statusOf outcome).2).run c.store).2 }
        (.ok (failedAlias n outcome))
  | waits {c es} (hsends : n.Sends height c.gate.phase es (.error .hung)) :
      Closes height n id c es c (.error .hung)

/-- The upload of a node. One that cannot be put on record is not made. -/
inductive Uploads (attemptId : Int) (height : UInt64) (n : Node) :
    Scene → List Event → Scene → Except Stop (Option String) → Prop
  | unrecorded {c e s}
      (h : (Op.createUpload attemptId n.target.name (uploadPrefix n height) false).run c.store =
        (.error e, s)) :
      Uploads attemptId height n c [] { c with store := s } (.ok (some n.target.name))
  | recorded {c u s es c' r}
      (h : (Op.createUpload attemptId n.target.name (uploadPrefix n height) false).run c.store =
        (.ok u, s))
      (hcloses : Closes height n u.id { c with store := s } es c' r) :
      Uploads attemptId height n c es c' r

def Scene.inPhase (c : Scene) (phase : Phase) : Scene := { c with gate := { c.gate with phase } }

/-- The marker is put unless an upload has failed. -/
def Marks (p : Plant) (height : UInt64) (failed : List String) (es : List Event)
    (marker : Except Error Unit) : Prop :=
  if failed = [] then
    (es = [.put .uploading (markerKey p) (toString height.toNat) true] ∧ marker = .ok ()) ∨
      es = [.put .uploading (markerKey p) (toString height.toNat) false] ∧
        marker = .error (.storage s!"failed to put {markerKey p}")
  else es = [] ∧ marker = .ok ()

theorem Marks.events {p : Plant} {height : UInt64} {failed : List String} {es : List Event}
    {marker : Except Error Unit} (h : Marks p height failed es marker) :
    es = [] ∨ ∃ accepted,
      es = [.put .uploading (markerKey p) (toString height.toNat) accepted] := by
  unfold Marks at h
  split at h
  · rcases h with ⟨rfl, -⟩ | ⟨rfl, -⟩ <;> exact Or.inr ⟨_, rfl⟩
  · exact Or.inl h.1

/-- What an attempt comes to that has restored the fleet. -/
def concluded (failed : List String) (marker : Except Error Unit) : Except Stop Unit :=
  if failed = [] then marker.mapError .failed else .error (.failed (.uploadsFailed failed))

inductive Drives (p : Plant) (attemptId : Int) (height : UInt64) :
    Scene → List Event → Scene → Except Stop Unit → Prop
  | unprepared {c prep s} (hprep : Series .preparing (preparation p.fleet) prep (.error s)) :
      Drives p attemptId height c prep (Scene.inPhase c .preparing) (.error s)
  | waits {c prep up c' s} (hprep : Series .preparing (preparation p.fleet) prep (.ok ()))
      (hup : Each (Uploads attemptId height) p.fleet (Scene.inPhase c .uploading) up c' (.error s)) :
      Drives p attemptId height c (prep ++ up) c' (.error s)
  | restores {c prep up c' failed mark marker rest r}
      (hprep : Series .preparing (preparation p.fleet) prep (.ok ()))
      (hup : Each (Uploads attemptId height) p.fleet (Scene.inPhase c .uploading) up c' (.ok failed))
      (hmark : Marks p height (failed.filterMap id) mark marker)
      (hrest : Series .restoring (restoration p.fleet) rest r) :
      Drives p attemptId height c (prep ++ (up ++ (mark ++ rest))) (Scene.inPhase c' .restoring)
        (r.bind fun _ => concluded (failed.filterMap id) marker)

section Does

variable {hosts : Nat} {p : Plant} {attemptId : Int} {height : UInt64}

theorem uploadEnd_does (n : Node) (id : Int) (outcome : Except Error Unit) :
    (uploadEnd n id outcome).Does hosts fun c es c' r => es = [] ∧
      c' = { c with store :=
        ((Op.finishUpload id (statusOf outcome).1 (statusOf outcome).2).run c.store).2 } ∧
      r = .ok (failedAlias n outcome) := by
  refine Does.bind does_audit (R := fun _ c es c' r => es = [] ∧ c' = c ∧
    r = .ok (failedAlias n outcome)) (fun _ => ?_) ?_ ?_
  · cases outcome with
    | ok _ => exact does_pure fun _ => ⟨rfl, rfl, rfl⟩
    | error e => exact does_pure fun _ => ⟨rfl, rfl, rfl⟩
  · rintro c es c' s ⟨-, -, hs⟩
    cases hs
  · rintro c es c' a es' c'' r ⟨rfl, rfl, -⟩ ⟨rfl, rfl, rfl⟩
    exact ⟨rfl, rfl, rfl⟩

theorem uploadOne_does {n : Node} (hn : n.index < hosts) :
    (uploadOne false attemptId height n).Does hosts (Uploads attemptId height n) := by
  have hcloses : ∀ u : Upload, ((n.upload n.target.dataDir n.target.uploadPrefix height).outcome >>=
      uploadEnd n u.id).Does hosts (Closes height n u.id) := by
    intro u
    refine Does.bind (does_outcome (Node.says_upload hn height))
      (fun outcome => uploadEnd_does n u.id outcome) ?_ ?_
    · rintro c es c' s ⟨r', ⟨rfl, hsends⟩, hs⟩
      rcases r' with (e | _) | a <;> cases hs
      exact .waits hsends
    · rintro c es c' outcome es' c'' r ⟨r', ⟨rfl, hsends⟩, ho⟩ ⟨rfl, rfl, rfl⟩
      rw [List.append_nil]
      rcases r' with (e | _) | a <;> cases ho
      · exact .ended (.error e) hsends
      · exact .ended (.ok a) hsends
  rw [uploadOne_eq]
  refine Does.bind does_audit (R := fun a c es c' r =>
    (∀ e, a = .error e → es = [] ∧ c' = c ∧ r = .ok (some n.target.name)) ∧
      ∀ u, a = .ok u → Closes height n u.id c es c' r) (fun a => ?_) ?_ ?_
  · cases a with
    | error e =>
      refine does_pure fun _ => ⟨fun _ _ => ⟨rfl, rfl, rfl⟩, fun u hu => ?_⟩
      cases hu
    | ok u =>
      refine (hcloses u).mono fun c es c' r h => ⟨fun e he => ?_, fun u' hu => ?_⟩
      · cases he
      · cases hu
        exact h
  · rintro c es c' s ⟨-, -, hs⟩
    cases hs
  · rintro c es c' a es' c'' r ⟨rfl, rfl, ha⟩ hrest
    rcases hop : (Op.createUpload attemptId n.target.name (uploadPrefix n height) false).run c.store
      with ⟨a', s⟩
    rw [hop] at ha hrest
    cases ha
    cases a' with
    | error e =>
      obtain ⟨rfl, rfl, rfl⟩ := hrest.1 e rfl
      exact .unrecorded hop
    | ok u => exact .recorded hop (hrest.2 u rfl)

theorem uploadAll_does (hreal : p.dryRun = false) (hseats : ∀ n ∈ p.fleet, n.index < hosts) :
    (uploadAll p attemptId height).Does hosts fun c es c' r => ∃ rs,
      Each (Uploads attemptId height) p.fleet c es c' rs ∧ r = rs.map (·.filterMap id) := by
  rw [uploadAll, hreal]
  refine Does.bind (does_all fun n hn => uploadOne_does (hseats n hn))
    (R := fun failed c es c' r => es = [] ∧ c' = c ∧ r = .ok (failed.filterMap id))
    (fun failed => does_pure fun _ => ⟨rfl, rfl, rfl⟩) ?_ ?_
  · intro c es c' s hs
    exact ⟨_, hs, rfl⟩
  · rintro c es c' failed es' c'' r hok ⟨rfl, rfl, rfl⟩
    exact ⟨_, by rwa [List.append_nil], rfl⟩

theorem Uploads.gate {n : Node} {c c' : Scene} {es : List Event} {r : Except Stop (Option String)}
    (h : Uploads attemptId height n c es c' r) : c'.gate = c.gate := by
  cases h with
  | unrecorded => rfl
  | recorded _ hcloses => cases hcloses <;> rfl

theorem uploads_gate {fleet : List Node} {c c' : Scene} {es : List Event}
    {r : Except Stop (List (Option String))}
    (h : Each (Uploads attemptId height) fleet c es c' r) : c'.gate = c.gate := by
  induction h with
  | nil => rfl
  | cons h _ ih => exact ih.trans h.gate

theorem writeMarker_does :
    (writeMarker p height).outcome.Says hosts fun φ es r => ∃ marker, r = .ok marker ∧
      (φ = .uploading → Marks p height [] es marker) := by
  have hput : (writeMarker p height).Says hosts fun φ es r =>
      (es = [.put φ (markerKey p) (toString height.toNat) true] ∧ r = .ok ()) ∨
        es = [.put φ (markerKey p) (toString height.toNat) false] ∧
          r = .error (.failed (.storage s!"failed to put {markerKey p}")) := by
    refine Says.bind does_put (R := fun a _ es r => es = [] ∧ r = a.mapError .failed)
      (fun a => does_ofExcept fun _ => ⟨rfl, rfl, rfl⟩) ?_ ?_
    · rintro φ es s (⟨-, hs⟩ | ⟨-, hs⟩) <;> cases hs
    · rintro φ es a es' r (⟨rfl, ha⟩ | ⟨rfl, ha⟩) ⟨rfl, rfl⟩ <;> cases ha
      · exact Or.inl ⟨rfl, rfl⟩
      · exact Or.inr ⟨rfl, rfl⟩
  refine (does_outcome hput).mono ?_
  rintro c es c' r ⟨r', ⟨rfl, ⟨rfl, rfl⟩ | ⟨rfl, rfl⟩⟩, rfl⟩
  · exact ⟨rfl, _, rfl, fun hφ => Or.inl ⟨hφ ▸ rfl, rfl⟩⟩
  · exact ⟨rfl, _, rfl, fun hφ => Or.inr ⟨hφ ▸ rfl, rfl⟩⟩

/-- The end of an attempt whose uploads are over. -/
theorem restoring_does (hseats : ∀ n ∈ p.fleet, n.index < hosts) (failed : List String)
    (marker : Except Error Unit) :
    Does hosts (do
      Job.act (.phase .restoring)
      restore p.fleet
      if !failed.isEmpty then Job.fail (.uploadsFailed failed)
      Job.ofExcept marker) fun c es c' r => ∃ r', Series .restoring (restoration p.fleet) es r' ∧
        c' = Scene.inPhase c .restoring ∧ r = r'.bind fun _ => concluded failed marker := by
  have hclose : Does hosts (do
      if !failed.isEmpty then Job.fail (.uploadsFailed failed)
      Job.ofExcept marker) fun c es c' r => es = [] ∧ c' = c ∧ r = concluded failed marker := by
    cases failed with
    | nil => exact does_ofExcept fun _ => ⟨rfl, rfl, rfl⟩
    | cons name names => exact does_throw fun _ => ⟨rfl, rfl, rfl⟩
  have hrestore : Does hosts (do
      restore p.fleet
      if !failed.isEmpty then Job.fail (.uploadsFailed failed)
      Job.ofExcept marker) fun c es c' r => ∃ r',
        Series c.gate.phase (restoration p.fleet) es r' ∧ c' = c ∧
          r = r'.bind fun _ => concluded failed marker := by
    refine Does.bind (says_restore hseats) (fun _ => hclose) ?_ ?_
    · rintro c es c' s ⟨hc, hs⟩
      exact ⟨_, hs, hc, rfl⟩
    · rintro c es c' a es' c'' r ⟨rfl, ha⟩ ⟨rfl, rfl, rfl⟩
      exact ⟨_, by rwa [List.append_nil], rfl, rfl⟩
  refine Does.bind does_phase (fun _ => hrestore) ?_ ?_
  · rintro c es c' s ⟨-, -, hs⟩
    cases hs
  · rintro c es c' a es' c'' r ⟨rfl, rfl, -⟩ ⟨r', hr', rfl, rfl⟩
    exact ⟨r', hr', rfl, rfl⟩

/-- The attempt from its uploads on. -/
theorem marking_does (hseats : ∀ n ∈ p.fleet, n.index < hosts) (failed : List String) :
    Does hosts (do
      let marker ← if failed.isEmpty then (writeMarker p height).outcome else pure (.ok ())
      Job.act (.phase .restoring)
      restore p.fleet
      if !failed.isEmpty then Job.fail (.uploadsFailed failed)
      Job.ofExcept marker) fun c es c' r => c.gate.phase = .uploading → ∃ mark marker rest r',
        es = mark ++ rest ∧ Marks p height failed mark marker ∧
          Series .restoring (restoration p.fleet) rest r' ∧ c' = Scene.inPhase c .restoring ∧
          r = r'.bind fun _ => concluded failed marker := by
  cases failed with
  | nil =>
    refine Does.bind writeMarker_does (fun marker => restoring_does hseats [] marker) ?_ ?_
    · rintro c es c' s ⟨-, marker, hs, -⟩
      cases hs
    · rintro c es c' a es' c'' r ⟨rfl, marker, ha, hmarks⟩ ⟨r', hr', rfl, rfl⟩ hphase
      cases ha
      exact ⟨es, a, es', r', rfl, hmarks hphase, hr', rfl, rfl⟩
  | cons name names =>
    refine (restoring_does hseats (name :: names) (.ok ())).mono ?_
    rintro c es c' r ⟨r', hr', rfl, rfl⟩ -
    exact ⟨[], .ok (), es, r', rfl, ⟨rfl, rfl⟩, hr', rfl, rfl⟩

theorem drive_does (hreal : p.dryRun = false) (hseats : ∀ n ∈ p.fleet, n.index < hosts) :
    (drive p attemptId height).Does hosts (Drives p attemptId height) := by
  unfold drive
  simp only [hreal, Bool.not_false, Bool.and_true, if_true]
  refine Does.bind does_phase (R := fun _ c es c' r => ∀ c₀, c = Scene.inPhase c₀ .preparing →
    Drives p attemptId height c₀ es c' r) (fun _ => ?prepare) ?_ ?_
  case prepare =>
    refine Does.bind (says_prepare hseats) (R := fun _ c es c' r => ∀ c₀ prep,
      c = Scene.inPhase c₀ .preparing → Series .preparing (preparation p.fleet) prep (.ok ()) →
        Drives p attemptId height c₀ (prep ++ es) c' r) (fun _ => ?begin) ?_ ?_
    case begin =>
      refine Does.bind does_phase (R := fun _ c es c' r => ∀ c₀ prep,
        c = Scene.inPhase c₀ .uploading → Series .preparing (preparation p.fleet) prep (.ok ()) →
          Drives p attemptId height c₀ (prep ++ es) c' r) (fun _ => ?upload) ?_ ?_
      case upload =>
        refine Does.bind (uploadAll_does hreal hseats)
          (fun failed => marking_does hseats failed) ?_ ?_
        · rintro c es c' s ⟨rs, hup, hs⟩ c₀ prep rfl hprep
          rcases rs with s' | failed <;> cases hs
          exact .waits hprep hup
        · rintro c es c' failed es' c'' r ⟨rs, hup, hfailed⟩ hrest c₀ prep rfl hprep
          rcases rs with s' | failed' <;> cases hfailed
          have hphase : c'.gate.phase = .uploading := by rw [uploads_gate hup]; rfl
          obtain ⟨mark, marker, rest, r', rfl, hmarks, hseries, rfl, rfl⟩ := hrest hphase
          exact .restores hprep hup hmarks hseries
      · rintro c es c' s ⟨-, -, hs⟩
        cases hs
      · rintro c es c' a es' c'' r ⟨rfl, rfl, -⟩ hrest c₀ prep rfl hprep
        exact hrest c₀ prep rfl hprep
    · rintro c es c' s ⟨rfl, hprep⟩ c₀ rfl
      exact .unprepared hprep
    · rintro c es c' a es' c'' r ⟨rfl, hprep⟩ hrest c₀ rfl
      exact hrest c₀ es rfl hprep
  · rintro c es c' s ⟨-, -, hs⟩
    cases hs
  · rintro c es c' a es' c'' r ⟨rfl, rfl, -⟩ hrest
    exact hrest c rfl

end Does

/-- How the record of an attempt is closed, by what became of it. -/
inductive Settles (attemptId : Int) :
    Scene → Except Stop Unit → Scene → Except Stop Attempt → Prop
  | waits {c} : Settles attemptId c (.error .hung) c (.error .hung)
  | fails (c : Scene) (e : Error) : Settles attemptId c (.error (.failed e))
      ⟨{ c.gate with phase := .failed },
        ((Op.finishAttempt attemptId .failed (some e.message)).run c.store).2⟩ (.error (.failed e))
  | unwritten {c e s c' r}
      (h : (Op.finishAttempt attemptId .success none).run c.store = (.error e, s))
      (hfails : Settles attemptId ⟨c.gate, s⟩ (.error (.failed e)) c' r) :
      Settles attemptId c (.ok ()) c' r
  | succeeds {c s} (h : (Op.finishAttempt attemptId .success none).run c.store = (.ok (), s)) :
      Settles attemptId c (.ok ())
        ⟨{ c.gate with phase := .success }, ((Op.getAttempt attemptId).run s).2⟩
        (match ((Op.getAttempt attemptId).run s).1 with
          | .ok (some a) => .ok a
          | .ok none => .error (.failed (.store .rowMissing))
          | .error e => .error (.failed e))

def Scene.entered (c : Scene) : Scene :=
  ⟨{ c.gate with inProgress := true, phase := .idle, startedAt := some (c.store.clock c.store.ticks) },
    { c.store with ticks := c.store.ticks + 1 }⟩

inductive Attempts (p : Plant) (height : UInt64) :
    Scene → List Event → Scene → Except Stop Attempt → Prop
  | unrecorded {c e s} (hop : (Op.createAttempt height false).run c.store = (.error e, s)) :
      Attempts p height c [] { c with store := s } (.error (.failed e))
  | recorded {c a s es c₁ r₁ c' r} (hop : (Op.createAttempt height false).run c.store = (.ok a, s))
      (hdrives : Drives p a.id height { c with store := s } es c₁ r₁)
      (hsettles : Settles a.id c₁ r₁ c' r) : Attempts p height c es c' r

inductive Runs (p : Plant) (height : UInt64) :
    Scene → List Event → Scene → Except Stop Attempt → Prop
  | busy {c} (h : c.gate.inProgress = true) : Runs p height c [] c (.error (.failed .busy))
  | admitted {c es c' r} (h : c.gate.inProgress = false)
      (hattempts : Attempts p height (Scene.entered c) es c' r) :
      Runs p height c es ⟨c'.gate.leave, c'.store⟩ r

section Does

variable {hosts : Nat} {p : Plant} {attemptId : Int} {height : UInt64}

theorem does_enter : (act .enter).Does hosts fun c es c' r => es = [] ∧
    (c.gate.inProgress = true ∧ c' = c ∧ r = .ok (.error .busy) ∨
      c.gate.inProgress = false ∧ c' = Scene.entered c ∧ r = .ok (.ok ())) := by
  intro d hd
  refine ⟨[], ?_⟩
  rw [perform_act, List.append_nil]
  simp only [Deployment.perform, Deployment.enter, Gate.enter]
  cases hg : d.gate.inProgress with
  | true => exact ⟨hd, rfl, trivial, Or.inl ⟨hg, rfl, rfl⟩⟩
  | false => exact ⟨hd, rfl, trivial, Or.inr ⟨hg, rfl, rfl⟩⟩

theorem perform_leaving {α : Type} (j : Job α) (d : Deployment) : (leaving j).perform d =
    ((j.perform d).1, ((j.perform d).2.perform .leave).2) := by
  refine (Plan.run_bind j.run _ d).trans ?_
  rfl

theorem does_leaving {α : Type} {j : Job α} {P : Scene → List Event → Scene → Except Stop α → Prop}
    (h : j.Does hosts P) : (leaving j).Does hosts fun c es c' r => ∃ c₁, P c es c₁ r ∧
      c' = ⟨c₁.gate.leave, c₁.store⟩ := by
  intro d hd
  obtain ⟨es, hhosts, hjournal, hP⟩ := h d hd
  rw [perform_leaving]
  exact ⟨es, hhosts, hjournal, _, hP, rfl⟩

theorem failing_does (e : Error) :
    (do
      Job.act (.phase .failed)
      let _ ← Job.act (.audit (.finishAttempt attemptId .failed (some e.message)))
      Job.fail e : Job Attempt).Does hosts fun c es c' r =>
        es = [] ∧ Settles attemptId c (.error (.failed e)) c' r := by
  have hfail : (do
      let _ ← Job.act (.audit (.finishAttempt attemptId .failed (some e.message)))
      Job.fail e : Job Attempt).Does hosts fun c es c' r => es = [] ∧ c' = { c with
        store := ((Op.finishAttempt attemptId .failed (some e.message)).run c.store).2 } ∧
        r = .error (.failed e) := by
    refine Does.bind does_audit (R := fun _ c es c' r => es = [] ∧ c' = c ∧ r = .error (.failed e))
      (fun _ => does_throw fun _ => ⟨rfl, rfl, rfl⟩) ?_ ?_
    · rintro c es c' s ⟨-, -, hs⟩
      cases hs
    · rintro c es c' a es' c'' r ⟨rfl, rfl, -⟩ ⟨rfl, rfl, rfl⟩
      exact ⟨rfl, rfl, rfl⟩
  refine Does.bind does_phase (fun _ => hfail) ?_ ?_
  · rintro c es c' s ⟨-, -, hs⟩
    cases hs
  · rintro c es c' a es' c'' r ⟨rfl, rfl, -⟩ ⟨rfl, rfl, rfl⟩
    exact ⟨rfl, .fails c e⟩

theorem succeeding_does :
    (do
      Job.act (.phase .success)
      match ← Job.audit (.getAttempt attemptId) with
      | some a => return a
      | none => Job.fail (.store .rowMissing) : Job Attempt).Does hosts fun c es c' r =>
        es = [] ∧ c' = ⟨{ c.gate with phase := .success }, ((Op.getAttempt attemptId).run c.store).2⟩ ∧
        r = match ((Op.getAttempt attemptId).run c.store).1 with
          | .ok (some a) => .ok a
          | .ok none => .error (.failed (.store .rowMissing))
          | .error e => .error (.failed e) := by
  have hread : (do
      match ← Job.audit (.getAttempt attemptId) with
      | some a => return a
      | none => Job.fail (.store .rowMissing) : Job Attempt).Does hosts fun c es c' r =>
        es = [] ∧ c' = { c with store := ((Op.getAttempt attemptId).run c.store).2 } ∧
        r = match ((Op.getAttempt attemptId).run c.store).1 with
          | .ok (some a) => .ok a
          | .ok none => .error (.failed (.store .rowMissing))
          | .error e => .error (.failed e) := by
    refine Does.bind does_ask (R := fun found c es c' r => es = [] ∧ c' = c ∧ r = match found with
      | some a => .ok a
      | none => .error (.failed (.store .rowMissing))) (fun found => ?_) ?_ ?_
    · cases found with
      | some a => exact does_pure fun _ => ⟨rfl, rfl, rfl⟩
      | none => exact does_throw fun _ => ⟨rfl, rfl, rfl⟩
    · rintro c es c' s ⟨rfl, rfl, hs⟩
      refine ⟨rfl, rfl, ?_⟩
      rcases hop : ((Op.getAttempt attemptId).run c.store).1 with e | found <;> rw [hop] at hs
      · exact congrArg Except.error (Except.error.inj hs)
      · cases hs
    · rintro c es c' found es' c'' r ⟨rfl, rfl, hfound⟩ ⟨rfl, rfl, rfl⟩
      refine ⟨rfl, rfl, ?_⟩
      rcases hop : ((Op.getAttempt attemptId).run c.store).1 with e | found' <;> rw [hop] at hfound
      · cases hfound
      · cases hfound
        cases found <;> rfl
  refine Does.bind does_phase (fun _ => hread) ?_ ?_
  · rintro c es c' s ⟨-, -, hs⟩
    cases hs
  · rintro c es c' a es' c'' r ⟨rfl, rfl, -⟩ ⟨rfl, rfl, rfl⟩
    exact ⟨rfl, rfl, rfl⟩

/-- What comes of the update that records success, if it gets to that. -/
inductive Writes (attemptId : Int) : Scene → Except Stop Unit → Scene → Except Stop Unit → Prop
  | stops {c s} : Writes attemptId c (.error s) c (.error s)
  | asks {c x s} (h : (Op.finishAttempt attemptId .success none).run c.store = (x, s)) :
      Writes attemptId c (.ok ()) ⟨c.gate, s⟩ (x.mapError .failed)

theorem written_does (hreal : p.dryRun = false) (hseats : ∀ n ∈ p.fleet, n.index < hosts) :
    (do
      drive p attemptId height
      Job.audit (.finishAttempt attemptId .success none)).Does hosts fun c es c' r => ∃ c₁ r₁,
        Drives p attemptId height c es c₁ r₁ ∧ Writes attemptId c₁ r₁ c' r := by
  refine Does.bind (drive_does hreal hseats) (fun _ => does_ask) ?_ ?_
  · intro c es c' s hs
    exact ⟨c', _, hs, .stops⟩
  · rintro c es c' a es' c'' r ha ⟨rfl, rfl, rfl⟩
    exact ⟨c', _, by rwa [List.append_nil], .asks rfl⟩

theorem record_does (hreal : p.dryRun = false) (hseats : ∀ n ∈ p.fleet, n.index < hosts) :
    (record p attemptId height).Does hosts fun c es c' r => ∃ c₁ r₁,
      Drives p attemptId height c es c₁ r₁ ∧ Settles attemptId c₁ r₁ c' r := by
  refine Does.bind (does_outcome (written_does hreal hseats))
    (R := fun outcome c es c' r => es = [] ∧ match outcome with
      | .ok () => c' = ⟨{ c.gate with phase := .success },
          ((Op.getAttempt attemptId).run c.store).2⟩ ∧
          r = match ((Op.getAttempt attemptId).run c.store).1 with
            | .ok (some a) => .ok a
            | .ok none => .error (.failed (.store .rowMissing))
            | .error e => .error (.failed e)
      | .error e => Settles attemptId c (.error (.failed e)) c' r) (fun outcome => ?_) ?_ ?_
  · cases outcome with
    | ok _ => exact succeeding_does
    | error e => exact failing_does e
  · rintro c es c' s ⟨r', ⟨c₁, r₁, hdrives, hwrites⟩, hs⟩
    cases hwrites with
    | @stops s' =>
      cases s' <;> cases hs
      exact ⟨_, _, hdrives, .waits⟩
    | @asks x s' h =>
      cases x <;> cases hs
  · rintro c es c' outcome es' c'' r ⟨r', ⟨c₁, r₁, hdrives, hwrites⟩, ho⟩ ⟨rfl, hrest⟩
    refine ⟨c₁, r₁, by rwa [List.append_nil], ?_⟩
    cases hwrites with
    | @stops s' =>
      cases s' <;> cases ho
      exact hrest
    | @asks x s' h =>
      cases x <;> cases ho
      · exact .unwritten h hrest
      · obtain ⟨rfl, rfl⟩ := hrest
        exact .succeeds h

theorem attempt_does (hreal : p.dryRun = false) (hseats : ∀ n ∈ p.fleet, n.index < hosts) :
    (do
      let a ← Job.audit (.createAttempt height p.dryRun)
      record p a.id height).Does hosts (Attempts p height) := by
  rw [hreal]
  refine Does.bind does_ask (fun a => record_does hreal hseats) ?_ ?_
  · rintro c es c' s ⟨rfl, rfl, hs⟩
    rcases hop : (Op.createAttempt height false).run c.store with ⟨e | a, s'⟩ <;>
      rw [hop] at hs <;> cases hs
    exact .unrecorded hop
  · rintro c es c' a es' c'' r ⟨rfl, rfl, ha⟩ ⟨c₁, r₁, hdrives, hsettles⟩
    rcases hop : (Op.createAttempt height false).run c.store with ⟨e | a', s'⟩ <;>
      rw [hop] at ha hdrives <;> cases ha
    exact .recorded hop hdrives hsettles

theorem run_does (height : UInt64) (hreal : p.dryRun = false)
    (hseats : ∀ n ∈ p.fleet, n.index < hosts) :
    (run p height).Does hosts (Runs p height) := by
  refine Does.bind does_enter (R := fun entry c es c' r => match entry with
    | .error e => es = [] ∧ c' = c ∧ r = .error (.failed e)
    | .ok () => ∃ c₁, Attempts p height c es c₁ r ∧ c' = ⟨c₁.gate.leave, c₁.store⟩)
    (fun entry => ?_) ?_ ?_
  · cases entry with
    | error e => exact does_throw fun _ => ⟨rfl, rfl, rfl⟩
    | ok _ => exact does_leaving (attempt_does hreal hseats)
  · rintro c es c' s ⟨-, ⟨-, -, hs⟩ | ⟨-, -, hs⟩⟩ <;> cases hs
  · rintro c es c' entry es' c'' r ⟨rfl, ⟨hbusy, rfl, he⟩ | ⟨hfree, rfl, he⟩⟩ hrest <;> cases he
    · obtain ⟨rfl, rfl, rfl⟩ := hrest
      exact .busy hbusy
    · obtain ⟨c₁, hattempts, rfl⟩ := hrest
      exact .admitted hfree hattempts

end Does

end Capture

end FleetSnapshot
