import FleetSnapshot.Capture
import FleetSnapshot.Proofs.Plan

/-! Calls of nodes are made of commands alone, and the replies decide only how far they get. They
keep every discipline that takes no notice of commands. The course of an attempt and its end are gone
through once for all disciplines. A fleet of one node stands at the end, for the runs on fixed inputs
of later modules. -/

namespace FleetSnapshot

def Discipline.Ignores {σ β : Type} (D : Discipline σ) (c : σ) (act : Act β) : Prop :=
  D.allows c act ∧ ∀ r, D.after c act r = c

def Discipline.Unmoved {σ : Type} (D : Discipline σ) : Prop :=
  ∀ c node text, D.Ignores c (.command node text)

def Discipline.Unphased {σ : Type} (D : Discipline σ) : Prop := ∀ c φ, D.Ignores c (.phase φ)

namespace Job

variable {σ α β ι : Type} {D : Discipline σ} {c : σ}

/-- The job keeps the discipline and leaves its state as it is. -/
def Stays (D : Discipline σ) (c : σ) (j : Job α) : Prop :=
  j.Keeps D c (fun c' _ => c' = c) fun c' _ => c' = c

theorem Stays.keeps {j : Job α} {good : σ → α → Prop} {bad : σ → Stop → Prop} (h : Stays D c j)
    (hg : ∀ a, good c a) (hb : ∀ s, bad c s) : j.Keeps D c good bad :=
  Keeps.mono h (fun _ a hc => hc ▸ hg a) fun _ s hc => hc ▸ hb s

theorem Stays.anyhow {j : Job α} (h : Stays D c j) :
    j.Keeps D c (fun _ _ => True) fun _ _ => True :=
  Keeps.mono h (fun _ _ _ => trivial) fun _ _ _ => trivial

theorem stays_pure (a : α) : Stays D c (pure a) := rfl

theorem stays_fail (e : Error) : Stays D c (fail e : Job α) := rfl

theorem stays_ofExcept (x : Except Error α) : Stays D c (ofExcept x) := by
  cases x <;> rfl

theorem stays_act {a : Act α} (h : D.Ignores c a) : Stays D c (act a) :=
  (keeps_act a).2 ⟨h.1, fun r _ => h.2 r⟩

theorem stays_bind {j : Job α} {f : α → Job β} (hj : Stays D c j) (hf : ∀ a, Stays D c (f a)) :
    Stays D c (j >>= f) := by
  refine (keeps_bind j f).2 (hj.mono (fun c' a hc => ?_) fun c' _ hc => hc)
  subst hc
  exact hf a

theorem stays_audit {op : Audit.Op α} (h : D.Ignores c (.audit op)) : Stays D c (audit op) :=
  stays_bind (stays_act h) stays_ofExcept

theorem stays_upToFailure {f : ι → Job α} (hf : ∀ i, Stays D c (f i)) (is : List ι) :
    Stays D c (upToFailure (is.map f)) := by
  refine (keeps_upToFailure (fun _ c' => c' = c) (fun c' _ => c' = c) ?_ is rfl).mono
    (fun _ _ h => h) fun c' s h => by cases s <;> exact h
  rintro i is c' rfl
  exact (hf i).mono (fun _ _ h => h) fun c' s h => by cases s <;> exact h

theorem stays_both {j : Job α} {k : Job β} (hj : Stays D c j) (hk : Stays D c k) :
    Stays D c (both j k) := by
  refine keeps_both (hj.mono (fun c' a hc => ?_) fun c' s hc => ?_)
  · subst hc
    exact hk
  · subst hc
    exact hk

theorem stays_all {js : List (Job α)} (h : ∀ j ∈ js, Stays D c j) : Stays D c (all js) := by
  induction js with
  | nil => exact stays_pure []
  | cons j js ih =>
    rw [List.forall_mem_cons] at h
    exact stays_bind (stays_both h.1 (ih h.2)) fun _ => stays_pure _

theorem stays_outcome {j : Job α} (hj : Stays D c j) : Stays D c j.outcome := by
  refine (keeps_outcome j).2 (hj.mono (fun _ _ h => h) fun c' s h => ?_)
  cases s <;> exact h

end Job

open Job

theorem Node.run_ignored {σ : Type} {D : Discipline σ} {c : σ} (n : Node) {command : String}
    (h : D.Ignores c (.command n.index command)) : Stays D c (n.run command) := by
  refine (keeps_bind _ _).2 ((keeps_act _).2 ⟨h.1, fun r _ => ?_⟩)
  rw [h.2 r]
  cases r <;> rfl

namespace Capture

variable {σ : Type} {D : Discipline σ} {c : σ}

theorem across_stays {call : Node → Job Unit} (h : ∀ n, Stays D c (call n)) (fleet : List Node) :
    Stays D c (across fleet call) :=
  stays_bind (stays_upToFailure h fleet) fun _ => stays_pure ()

def uploadEnd (n : Node) (id : Int) (outcome : Except Error Unit) : Job (Option String) := do
  let (status, message) := statusOf outcome
  let _ ← Job.act (.audit (.finishUpload id status message))
  match outcome with
  | .ok () => return none
  | .error _ => return some n.target.name

theorem uploadOne_eq (dryRun : Bool) (attemptId : Int) (height : UInt64) (n : Node) :
    uploadOne dryRun attemptId height n =
      (Job.act (.audit (.createUpload attemptId n.target.name (uploadPrefix n height) dryRun)) >>=
        fun r => match r with
        | .error _ => pure (some n.target.name)
        | .ok record =>
          if dryRun then uploadEnd n record.id (.ok ())
          else (n.upload n.target.dataDir n.target.uploadPrefix height).outcome >>=
            uploadEnd n record.id) := by
  cases dryRun <;> rfl

theorem leaving_keeps {α : Type} {j : Job α}
    {good : σ → α → Prop} {stops : σ → Stop → Prop}
    (h : j.Keeps D c (fun c a => D.allows c .leave ∧ good (D.after c .leave ()) a)
      fun c s => D.allows c .leave ∧ stops (D.after c .leave ()) s) :
    (leaving j).Keeps D c good stops := by
  refine (Plan.keeps_bind _ _ c _).2 (Plan.Keeps.mono h fun c r hr => ?_)
  cases r with
  | ok a => exact ⟨hr.1, fun _ _ => hr.2⟩
  | error s => exact ⟨hr.1, fun _ _ => hr.2⟩

end Capture

section Calls

variable {σ : Type} {D : Discipline σ} (hD : D.Unmoved) (c : σ)

include hD

namespace Node

variable (n : Node)

theorem run_stays (command : String) : Stays D c (n.run command) := n.run_ignored (hD c n.index command)

theorem stop_stays (container : String) (force : Bool) : Stays D c (n.stop container force) :=
  stays_bind (n.run_stays hD c _) fun _ => stays_pure ()

theorem start_stays (container : String) : Stays D c (n.start container) :=
  stays_bind (n.run_stays hD c _) fun _ => stays_pure ()

theorem dump_stays (request path : String) : Stays D c (n.dump request path) :=
  stays_bind (n.run_stays hD c _) fun _ => stays_pure ()

theorem height_stays : Stays D c n.height := by
  refine stays_bind (n.run_stays hD c _) fun out => ?_
  cases Quantity.read? out with
  | none => exact stays_fail _
  | some h => exact stays_pure h

theorem upload_stays (dir pre : String) (height : UInt64) : Stays D c (n.upload dir pre height) :=
  stays_bind (n.run_stays hD c _) fun _ =>
    stays_bind (n.run_stays hD c _) fun _ =>
      stays_bind (n.run_stays hD c _) fun _ => stays_pure ()

end Node

theorem Agreement.verifyHeights_stays (fleet : List Node) :
    Stays D c (Agreement.verifyHeights fleet) := by
  refine stays_bind (stays_upToFailure (fun n => ?_) fleet) fun heights => ?_
  · exact stays_bind (n.height_stays hD c) fun h => stays_pure _
  · cases unanimous (heights.map (·.2)) with
    | none => exact stays_fail _
    | some h => exact stays_pure h

namespace Capture

theorem prepare_stays (fleet : List Node) : Stays D c (prepare fleet) :=
  stays_bind (across_stays (fun n => n.stop_stays hD c _ _) fleet) fun _ =>
    stays_bind (Agreement.verifyHeights_stays hD c fleet) fun _ =>
      stays_bind (across_stays (fun n => stays_bind (n.dump_stays hD c _ _) fun _ =>
        n.dump_stays hD c _ _) fleet) fun _ =>
        across_stays (fun n => n.stop_stays hD c _ _) fleet

theorem restore_stays (fleet : List Node) : Stays D c (restore fleet) :=
  stays_bind (across_stays (fun n => n.start_stays hD c _) fleet) fun _ =>
    stays_bind (across_stays (fun n => n.start_stays hD c _) fleet) fun _ =>
      across_stays (fun n => stays_bind (n.stop_stays hD c _ _) fun _ =>
        n.start_stays hD c _) fleet

variable {c}

/-- The state takes no notice of what an attempt puts on record of its uploads. -/
structure Overlooks (D : Discipline σ) (c : σ) (p : Plant) (attemptId : Int) (height : UInt64) :
    Prop where
  createUpload {n : Node} (hn : n ∈ p.fleet) : D.Ignores c
    (.audit (.createUpload attemptId n.target.name (uploadPrefix n height) p.dryRun))
  finishUpload (id : Int) (status : Audit.Progress) (message : Option String) :
    D.Ignores c (.audit (.finishUpload id status message))

variable {p : Plant} {attemptId : Int} {height : UInt64} (h : Overlooks D c p attemptId height)

include h

theorem uploadOne_stays {n : Node} (hn : n ∈ p.fleet) :
    Stays D c (uploadOne p.dryRun attemptId height n) := by
  have hend : ∀ id outcome, Stays D c (uploadEnd n id outcome) := by
    intro id outcome
    refine stays_bind (stays_act (h.finishUpload _ _ _)) fun _ => ?_
    cases outcome <;> exact stays_pure _
  rw [uploadOne_eq]
  refine stays_bind (stays_act (h.createUpload hn)) fun x => ?_
  cases x with
  | error e => exact stays_pure _
  | ok record =>
    cases p.dryRun with
    | true => exact hend record.id (.ok ())
    | false =>
      exact stays_bind (stays_outcome (n.upload_stays hD c _ _ height)) fun outcome =>
        hend record.id outcome

theorem uploadAll_stays : Stays D c (uploadAll p attemptId height) := by
  refine stays_bind (stays_all fun j hj => ?_) fun _ => stays_pure _
  obtain ⟨n, hn, rfl⟩ := List.mem_map.1 hj
  exact uploadOne_stays hD h hn

omit h

/-- What has to hold when the uploads are over. The marker is due if none of them has failed. -/
structure Proceeds (D : Discipline σ) (p : Plant) (height : UInt64) (good bad : σ → Prop)
    (failed : List String) (c : σ) : Prop where
  stops : bad c
  rehearsed : p.dryRun = true → failed = [] → good c
  marker : p.dryRun = false → failed = [] →
    (Plan.act (.put (markerKey p) (toString height.toNat))).Keeps D c fun c r =>
      bad c ∧ (r = .ok () → good c)

/-- An attempt up to its end: it comes to a good end if no upload has failed and the marker has been
put. -/
theorem drive_keeps (hphase : D.Unphased) {good bad : σ → Prop} (hstart : bad c)
    (huploads : (uploadAll p attemptId height).Keeps D c
      (fun c failed => Proceeds D p height good bad failed c) fun c _ => bad c) :
    (drive p attemptId height).Keeps D c (fun c _ => good c) fun c _ => bad c := by
  have hclose : ∀ {c} (failed : List String) (marker : Except Error Unit), bad c →
      (failed = [] → marker = .ok () → good c) → Keeps D (do
        if !failed.isEmpty then Job.fail (.uploadsFailed failed)
        Job.ofExcept marker) c (fun c _ => good c) fun c _ => bad c := by
    intro c failed marker hbad hgood
    cases failed with
    | cons name names => exact hbad
    | nil =>
      cases marker with
      | error e => exact hbad
      | ok _ => exact hgood rfl rfl
  have hphase_stays : ∀ c φ, Stays D c (act (.phase φ)) := fun c φ => stays_act (hphase c φ)
  have hrestore : ∀ {c} (failed : List String) (marker : Except Error Unit), bad c →
      (failed = [] → marker = .ok () → good c) → Keeps D (do
        Job.act (.phase .restoring)
        restore p.fleet
        if !failed.isEmpty then Job.fail (.uploadsFailed failed)
        Job.ofExcept marker) c (fun c _ => good c) fun c _ => bad c := by
    intro c failed marker hbad hgood
    refine (keeps_bind _ _).2 ((hphase_stays c _).keeps (fun _ => ?_) fun _ => hbad)
    refine (keeps_bind _ _).2 ((restore_stays hD c p.fleet).keeps (fun _ => ?_) fun _ => hbad)
    exact hclose failed marker hbad hgood
  unfold drive
  cases hdry : p.dryRun with
  | true =>
    simp only [Bool.not_true, Bool.false_eq_true, Bool.and_false, if_false, keeps_bind, keeps_pure]
    refine (hphase_stays c _).keeps (fun _ => ?_) fun _ => hstart
    exact huploads.mono (fun c failed h => hclose failed (.ok ()) h.stops fun hnone _ =>
      h.rehearsed hdry hnone) fun _ _ h => h
  | false =>
    simp only [Bool.not_false, Bool.and_true, if_true, keeps_bind]
    refine (hphase_stays c _).keeps (fun _ => ?_) fun _ => hstart
    refine (prepare_stays hD c p.fleet).keeps (fun _ => ?_) fun _ => hstart
    refine (hphase_stays c _).keeps (fun _ => ?_) fun _ => hstart
    refine huploads.mono (fun c failed h => ?_) fun _ _ h => h
    split
    case isTrue hnone =>
      obtain ⟨hallows, hput⟩ := h.marker hdry (List.isEmpty_iff.1 hnone)
      rw [keeps_bind, keeps_outcome, writeMarker, keeps_bind, keeps_act]
      refine ⟨hallows, fun r hr => ?_⟩
      obtain ⟨hbad, hgood⟩ := hput r hr
      cases r with
      | ok _ => exact hrestore failed (.ok ()) hbad fun _ _ => hgood rfl
      | error e => exact hrestore failed (.error e) hbad fun _ herror => by cases herror
    case isFalse hsome =>
      refine hrestore failed (.ok ()) h.stops fun hnone _ => absurd ?_ hsome
      rw [hnone, List.isEmpty_nil]

/-- As above, where no notice is taken of the marker either. -/
theorem drive_stays (hphase : D.Unphased) (h : Overlooks D c p attemptId height)
    (hput : D.Ignores c (.put (markerKey p) (toString height.toNat))) :
    Stays D c (drive p attemptId height) := by
  change (drive p attemptId height).Keeps D c (fun c' _ => c' = c) fun c' _ => c' = c
  refine drive_keeps hD hphase rfl ((uploadAll_stays hD h).keeps (fun failed => ?_) fun _ => rfl)
  exact ⟨rfl, fun _ _ => rfl, fun _ _ => ⟨hput.1, fun r _ => ⟨hput.2 r, fun _ => hput.2 r⟩⟩⟩

/-- What is made of an attempt whose course is over: it is brought to an end, and one that has become a
success is read back. -/
structure Concludes (D : Discipline σ) (attemptId : Int) (driven opened closed : σ → Prop) : Prop where
  succeed {c : σ} (h : driven c) :
    (Plan.act (.audit (.finishAttempt attemptId .success none))).Keeps D c fun c r =>
      match r with
      | .ok _ => closed c
      | .error _ => opened c
  fail {c : σ} (h : opened c) (message : String) :
    (Plan.act (.audit (.finishAttempt attemptId .failed (some message)))).Keeps D c fun c _ => closed c
  read {c : σ} (h : closed c) :
    (Plan.act (.audit (.getAttempt attemptId))).Keeps D c fun c _ => closed c

omit hD in
/-- An attempt is brought to an end, unless it waits for ever. -/
theorem record_keeps (hphase : D.Unphased) {driven opened closed : σ → Prop}
    (h : Concludes D attemptId driven opened closed)
    (hdrive : (drive p attemptId height).Keeps D c (fun c _ => driven c) fun c _ => opened c) :
    (record p attemptId height).Keeps D c (fun c _ => closed c)
      fun c s => closed c ∨ s = .hung ∧ opened c := by
  have hfail : ∀ {c} (e : Error), opened c → Keeps D (do
      Job.act (.phase .failed)
      let _ ← Job.act (.audit (.finishAttempt attemptId .failed (some e.message)))
      Job.fail e : Job Audit.Attempt) c (fun c _ => closed c)
      fun c s => closed c ∨ s = .hung ∧ opened c := by
    intro c e hopened
    obtain ⟨hallows, hclosed⟩ := h.fail hopened e.message
    refine (keeps_bind _ _).2 ((keeps_act _).2 ⟨(hphase c _).1, fun r _ => ?_⟩)
    rw [(hphase c _).2 r]
    exact (keeps_bind _ _).2 ((keeps_act _).2 ⟨hallows, fun r hr => Or.inl (hclosed r hr)⟩)
  simp only [record, keeps_bind, keeps_outcome, keeps_audit, keeps_act]
  refine hdrive.mono (fun c _ hdriven => ?_) fun c s hopened => ?_
  · obtain ⟨hallows, hends⟩ := h.succeed hdriven
    refine ⟨hallows, fun done hdone => ?_, fun e he => hfail e (hends _ he)⟩
    refine ⟨(hphase _ _).1, fun r _ => ?_⟩
    rw [(hphase _ _).2 r]
    obtain ⟨hreads, hread⟩ := h.read (hends _ hdone)
    refine ⟨hreads, fun found hfound => ?_, fun e he => Or.inl (hread _ he)⟩
    cases found with
    | none => exact Or.inl (hread _ hfound)
    | some a => exact hread _ hfound
  · cases s with
    | failed e => exact hfail e hopened
    | hung => exact Or.inr ⟨trivial, hopened⟩

end Capture

end Calls

namespace Capture

def loneNode : Node where
  index := 0
  target := { name := "geth-1", host := "", user := "", dataDir := "/data", uploadPrefix := "p" }
  rclone := { commandTemplate := "" }
  bucketName := "bucket"

def lonePlant : Plant := { fleet := [loneNode], dryRun := false, rootPrefix := "" }

def loneHost (reply : String) : Deployment where
  hosts := [{ answer := fun _ _ => .output reply }]
  store := { clock := fun _ => default }
  gate := { blockInterval := 1000 }
  refusesPut := true

end Capture

end FleetSnapshot
