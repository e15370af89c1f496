import FleetSnapshot.Proofs.Commands
import FleetSnapshot.Proofs.Cycle
import FleetSnapshot.Proofs.Trace

/-! What a cleanup asks of the bucket. However it goes, it only removes the directories of what it
found listed as surplus; one that nobody disturbs removes all of them, one after the other, and the
bucket then holds what lies in none of those that it does not refuse. The records of two snapshots
stand at the end, for the runs on fixed inputs of later modules. -/

namespace FleetSnapshot

def Event.Removes (u : Audit.Upload) (e : Event) : Prop :=
  match e with
  | .removalOpened id pre | .removalClosed id pre _ => id = u.id ∧ pre = u.uploadPrefix
  | _ => False

namespace Sweep

open Audit Job Bucket

def Only (us : List Upload) (t : Trace) : Prop := ∀ e ∈ t.events, ∃ u ∈ us, e.Removes u

section Only

variable {hosts : Nat} {bad : Event → Prop} {us : List Upload} {t : Trace}

theorem Only.snoc (h : Only us t) {u : Upload} (hu : u ∈ us) {e : Event} (he : e.Removes u) :
    Only us (t.note e) := by
  intro e' he'
  rw [Trace.note_events, List.mem_append, List.mem_singleton] at he'
  rcases he' with he' | rfl
  · exact h e' he'
  · exact ⟨u, hu, he⟩

theorem recorded_overlooks : (recorded hosts bad).Overlooks :=
  ⟨fun _ _ => ⟨trivial, fun _ => rfl⟩, fun _ _ => ⟨trivial, fun _ => rfl⟩,
    fun _ _ => ⟨trivial, fun _ => rfl⟩⟩

theorem removeClaimed_only (h : Only us t) {u : Upload} (hu : u ∈ us) :
    (removeClaimed u).Keeps (recorded hosts bad) t (fun t _ => Only us t) fun t _ => Only us t := by
  simp only [removeClaimed, keeps_bind, keeps_act]
  refine ⟨trivial, fun _ _ => ⟨trivial, fun r _ => ?_⟩⟩
  have hdone : Only us ((t.note (.removalOpened u.id u.uploadPrefix)).note
      (.removalClosed u.id u.uploadPrefix r.isOk)) := by
    refine (h.snoc hu ?_).snoc hu ?_
    · exact ⟨rfl, rfl⟩
    · exact ⟨rfl, rfl⟩
  cases r with
  | ok _ => exact hdone
  | error e => exact ⟨trivial, fun _ _ => hdone⟩

theorem removeUpload_only (b : Broom) {u : Upload} (hu : u ∈ us) :
    Preserves (recorded hosts bad) (Only us) (removeUpload b u) := by
  intro t h
  have unmoved : ∀ {j : Job Removal}, (∀ t, Stays (recorded hosts bad) t j) →
      j.Keeps (recorded hosts bad) t (fun t _ => Only us t) fun t _ => Only us t :=
    fun hj => preserves_of_stays hj t h
  rw [removeUpload_eq]
  split
  · exact unmoved fun _ => stays_fail _
  split
  · exact unmoved fun _ => recheck_stays (recorded_overlooks.getUpload _ _) (stays_pure _)
  · rw [keeps_bind, keeps_audit]
    refine ⟨trivial, fun won _ => ?_, fun _ _ => h⟩
    cases won with
    | true => exact removeClaimed_only h hu
    | false => exact unmoved fun _ => recheck_stays (recorded_overlooks.getUpload _ _) (stays_fail _)

end Only

/-- What a cleanup is to remove. -/
def doomed (keep : Nat) (s : Store) : List Upload := (surplus keep (listed s)).flatMap eligibles

section Cycle

variable {b : Broom} {d : Deployment} {keep : Nat}

/-- However a cleanup goes, it asks for the removal of nothing else. -/
theorem cycle_only (b : Broom) (keep : Nat) (d : Deployment) :
    ∀ e ∈ (cycle b keep).events d, ∃ u ∈ doomed keep d.store, e.Removes u := by
  rw [events, cycle, perform_bind, perform_audit]
  cases hs : (successful d.store).1 with
  | error e =>
    simp only [Op.run, Op.query, hs, Except.mapError, List.drop_length]
    exact fun e he => absurd he List.not_mem_nil
  | ok as =>
    have hlisted : listed d.store = as := by rw [listed, hs]; rfl
    have hdoomed : doomed keep d.store = (surplus keep as).flatMap eligibles := by
      rw [doomed, hlisted]
    simp only [Op.run, Op.query, hs, Except.mapError, hdoomed]
    cases hsur : surplus keep as with
    | nil =>
      simp only [perform_pure, List.drop_length]
      exact fun e he => absurd he List.not_mem_nil
    | cons a as' =>
      let d' := { d with store := (successful d.store).2 }
      have hkeeps : (sweepAll b (a :: as') {} >>= fun rep => pure (some rep)).Keeps
          (recorded d'.hosts.length fun _ => False) ⟨d'.gate.phase, []⟩
          (fun t _ => Only ((a :: as').flatMap eligibles) t)
          fun t _ => Only ((a :: as').flatMap eligibles) t := by
        have hall : Preserves (recorded d'.hosts.length fun _ => False)
            (Only ((a :: as').flatMap eligibles)) (sweepAll b (a :: as') {}) :=
          sweepAll_preserves recorded_overlooks
            (fun a' ha' u hu => removeUpload_only b (List.mem_flatMap.2 ⟨a', ha', hu⟩)) {}
        refine (keeps_bind _ _).2 ((hall _ ?_).mono (fun _ _ ht => ht) fun _ _ ht => ht)
        exact fun e he => absurd he List.not_mem_nil
      rcases events_recorded hkeeps with ⟨e, -, hfalse⟩ | ⟨t, ht, hpost⟩
      · exact absurd hfalse id
      · intro e he
        have hmem : e ∈ t.events := by rw [ht]; exact he
        split at hpost
        · exact hpost e hmem
        · exact hpost e hmem

def removal (d : Deployment) (u : Upload) : List Event :=
  [.removalOpened u.id u.uploadPrefix, .removalClosed u.id u.uploadPrefix (!refuses d u)]

/-- What is left of the bucket without the directories of these uploads, if they are not refused. -/
def spare (d : Deployment) (us : List Upload) : Objects :=
  d.objects.filter fun o => !us.any fun u => !refuses d u && covers u.uploadPrefix o.1

theorem removal_congr {d' : Deployment} (h : refuses d' = refuses d) : removal d' = removal d := by
  funext u
  rw [removal, h, removal]

theorem spare_nil (d : Deployment) : spare d [] = d.objects := List.filter_true _

/-- Removing some directories and then others comes to removing all of them. -/
theorem spare_append {d' : Deployment} {us : List Upload} (h : refuses d' = refuses d)
    (ho : d'.objects = spare d us) (us' : List Upload) : spare d' us' = spare d (us ++ us') := by
  rw [spare, ho, h, spare, spare, List.filter_filter]
  refine List.filter_congr fun o _ => ?_
  rw [List.any_append, Bool.not_or, Bool.and_comm]

theorem withoutUpload_journal (d : Deployment) (u : Upload) :
    (withoutUpload d u).journal = d.journal ++ removal d u := by
  unfold withoutUpload
  split <;> rfl

theorem withoutUpload_objects (d : Deployment) (u : Upload) :
    (withoutUpload d u).objects = spare d [u] := by
  unfold withoutUpload spare
  cases hr : refuses d u with
  | true => simp [hr]
  | false => simp [hr, Objects.remove]

theorem withoutUploads_journal (d : Deployment) (us : List Upload) :
    (withoutUploads d us).journal = d.journal ++ us.flatMap (removal d) := by
  induction us generalizing d with
  | nil => exact (List.append_nil _).symm
  | cons u us ih =>
    have hsame := removal_congr (funext (withoutUpload_refuses d u))
    rw [show withoutUploads d (u :: us) = withoutUploads (withoutUpload d u) us from rfl, ih, hsame,
      withoutUpload_journal, List.flatMap_cons, List.append_assoc]

theorem withoutUploads_objects (d : Deployment) (us : List Upload) :
    (withoutUploads d us).objects = spare d us := by
  induction us generalizing d with
  | nil => exact (spare_nil d).symm
  | cons u us ih =>
    have hsame := funext (withoutUpload_refuses d u)
    exact (ih _).trans (spare_append hsame (withoutUpload_objects d u) us)

theorem withoutAttempt_journal (d : Deployment) (a : Attempt) :
    (withoutAttempt d a).journal = d.journal ++ (eligibles a).flatMap (removal d) := by
  rw [← withoutUploads_journal]
  unfold withoutAttempt
  split <;> rfl

theorem withoutAttempt_objects (d : Deployment) (a : Attempt) :
    (withoutAttempt d a).objects = spare d (eligibles a) := by
  rw [← withoutUploads_objects]
  unfold withoutAttempt
  split <;> rfl

theorem withoutAttempts_journal (d : Deployment) (as : List Attempt) :
    (withoutAttempts d as).journal = d.journal ++ (as.flatMap eligibles).flatMap (removal d) := by
  induction as generalizing d with
  | nil => exact (List.append_nil _).symm
  | cons a as ih =>
    have hsame := removal_congr (funext (withoutAttempt_refuses d a))
    rw [show withoutAttempts d (a :: as) = withoutAttempts (withoutAttempt d a) as from rfl, ih,
      hsame, withoutAttempt_journal, List.flatMap_cons, List.flatMap_append, List.append_assoc]

theorem withoutAttempts_objects (d : Deployment) (as : List Attempt) :
    (withoutAttempts d as).objects = spare d (as.flatMap eligibles) := by
  induction as generalizing d with
  | nil => exact (spare_nil d).symm
  | cons a as ih =>
    have hsame := funext (withoutAttempt_refuses d a)
    exact (ih _).trans (spare_append hsame (withoutAttempt_objects d a) _)

/-- A cleanup that nobody disturbs asks for the removal of all that is surplus. -/
theorem cycle_events (hdry : b.dryRun = false) (hname : b.bucketName.isEmpty = false)
    (h : Calm d) (keep : Nat) :
    (cycle b keep).events d = (doomed keep d.store).flatMap (removal d) := by
  rw [events, cycle_perform hdry hname h]
  dsimp only
  rw [withoutAttempts_journal, List.drop_left, doomed]

theorem cycle_objects (hdry : b.dryRun = false) (hname : b.bucketName.isEmpty = false)
    (h : Calm d) (keep : Nat) :
    ((cycle b keep).perform d).2.objects = spare d (doomed keep d.store) := by
  rw [cycle_perform hdry hname h]
  exact withoutAttempts_objects d _

end Cycle

section Snapshots

open Capture

def snapshotRow (id : Int) (height : UInt64) : AttemptRow where
  id := id
  height := height.toInt64
  startTime := .ofInstant default
  endTime := some (.ofInstant default)
  status := Progress.success.text
  errorMessage := none
  dryRun := false
  deleted := false
  persisted := false

def snapshotUploadRow (id : Int) (height : UInt64) : UploadRow where
  id := id
  attemptId := id
  target := "geth-1"
  uploadPrefix := uploadPrefix loneNode height
  startTime := .ofInstant default
  endTime := some (.ofInstant default)
  status := Progress.success.text
  errorMessage := none
  dryRun := false
  deleted := false
  persisted := false

def twoSnapshots : Store where
  tables := {
    attempts := some [snapshotRow 1 1000, snapshotRow 2 2000]
    uploads := some [snapshotUploadRow 1 1000, snapshotUploadRow 2 2000]
    lastAttempt := 2
    lastUpload := 2 }
  clock := fun _ => default

def keeper : Deployment :=
  { loneHost "" with store := twoSnapshots, objects := [("p/1000/chaindata", "")] }

theorem twoSnapshots_ready : twoSnapshots.Ready := ⟨rfl, rfl, rfl, rfl⟩

end Snapshots

end Sweep

end FleetSnapshot
