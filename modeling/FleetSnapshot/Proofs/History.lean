import FleetSnapshot.Proofs.Claim
import FleetSnapshot.Proofs.Commands
import FleetSnapshot.Proofs.Directory
import FleetSnapshot.Proofs.Register

/-! What a deployment has been through: attempts at any heights, cleanups and protections in any
order, with any replies and any refusals. The records of the fleet stay in order throughout. -/

namespace FleetSnapshot

open Audit

/-- The nodes have prefixes of their own, and none goes on from another. -/
structure Separate (fleet : List Node) : Prop where
  distinct : (fleet.map (·.target.uploadPrefix)).Nodup
  apart : ∀ n ∈ fleet, ∀ m ∈ fleet, ¬ Bucket.Extends n.target.uploadPrefix m.target.uploadPrefix

/-- Between one step and the next, everything but the records may have become another. -/
inductive Reached (fleet : List Node) : Deployment → Prop where
  | fresh {d : Deployment} (tables : d.store.tables = {}) (triggers : d.store.triggers = [])
      (alone : d.meanwhile = []) : Reached fleet d
  | attempt {d : Deployment} (h : Reached fleet d) (p : Capture.Plant) (hp : p.fleet = fleet)
      (height : UInt64) : Reached fleet ((Capture.run p height).perform d).2
  | cleanup {d : Deployment} (h : Reached fleet d) (b : Sweep.Broom) (keep : Nat) :
      Reached fleet ((Sweep.cycle b keep).perform d).2
  | persistAttempt {d : Deployment} (h : Reached fleet d) (id : Int) (value : Bool) :
      Reached fleet (d.perform (.audit (.persistAttempt id value))).2
  | persistUpload {d : Deployment} (h : Reached fleet d) (id : Int) (value : Bool) :
      Reached fleet (d.perform (.audit (.persistUpload id value))).2
  | elsewhere {d d' : Deployment} (h : Reached fleet d) (tables : d'.store.tables = d.store.tables)
      (triggers : d'.store.triggers = []) (alone : d'.meanwhile = []) : Reached fleet d'

section Attempt

open Job Capture

variable {fleet : List Node}

theorem posts_unmoved (fleet : List Node) : (posts fleet).Unmoved :=
  fun _ _ _ => ⟨trivial, fun _ => rfl⟩

theorem posts_unphased (fleet : List Node) : (posts fleet).Unphased :=
  fun _ _ => ⟨trivial, fun _ => rfl⟩

theorem uploadEnd_stays (c : Option Posting) (n : Node) (id : Int) (outcome : Except Error Unit) :
    Stays (posts fleet) c (uploadEnd n id outcome) := by
  refine (keeps_bind _ _).2 ((keeps_act _).2 ⟨trivial, fun _ _ => ?_⟩)
  cases outcome <;> rfl

/-- Whatever becomes of it, the upload of a node takes its place. -/
theorem uploadOne_posts {n : Node} (hn : n ∈ fleet) {p : Posting}
    (hnew : uploadPrefix n p.height ∉ p.taken) (dryRun : Bool) :
    (uploadOne dryRun p.attempt p.height n).Keeps (posts fleet) (some p)
      (fun c _ => c = some { p with taken := uploadPrefix n p.height :: p.taken })
      fun c _ => c = some { p with taken := uploadPrefix n p.height :: p.taken } := by
  rw [uploadOne_eq, keeps_bind, keeps_act]
  refine ⟨⟨p, rfl, rfl, hnew, n, hn, rfl⟩, fun r _ => ?_⟩
  rcases r with e | record
  · rfl
  · cases dryRun with
    | true => exact uploadEnd_stays _ n record.id (.ok ())
    | false =>
      exact stays_bind (stays_outcome (n.upload_stays (posts_unmoved fleet) _ _ _ _))
        fun outcome => uploadEnd_stays _ n _ outcome

/-- The uploads of these nodes are still to come, and their places are not taken. -/
def Due (fleet : List Node) (attemptId : Int) (height : UInt64) (todo : List Node)
    (c : Option Posting) : Prop :=
  ∃ taken, c = some ⟨attemptId, height, taken⟩ ∧ (todo.map (·.target.uploadPrefix)).Nodup ∧
    ∀ n ∈ todo, n ∈ fleet ∧ uploadPrefix n height ∉ taken

theorem uploadPrefix_inj {n m : Node} {height : UInt64}
    (h : uploadPrefix n height = uploadPrefix m height) :
    n.target.uploadPrefix = m.target.uploadPrefix := by
  have hlist := congrArg String.toList h
  rw [uploadPrefix_toList, uploadPrefix_toList] at hlist
  exact String.toList_inj.1 (List.append_cancel_right hlist)

theorem uploadAll_posts {p : Plant} (hp : p.fleet = fleet) (hfleet : Separate fleet)
    (attemptId : Int) (height : UInt64) :
    (uploadAll p attemptId height).Keeps (posts fleet) (some { attempt := attemptId, height })
      (fun _ _ => True) fun _ _ => True := by
  have hstep : ∀ n todo c, Due fleet attemptId height (n :: todo) c →
      (uploadOne p.dryRun attemptId height n).Keeps (posts fleet) c
        (fun c _ => Due fleet attemptId height todo c)
        fun c _ => True ∧ Due fleet attemptId height todo c := by
    rintro n todo c ⟨taken, rfl, hdistinct, hdue⟩
    rw [List.map_cons, List.nodup_cons] at hdistinct
    obtain ⟨hn, hnew⟩ := hdue n List.mem_cons_self
    have hnext : Due fleet attemptId height todo
        (some ⟨attemptId, height, uploadPrefix n height :: taken⟩) := by
      refine ⟨_, rfl, hdistinct.2, fun m hm => ?_⟩
      obtain ⟨hmem, hfree⟩ := hdue m (List.mem_cons_of_mem _ hm)
      refine ⟨hmem, fun htaken => ?_⟩
      rcases List.mem_cons.1 htaken with heq | htaken
      · exact hdistinct.1 (uploadPrefix_inj heq ▸ List.mem_map_of_mem hm)
      · exact hfree htaken
    refine (uploadOne_posts (p := ⟨attemptId, height, taken⟩) hn hnew p.dryRun).mono
      (fun c _ hc => ?_) fun c _ hc => ⟨trivial, ?_⟩
    · exact hc ▸ hnext
    · exact hc ▸ hnext
  have hstart : Due fleet attemptId height p.fleet (some { attempt := attemptId, height }) := by
    refine ⟨[], rfl, hp ▸ hfleet.distinct, fun n hn => ⟨hp ▸ hn, List.not_mem_nil⟩⟩
  rw [uploadAll, keeps_bind]
  exact (keeps_all (Due fleet attemptId height) (fun _ => True) hstep p.fleet hstart).mono
    (fun _ _ _ => trivial) fun _ _ _ => trivial

theorem drive_posts {p : Plant} (hp : p.fleet = fleet) (hfleet : Separate fleet)
    (attemptId : Int) (height : UInt64) :
    (drive p attemptId height).Keeps (posts fleet) (some { attempt := attemptId, height })
      (fun _ _ => True) fun _ _ => True := by
  refine drive_keeps (posts_unmoved fleet) (posts_unphased fleet) trivial ?_
  refine (uploadAll_posts hp hfleet attemptId height).mono (fun c failed _ => ?_) fun _ _ h => h
  exact ⟨trivial, fun _ _ => trivial, fun _ _ => ⟨trivial, fun _ _ => ⟨trivial, fun _ => trivial⟩⟩⟩

theorem record_posts {p : Plant} (hp : p.fleet = fleet) (hfleet : Separate fleet)
    (attemptId : Int) (height : UInt64) :
    (record p attemptId height).Keeps (posts fleet) (some { attempt := attemptId, height })
      (fun _ _ => True) fun _ _ => True := by
  have hconcludes : Concludes (posts fleet) attemptId (fun _ => True) (fun _ => True) fun _ => True :=
    ⟨fun _ => ⟨trivial, fun r _ => by cases r <;> trivial⟩, fun _ _ => ⟨trivial, fun _ _ => trivial⟩,
      fun _ => ⟨trivial, fun _ _ => trivial⟩⟩
  exact (record_keeps (posts_unphased fleet) hconcludes (drive_posts hp hfleet attemptId height)).mono
    (fun _ _ _ => trivial) fun _ _ _ => trivial

theorem run_posts {p : Plant} (hp : p.fleet = fleet) (hfleet : Separate fleet) (height : UInt64) :
    (run p height).Keeps (posts fleet) none (fun _ _ => True) fun _ _ => True := by
  simp only [run, keeps_bind, keeps_act]
  refine ⟨trivial, fun r _ => ?_⟩
  cases r with
  | error e => trivial
  | ok _ =>
    refine leaving_keeps ?_
    simp only [keeps_bind, keeps_audit]
    refine ⟨rfl, fun a _ => ?_, fun _ _ => ⟨trivial, trivial⟩⟩
    refine (record_posts hp hfleet a.id height).mono (fun _ _ _ => ?_) fun _ _ _ => ?_
    · exact ⟨trivial, trivial⟩
    · exact ⟨trivial, trivial⟩

end Attempt

/-- A cleanup adds no row. -/
theorem claims_adds {β : Type} {act : Act β} {c : Option Int} (h : Sweep.claims.allows c act) :
    ¬ act.Adds := by
  cases act with
  | audit op =>
    cases op with
    | createAttempt height dryRun => exact absurd h id
    | createUpload attemptId target pre dryRun => exact absurd h id
    | _ => exact id
  | _ => exact id

theorem cleanup_kept {fleet : List Node} {d : Deployment}
    (h : Kept fleet d.store ∧ d.meanwhile = []) (b : Sweep.Broom) (keep : Nat) :
    Kept fleet ((Sweep.cycle b keep).perform d).2.store ∧
      ((Sweep.cycle b keep).perform d).2.meanwhile = [] := by
  have step : ∀ {β : Type} (act : Act β) (c : Option Int) (d : Deployment),
      Sweep.claims.allows c act → Kept fleet d.store ∧ d.meanwhile = [] →
      Sweep.claims.expects c act (d.perform act).1 ∧
        (Kept fleet (d.perform act).2.store ∧ (d.perform act).2.meanwhile = []) := by
    rintro β act c d hallows ⟨hkept, halone⟩
    obtain ⟨hcalm, ht⟩ := d.perform_touches act halone (claims_adds hallows)
    exact ⟨trivial, hkept.touches ht, hcalm⟩
  obtain ⟨-, hkept, -⟩ := Plan.run_maintains (I := fun _ d => Kept fleet d.store ∧ d.meanwhile = [])
    step _ (Sweep.cycle_keeps b keep) h
  exact hkept

theorem kept_fresh {fleet : List Node} {s : Store} (ht : s.tables = {}) (h : s.triggers = []) :
    Kept fleet s := by
  have huploads : s.uploads = [] := by rw [Store.uploads, ht, Option.getD_some]
  exact (Filed.fresh ht h).kept (by simp [huploads]) (by simp [huploads])

/-- The records are in order at any time. -/
theorem Reached.kept {fleet : List Node} (hfleet : Separate fleet) {d : Deployment}
    (h : Reached fleet d) : Kept fleet d.store ∧ d.meanwhile = [] := by
  induction h with
  | fresh tables triggers alone => exact ⟨kept_fresh tables triggers, alone⟩
  | attempt _ p hp height ih =>
    have hstart : Posted fleet none _ := ⟨ih.1, ih.2, nofun, nofun⟩
    exact hstart.run (run_posts hp hfleet height)
  | cleanup _ b keep ih => exact cleanup_kept ih b keep
  | @persistAttempt d _ id value ih =>
    obtain ⟨hcalm, ht⟩ := d.perform_touches (.audit (.persistAttempt id value)) ih.2 fun h => h
    exact ⟨ih.1.touches ht, hcalm⟩
  | @persistUpload d _ id value ih =>
    obtain ⟨hcalm, ht⟩ := d.perform_touches (.audit (.persistUpload id value)) ih.2 fun h => h
    exact ⟨ih.1.touches ht, hcalm⟩
  | elsewhere _ tables triggers alone ih =>
    refine ⟨ih.1.touches (Touches.of_same tables ?_), alone⟩
    rw [triggers, ih.1.triggers]

end FleetSnapshot
