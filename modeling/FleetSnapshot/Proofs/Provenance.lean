import FleetSnapshot.Proofs.Commands
import FleetSnapshot.Proofs.Heights
import Mathlib.Data.List.Forall2

/-! Whose upload a row is about. While an attempt is carried out, it is followed which node of the
fleet has its turn, whatever the rows say. In the end the rows say the same: each has the alias of
its node just as the configuration has it, and each node has the rows that its own turns have made. -/

namespace FleetSnapshot

open Audit
open Audit.Query (Alike)

namespace Plan

variable {σ α : Type} {D : Discipline σ}

def trail (D : Discipline σ) : Plan α → σ → Deployment → σ
  | .done _, c, _ => c
  | .step act next, c, d =>
    (next (d.perform act).1).trail D (D.after c act (d.perform act).1) (d.perform act).2

theorem trail_maintains {I : σ → Deployment → Prop}
    (step : ∀ {β : Type} (act : Act β) (c : σ) (d : Deployment), D.allows c act → I c d →
      D.expects c act (d.perform act).1 ∧ I (D.after c act (d.perform act).1) (d.perform act).2)
    (p : Plan α) {c : σ} {d : Deployment} {post : σ → α → Prop} (hp : p.Keeps D c post)
    (hI : I c d) : I (p.trail D c d) (p.run d).2 := by
  induction p generalizing c d with
  | done a => exact hI
  | step act next ih =>
    obtain ⟨hexpects, hnext⟩ := step act c d hp.1 hI
    exact ih _ (hp.2 _ hexpects) hnext

end Plan

/-- How many nodes have had their turn in an attempt, and the rows that all turns up to now have made,
each with the place of its node in the fleet. -/
structure Ascription where
  turn : Nat := 0
  made : List (Nat × Int) := []

/-- The nodes have their turns in the order of the fleet, each under its own alias. -/
def ascribes (fleet : List Node) : Discipline Ascription where
  allows c act := match act with
    | .audit (.createUpload _ target _ _) => ∃ n, fleet[c.turn]? = some n ∧ target = n.target.name
    | _ => True
  after c act := match act with
    | .audit (.createUpload _ _ _ _) => fun
      | .ok u => { turn := c.turn + 1, made := c.made ++ [(c.turn, u.id)] }
      | .error _ => { c with turn := c.turn + 1 }
    | _ => fun _ => c

section Turns

open Job Capture

variable {fleet : List Node}

theorem ascribes_unmoved (fleet : List Node) : (ascribes fleet).Unmoved :=
  fun _ _ _ => ⟨trivial, fun _ => rfl⟩

theorem ascribes_unphased (fleet : List Node) : (ascribes fleet).Unphased :=
  fun _ _ => ⟨trivial, fun _ => rfl⟩

theorem uploadEnd_ascribes (c : Ascription) (n : Node) (id : Int) (outcome : Except Error Unit) :
    Stays (ascribes fleet) c (uploadEnd n id outcome) := by
  refine (keeps_bind _ _).2 ((keeps_act _).2 ⟨trivial, fun _ _ => ?_⟩)
  cases outcome <;> rfl

/-- Whatever becomes of its upload, the node has had its turn. -/
theorem uploadOne_ascribes {c : Ascription} {n : Node} (hn : fleet[c.turn]? = some n)
    (dryRun : Bool) (attemptId : Int) (height : UInt64) :
    (uploadOne dryRun attemptId height n).Keeps (ascribes fleet) c
      (fun c' _ => c'.turn = c.turn + 1) fun c' _ => c'.turn = c.turn + 1 := by
  rw [uploadOne_eq, keeps_bind, keeps_act]
  refine ⟨⟨n, hn, rfl⟩, fun r _ => ?_⟩
  rcases r with e | record
  · rfl
  · have hstays : Stays (ascribes fleet)
        { turn := c.turn + 1, made := c.made ++ [(c.turn, record.id)] }
        (if dryRun then uploadEnd n record.id (.ok ())
          else (n.upload n.target.dataDir n.target.uploadPrefix height).outcome >>=
            uploadEnd n record.id) := by
      cases dryRun with
      | true => exact uploadEnd_ascribes _ n record.id (.ok ())
      | false =>
        exact stays_bind (stays_outcome (n.upload_stays (ascribes_unmoved fleet) _ _ _ _))
          fun outcome => uploadEnd_ascribes _ n _ outcome
    exact hstays.keeps (fun _ => rfl) fun _ => rfl

theorem uploadAll_ascribes {p : Plant} (hp : p.fleet = fleet) (attemptId : Int) (height : UInt64)
    {c : Ascription} (hc : c.turn = 0) :
    (uploadAll p attemptId height).Keeps (ascribes fleet) c (fun _ _ => True) fun _ _ => True := by
  have hstep : ∀ n todo (c : Ascription), fleet.drop c.turn = n :: todo →
      (uploadOne p.dryRun attemptId height n).Keeps (ascribes fleet) c
        (fun c _ => fleet.drop c.turn = todo) fun c _ => True ∧ fleet.drop c.turn = todo := by
    intro n todo c hdue
    have hn : fleet[c.turn]? = some n := by
      rw [← Nat.add_zero c.turn, ← List.getElem?_drop, hdue, List.getElem?_cons_zero]
    have hnext : ∀ c' : Ascription, c'.turn = c.turn + 1 → fleet.drop c'.turn = todo := by
      intro c' hturn
      rw [hturn, ← List.drop_drop, hdue, List.drop_one, List.tail_cons]
    exact (uploadOne_ascribes hn p.dryRun attemptId height).mono (fun c' _ => hnext c')
      fun c' _ h => ⟨trivial, hnext c' h⟩
  rw [uploadAll, keeps_bind]
  refine (keeps_all (fun todo c => fleet.drop c.turn = todo) (fun _ => True) hstep p.fleet ?_).mono
    (fun _ _ _ => trivial) fun _ _ _ => trivial
  rw [hc, hp, List.drop_zero]

theorem run_ascribes {p : Plant} (hp : p.fleet = fleet) (height : UInt64) {c : Ascription}
    (hc : c.turn = 0) :
    (run p height).Keeps (ascribes fleet) c (fun _ _ => True) fun _ _ => True := by
  have hconcludes : ∀ attemptId, Concludes (ascribes fleet) attemptId (fun _ => True)
      (fun _ => True) fun _ => True := fun _ =>
    ⟨fun _ => ⟨trivial, fun r _ => by cases r <;> trivial⟩, fun _ _ => ⟨trivial, fun _ _ => trivial⟩,
      fun _ => ⟨trivial, fun _ _ => trivial⟩⟩
  have hdrive : ∀ attemptId, (drive p attemptId height).Keeps (ascribes fleet) c
      (fun _ _ => True) fun _ _ => True := fun attemptId => by
    refine drive_keeps (ascribes_unmoved fleet) (ascribes_unphased fleet) trivial ?_
    refine (uploadAll_ascribes hp attemptId height hc).mono (fun c failed _ => ?_) fun _ _ h => h
    exact ⟨trivial, fun _ _ => trivial, fun _ _ => ⟨trivial, fun _ _ => ⟨trivial, fun _ => trivial⟩⟩⟩
  simp only [run, keeps_bind, keeps_act]
  refine ⟨trivial, fun r _ => ?_⟩
  cases r with
  | error e => trivial
  | ok _ =>
    refine leaving_keeps ?_
    simp only [keeps_bind, keeps_audit]
    refine ⟨trivial, fun a _ => ?_, fun _ _ => ⟨trivial, trivial⟩⟩
    exact (record_keeps (ascribes_unphased fleet) (hconcludes a.id) (hdrive a.id)).mono
      (fun _ _ _ => ⟨trivial, trivial⟩) fun _ _ _ => ⟨trivial, trivial⟩

end Turns

structure OfPlace (fleet : List Node) (r : UploadRow) (m : Nat × Int) : Prop where
  id : m.2 = r.id
  name : (fleet[m.1]?).map (·.target.name) = some r.target

/-- The rows on record are those that the turns have made, one by one. -/
structure Ascribed (fleet : List Node) (made : List (Nat × Int)) (d : Deployment) : Prop where
  told : d.store.Told
  alone : d.meanwhile = []
  rows : List.Forall₂ (OfPlace fleet) d.store.uploads made

/-- Acts that add no row leave each where it was, and readable. -/
theorem Deployment.perform_alters {β : Type} (act : Act β) (d : Deployment) (htold : d.store.Told)
    (halone : d.meanwhile = []) (hadds : ¬ act.Adds) :
    (d.perform act).2.store.Told ∧ Alters Standing.telling d.store (d.perform act).2.store := by
  have same : ∀ {d' : Deployment}, Alike d.store d'.store → d'.store.clock = d.store.clock →
      d'.store.Told ∧ Alters Standing.telling d.store d'.store := by
    intro d' hs hclock
    have halters : Alters Standing.telling d.store d'.store := .of_alike hs
    exact ⟨htold.alters (htold.filed.touches (.of_alike hs)) hclock halters, halters⟩
  cases act with
  | audit op => exact ⟨htold.op op, op.alters hadds (op.ends_of fun _ => htold.telling _)⟩
  | command node text =>
    refine same ⟨?_, ?_⟩ ?_ <;> simp only [perform, command] <;> split <;> rfl
  | put key text =>
    refine same ⟨?_, ?_⟩ ?_ <;> simp only [perform, put] <;> split <;> rfl
  | openRemoval upload pre =>
    refine same ⟨?_, ?_⟩ ?_ <;> simp only [perform, openRemoval, note, halone, takeEntry]
  | closeRemoval upload pre =>
    refine same ⟨?_, ?_⟩ ?_ <;> simp only [perform, closeRemoval] <;> split <;> rfl
  | enter =>
    refine same ⟨?_, ?_⟩ ?_ <;> simp only [perform, enter] <;> split <;> rfl
  | leave => exact same ⟨rfl, rfl⟩ rfl
  | phase p => exact same ⟨rfl, rfl⟩ rfl
  | agreed height next => exact same ⟨rfl, rfl⟩ rfl

namespace Ascribed

variable {fleet : List Node} {made : List (Nat × Int)} {d d' : Deployment}

theorem alters (h : Ascribed fleet made d) (htold : d'.store.Told) (halone : d'.meanwhile = [])
    (ha : Alters Standing.telling d.store d'.store) : Ascribed fleet made d' := by
  obtain ⟨f, hf, huploads⟩ := ha.uploads
  refine ⟨htold, halone, ?_⟩
  rw [huploads, List.forall₂_map_left_iff]
  refine h.rows.imp fun r m hm => ⟨hm.id.trans ?_, hm.name.trans ?_⟩
  · exact (congrArg (·.1) (hf r).fixed).symm
  · exact congrArg some (congrArg (·.2.2.1) (hf r).fixed).symm

theorem act (h : Ascribed fleet made d) {β : Type} (act : Act β) (hadds : ¬ act.Adds) :
    Ascribed fleet made (d.perform act).2 := by
  obtain ⟨htold, halters⟩ := d.perform_alters act h.told h.alone hadds
  exact h.alters htold (d.perform_alone act h.alone) halters

theorem createAttempt (h : Ascribed fleet made d) (height : UInt64) (dryRun : Bool) :
    Ascribed fleet made (d.perform (.audit (.createAttempt height dryRun))).2 := by
  have hrows : (Audit.createAttempt height dryRun d.store).2.uploads = d.store.uploads := by
    rcases createAttempt_cases h.told.filed.plain.triggers height dryRun with ⟨e, -, hs⟩ | ⟨a, -, hs⟩
    · exact hs.uploads
    · rw [hs]
      rfl
  exact ⟨h.told.op (.createAttempt height dryRun), h.alone, hrows.symm ▸ h.rows⟩

theorem createUpload {c : Ascription} (h : Ascribed fleet c.made d) {n : Node}
    (hn : fleet[c.turn]? = some n) (attemptId : Int) (pre : String) (dryRun : Bool) :
    Ascribed fleet
      ((ascribes fleet).after c (.audit (.createUpload attemptId n.target.name pre dryRun))
        (d.perform (.audit (.createUpload attemptId n.target.name pre dryRun))).1).made
      (d.perform (.audit (.createUpload attemptId n.target.name pre dryRun))).2 := by
  have hrun : d.perform (.audit (.createUpload attemptId n.target.name pre dryRun)) =
      ((Audit.createUpload attemptId n.target.name pre dryRun d.store).1,
        { d with store := (Audit.createUpload attemptId n.target.name pre dryRun d.store).2 }) := rfl
  have htold := h.told.op (.createUpload attemptId n.target.name pre dryRun)
  change (Audit.createUpload attemptId n.target.name pre dryRun d.store).2.Told at htold
  rw [hrun]
  rcases createUpload_cases h.told.filed.plain.triggers attemptId n.target.name pre dryRun with
    ⟨e, he, hs⟩ | ⟨u, hid, -, hs⟩
  · rw [he]
    exact ⟨htold, h.alone, hs.uploads.symm ▸ h.rows⟩
  · rw [hs] at htold ⊢
    refine ⟨htold, h.alone, List.rel_append h.rows (.cons ⟨hid, ?_⟩ .nil)⟩
    rw [hn]
    rfl

theorem perform {c : Ascription} (h : Ascribed fleet c.made d) {β : Type} (act : Act β)
    (hallows : (ascribes fleet).allows c act) :
    Ascribed fleet ((ascribes fleet).after c act (d.perform act).1).made (d.perform act).2 := by
  cases act with
  | audit op =>
    cases op with
    | createAttempt height dryRun => exact h.createAttempt height dryRun
    | createUpload attemptId target pre dryRun =>
      obtain ⟨n, hn, rfl⟩ := hallows
      exact h.createUpload hn attemptId pre dryRun
    | _ => exact h.act _ id
  | _ => exact h.act _ id

/-- Every row that has been made is told apart by its number, so it has the alias of the place that
it was made at. -/
theorem mem_made_iff (h : Ascribed fleet made d) (hnames : (fleet.map (·.target.name)).Nodup) {k : Nat}
    {n : Node} (hn : fleet[k]? = some n) {r : UploadRow} (hr : r ∈ d.store.uploads) :
    (k, r.id) ∈ made ↔ r.target = n.target.name := by
  constructor
  · intro hmade
    obtain ⟨r', hr', hplace⟩ := source_of_mem h.rows hmade
    have hsame : r' = r :=
      List.inj_on_of_nodup_map h.told.filed.numbered.uploads hr' hr hplace.id.symm
    have hname := hplace.name
    rw [hn, hsame] at hname
    exact (Option.some.inj hname).symm
  · intro htarget
    obtain ⟨⟨k', id⟩, hmade, hid, hname⟩ := image_of_mem h.rows hr
    obtain ⟨n', hn', hname⟩ := Option.map_eq_some_iff.1 hname
    have hk : (fleet.map (·.target.name))[k]? = some n.target.name := by
      rw [List.getElem?_map, hn, Option.map_some]
    have hk' : (fleet.map (·.target.name))[k']? = some n.target.name := by
      rw [List.getElem?_map, hn', Option.map_some, hname, htarget]
    have hlt := (List.getElem?_eq_some_iff.1 hk).1
    obtain rfl : k = k' := (List.getElem?_inj hlt hnames).1 (hk.trans hk'.symm)
    exact hid ▸ hmade

end Ascribed

/-- What a deployment of a fleet has been through, and the rows that have come of it, each with the
place of its node. Between one step and the next, everything but the records may have become
another. -/
inductive Past (fleet : List Node) : Deployment → List (Nat × Int) → Prop where
  | fresh {d : Deployment} (tables : d.store.tables = {}) (triggers : d.store.triggers = [])
      (telling : d.store.Telling) (alone : d.meanwhile = []) : Past fleet d []
  | attempt {d : Deployment} {made : List (Nat × Int)} (h : Past fleet d made) (p : Capture.Plant)
      (hp : p.fleet = fleet) (height : UInt64) :
      Past fleet ((Capture.run p height).perform d).2
        ((Capture.run p height).run.trail (ascribes fleet) { made } d).made
  | act {d : Deployment} {made : List (Nat × Int)} (h : Past fleet d made) {β : Type} (act : Act β)
      (hadds : ¬ act.Adds) : Past fleet (d.perform act).2 made
  | elsewhere {d d' : Deployment} {made : List (Nat × Int)} (h : Past fleet d made)
      (tables : d'.store.tables = d.store.tables) (triggers : d'.store.triggers = [])
      (telling : d'.store.Telling) (alone : d'.meanwhile = []) : Past fleet d' made

/-- At any time the rows are about the nodes that they have come of. -/
theorem Past.ascribed {fleet : List Node} {d : Deployment} {made : List (Nat × Int)}
    (h : Past fleet d made) : Ascribed fleet made d := by
  induction h with
  | @fresh d tables triggers telling alone =>
    have huploads : d.store.uploads = [] := by rw [Store.uploads, tables, Option.getD_some]
    exact ⟨.fresh tables triggers telling, alone, huploads ▸ .nil⟩
  | @attempt d made _ p hp height ih =>
    exact Plan.trail_maintains (I := fun c d => Ascribed fleet c.made d)
      (fun act c d hallows hc => ⟨trivial, hc.perform act hallows⟩) _
      (run_ascribes (c := { made }) hp height rfl) ih
  | act _ act hadds ih => exact ih.act act hadds
  | @elsewhere d d' made _ tables triggers telling alone ih =>
    have hs : Alike d.store d'.store :=
      ⟨tables, triggers.trans ih.told.filed.plain.triggers.symm⟩
    exact ⟨⟨ih.told.filed.touches (.of_alike hs), telling, hs.attempts ▸ ih.told.attempts,
      hs.uploads ▸ ih.told.uploads⟩, alone, hs.uploads.symm ▸ ih.rows⟩

end FleetSnapshot
