import FleetSnapshot.Proofs.Statement

/-! How the operations of the audit store are put together. What holds of the single steps, and is kept
by every way of putting them together, holds of all operations. -/

namespace FleetSnapshot

/-- The errors that the audit store reports: faults of the database, and the refusal to delete what is
protected. -/
def Error.ofAudit : Error → Prop
  | .store _ | .kept _ => True
  | _ => False

namespace Audit.Query

/-- Steps may change the tables, but refusals are taken off the list by statements alone. -/
structure Closed (P : {α : Type} → Query α → Prop) : Prop where
  pure {α : Type} (a : α) : P (pure a : Query α)
  throw {α : Type} (e : Error) (he : e.ofAudit) : P (throw e : Query α)
  get : P (get : Query Store)
  now : P now
  modify (f : Store → Store) (hf : ∀ s, (f s).refusals = s.refusals) : P (modify f)
  bind {α β : Type} {q : Query α} {f : α → Query β} (hq : P q) (hf : ∀ a, P (f a)) : P (q >>= f)
  statement {α : Type} {q : Query α} (hq : P q) : P (statement q)
  transaction {α : Type} {body : Query (Ending α)} (hb : P body) : P (transaction body)

namespace Closed

variable {P : {α : Type} → Query α → Prop} (hP : Closed P) {α β : Type}

include hP

theorem raise (f : StoreFault) : P (raise f : Query α) := hP.throw _ trivial

theorem ofRead (x : Except StoreFault α) : P (ofRead x) := by
  cases x with
  | error f => exact hP.raise f
  | ok a => exact hP.pure a

theorem mapM {f : α → Query β} (hf : ∀ a, P (f a)) (as : List α) :
    P (as.mapM f) := by
  induction as with
  | nil => exact hP.pure []
  | cons a as ih =>
    rw [List.mapM_cons]
    exact hP.bind (hf a) fun b => hP.bind ih fun bs => hP.pure _

theorem attemptRows : P Query.attemptRows := by
  refine hP.bind hP.get fun s => ?_
  split
  · exact hP.pure _
  · exact hP.raise _

theorem uploadRows : P Query.uploadRows := by
  refine hP.bind hP.get fun s => ?_
  split
  · exact hP.pure _
  · exact hP.raise _

theorem selectAttempts : P selectAttempts := hP.statement hP.attemptRows

theorem selectUploads : P selectUploads := hP.statement hP.uploadRows

theorem updateAttempts (columns : List String) (selects : AttemptRow → Bool)
    (change : AttemptRow → AttemptRow) : P (updateAttempts columns selects change) :=
  hP.statement <| hP.bind hP.attemptRows fun _ => hP.bind hP.get fun _ =>
    hP.bind (hP.ofRead _) fun _ => hP.bind (hP.modify _ fun _ => rfl) fun _ => hP.pure _

theorem updateUploads (columns : List String) (selects : UploadRow → Bool)
    (change : UploadRow → UploadRow) : P (updateUploads columns selects change) :=
  hP.statement <| hP.bind hP.uploadRows fun _ => hP.bind hP.get fun _ =>
    hP.bind (hP.ofRead _) fun _ => hP.bind (hP.modify _ fun _ => rfl) fun _ => hP.pure _

theorem insertAttempt (row : AttemptRow) : P (insertAttempt row) := by
  refine hP.statement <| hP.bind hP.attemptRows fun rows =>
    hP.bind hP.get fun s => ?_
  split
  · exact hP.raise _
  · exact hP.bind hP.get fun _ => hP.pure _
  · exact hP.bind hP.get fun _ => hP.bind (hP.modify _ fun _ => rfl) fun _ =>
      hP.bind (hP.modify _ fun _ => rfl) fun _ => hP.pure _

theorem insertUpload (row : UploadRow) : P (insertUpload row) := by
  refine hP.statement <| hP.bind hP.uploadRows fun rows =>
    hP.bind hP.get fun s => ?_
  split
  · refine hP.bind hP.get fun s => ?_
    split
    · exact hP.raise _
    · exact hP.bind hP.get fun _ => hP.pure _
    · refine hP.bind hP.get fun _ => hP.bind (hP.modify _ fun _ => rfl) fun _ => ?_
      split
      · exact hP.bind (hP.modify _ fun _ => rfl) fun _ => hP.bind (hP.modify _ fun _ => rfl) fun _ =>
          hP.pure _
      · exact hP.raise _
  · exact hP.raise _

theorem createAttempt (height : UInt64) (dryRun : Bool) :
    P (createAttempt height dryRun) :=
  hP.bind hP.now fun _ => hP.bind (hP.insertAttempt _) fun _ => hP.pure _

theorem finishAttempt (id : Int) (status : Progress) (message : Option String) :
    P (finishAttempt id status message) :=
  hP.bind hP.now fun _ => hP.bind (hP.updateAttempts _ _ _) fun _ => hP.pure _

theorem createUpload (attemptId : Int) (target uploadPrefix : String) (dryRun : Bool) :
    P (createUpload attemptId target uploadPrefix dryRun) :=
  hP.bind hP.now fun _ => hP.bind (hP.insertUpload _) fun _ => hP.pure _

theorem finishUpload (id : Int) (status : Progress) (message : Option String) :
    P (finishUpload id status message) :=
  hP.bind hP.now fun _ => hP.bind (hP.updateUploads _ _ _) fun _ => hP.pure _

theorem getUpload (id : Int) : P (getUpload id) := by
  refine hP.bind hP.selectUploads fun rows => ?_
  split
  · exact hP.bind (hP.ofRead _) fun _ => hP.pure _
  · exact hP.pure _

theorem uploadsOf (attemptId : Int) : P (uploadsOf attemptId) :=
  hP.bind hP.selectUploads fun _ => hP.ofRead _

theorem attemptWithUploads (r : AttemptRow) : P (attemptWithUploads r) :=
  hP.bind (hP.ofRead _) fun a => hP.bind (hP.uploadsOf a.id) fun _ => hP.pure _

theorem getAttempt (id : Int) : P (getAttempt id) := by
  refine hP.bind hP.selectAttempts fun rows => ?_
  split
  · exact hP.bind (hP.attemptWithUploads _) fun _ => hP.pure _
  · exact hP.pure _

theorem mostRecent : P mostRecent := by
  refine hP.bind hP.selectAttempts fun rows => ?_
  split
  · exact hP.bind (hP.attemptWithUploads _) fun _ => hP.pure _
  · exact hP.pure _

theorem listAttempts (page limit : Nat) (filter : Filter) :
    P (listAttempts page limit filter) :=
  hP.bind hP.selectAttempts fun _ => hP.mapM hP.attemptWithUploads _

theorem uploadsByTarget (target : String) (page limit : Nat) (filter : Filter) :
    P (uploadsByTarget target page limit filter) :=
  hP.bind hP.selectUploads fun _ => hP.ofRead _

theorem successful : P successful :=
  hP.bind hP.selectAttempts fun _ => hP.mapM hP.attemptWithUploads _

theorem claim (id : Int) : P (claim id) :=
  hP.bind (hP.updateUploads _ _ _) fun _ => hP.pure _

theorem release (id : Int) : P (release id) :=
  hP.bind (hP.updateUploads _ _ _) fun _ => hP.pure _

theorem markDeleted (id : Int) : P (markDeleted id) := by
  refine hP.transaction <| hP.bind (hP.updateAttempts _ _ _) fun n => ?_
  split
  · refine hP.bind hP.selectAttempts fun rows => ?_
    split
    · split
      · exact hP.throw _ trivial
      · exact hP.pure _
    · exact hP.pure _
  · exact hP.bind (hP.updateUploads _ _ _) fun _ => hP.pure _

theorem persistAttempt (id : Int) (value : Bool) : P (persistAttempt id value) := by
  refine hP.transaction <| hP.bind (hP.updateAttempts _ _ _) fun n => ?_
  split
  · exact hP.bind hP.selectAttempts fun _ => hP.pure _
  · exact hP.bind (hP.updateUploads _ _ _) fun _ => hP.pure _

theorem persistUpload (id : Int) (value : Bool) : P (persistUpload id value) := by
  refine hP.bind (hP.updateUploads _ _ _) fun n => ?_
  split
  · exact hP.pure _
  · exact hP.bind (hP.getUpload id) fun _ => hP.pure _

theorem op (op : Op α) : P op.query := by
  cases op with
  | createAttempt height dryRun => exact hP.createAttempt height dryRun
  | finishAttempt id status message => exact hP.finishAttempt id status message
  | createUpload attemptId target pre dryRun => exact hP.createUpload attemptId target pre dryRun
  | finishUpload id status message => exact hP.finishUpload id status message
  | getAttempt id => exact hP.getAttempt id
  | getUpload id => exact hP.getUpload id
  | uploadsOf attemptId => exact hP.uploadsOf attemptId
  | mostRecent => exact hP.mostRecent
  | listAttempts page limit filter => exact hP.listAttempts page limit filter
  | uploadsByTarget target page limit filter =>
    exact hP.uploadsByTarget target page limit filter
  | successful => exact hP.successful
  | claim id => exact hP.claim id
  | release id => exact hP.release id
  | markDeleted id => exact hP.markDeleted id
  | persistAttempt id value => exact hP.persistAttempt id value
  | persistUpload id value => exact hP.persistUpload id value

end Closed

end Audit.Query

end FleetSnapshot
