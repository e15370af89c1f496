import FleetSnapshot.Audit.Record
import FleetSnapshot.Doc.Record
import FleetSnapshot.Instant.Parse
/-!
Records as documents, written and read.
-/

namespace FleetSnapshot.Audit

open Doc

def optional {α : Type} (write : α → Doc) (value : Option α) : Doc := value.elim .null write

def timeDoc (t : Instant) : Doc := .text t.toText

def Upload.toDoc (u : Upload) : Doc :=
  .table [
    ("id", .int u.id), ("attemptId", .int u.attemptId), ("alias", .text u.target),
    ("uploadPrefix", .text u.uploadPrefix), ("startTime", timeDoc u.startTime),
    ("endTime", optional timeDoc u.endTime), ("status", .text u.status.text),
    ("errorMessage", optional .text u.errorMessage), ("dryRun", .bool u.dryRun),
    ("deleted", .bool u.deleted), ("persisted", .bool u.persisted)]

def Attempt.toDoc (a : Attempt) : Doc :=
  .table [
    ("id", .int a.id), ("blockHeight", .int a.height.toNat), ("startTime", timeDoc a.startTime),
    ("endTime", optional timeDoc a.endTime), ("status", .text a.status.text),
    ("errorMessage", optional .text a.errorMessage), ("dryRun", .bool a.dryRun),
    ("deleted", .bool a.deleted), ("persisted", .bool a.persisted),
    ("targets", .list (a.uploads.map Upload.toDoc))]

/-- A status stands as its name, or as the only name of a table with null under it. -/
def Progress.ofDoc : Doc → Option Progress
  | .text s => ofText? s
  | .table [(s, .null)] => ofText? s
  | _ => none

def instant? (d : Doc) : Option Instant := d.text?.bind Instant.ofText?

def Upload.ofDoc (d : Doc) : Option Upload := do
  let f ← d.record? ["id", "attemptId", "alias", "uploadPrefix", "startTime", "endTime", "status",
    "errorMessage", "dryRun", "deleted", "persisted"]
  return {
    id := ← (f "id").required signed?
    attemptId := ← (f "attemptId").required signed?
    target := ← (f "alias").required text?
    uploadPrefix := ← (f "uploadPrefix").required text?
    startTime := ← (f "startTime").required instant?
    endTime := ← (f "endTime").optional instant?
    status := ← (f "status").required Progress.ofDoc
    errorMessage := ← (f "errorMessage").optional text?
    dryRun := ← (f "dryRun").required bool?
    deleted := ← (f "deleted").required bool?
    persisted := ← (f "persisted").required bool? }

def Attempt.ofDoc (d : Doc) : Option Attempt := do
  let f ← d.record? ["id", "blockHeight", "startTime", "endTime", "status", "errorMessage",
    "dryRun", "deleted", "persisted", "targets"]
  return {
    id := ← (f "id").required signed?
    height := ← (f "blockHeight").required word?
    startTime := ← (f "startTime").required instant?
    endTime := ← (f "endTime").optional instant?
    status := ← (f "status").required Progress.ofDoc
    errorMessage := ← (f "errorMessage").optional text?
    dryRun := ← (f "dryRun").required bool?
    deleted := ← (f "deleted").required bool?
    persisted := ← (f "persisted").required bool?
    uploads := ← (f "targets").required fun d => d.list?.bind fun ds => ds.mapM Upload.ofDoc }

end FleetSnapshot.Audit
