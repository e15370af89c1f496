import FleetSnapshot.Audit.Record
import FleetSnapshot.Error
import FleetSnapshot.Instant.Parse
/-!
The two tables of the audit store, row by row, and the triggers on them. A column of times takes
numbers as well as texts: numbers come before texts, and a text that reads as a number is kept as
one.
-/

namespace FleetSnapshot.Audit

inductive Stamp where
  | number (q : Rat)
  | text (s : String)
  deriving DecidableEq, Repr, Inhabited

namespace Stamp

def isSpace (c : Char) : Bool := c == ' ' || (9 ≤ c.toNat && c.toNat ≤ 13)

def splitExponent? (cs : List Char) : Option (List Char × Int) :=
  match cs.span fun c => c != 'e' && c != 'E' with
  | (m, []) => some (m, 0)
  | (m, _ :: '-' :: ds) => (Text.numeral? 10 ds).map fun n => (m, -(n : Int))
  | (m, _ :: '+' :: ds) => (Text.numeral? 10 ds).map fun n => (m, (n : Int))
  | (m, _ :: ds) => (Text.numeral? 10 ds).map fun n => (m, (n : Int))

/-- The number that a text writes out, with a sign, a point and an exponent if it likes. -/
def numeric? (s : String) : Option Rat := do
  let cs := ((s.toList.dropWhile isSpace).reverse.dropWhile isSpace).reverse
  let (negative, cs) := match cs with
    | '-' :: rest => (true, rest)
    | '+' :: rest => (false, rest)
    | cs => (false, cs)
  let (mantissa, exponent) ← splitExponent? cs
  let (whole, fraction) := (Text.cut? ['.'] mantissa).getD (mantissa, [])
  let n ← Text.numeral? 10 (whole ++ fraction)
  guard (exponent.natAbs ≤ 400)
  let shift := exponent - fraction.length
  let q : Rat := (n : Rat) * (10 : Rat) ^ shift
  return if negative then -q else q

def ofText (s : String) : Stamp := (numeric? s).elim (.text s) .number

def ofInstant (t : Instant) : Stamp := .text t.columnText

def le : Stamp → Stamp → Bool
  | .number p, .number q => decide (p ≤ q)
  | .number _, .text _ => true
  | .text _, .number _ => false
  | .text s, .text t => !decide (t < s)

/-- Whole numbers count seconds, others days. -/
def instant? : Stamp → Option Instant
  | .number q => if q.den = 1 then Instant.ofSeconds? q.num else Instant.ofJulianDay? q
  | .text s => Instant.ofColumnText? s

def shown : Stamp → String
  | .number q => toString q.num
  | .text s => s

def read (column : String) (s : Stamp) : Except StoreFault Instant :=
  match s.instant? with
  | some t => .ok t
  | none => .error (.timeInvalid column s.shown)

end Stamp

structure AttemptRow where
  id : Int
  /-- The block height as a signed word. -/
  height : Int64
  startTime : Stamp
  endTime : Option Stamp
  status : String
  errorMessage : Option String
  dryRun : Bool
  deleted : Bool
  persisted : Bool
  deriving DecidableEq, Repr, Inhabited

structure UploadRow where
  id : Int
  attemptId : Int
  target : String
  uploadPrefix : String
  startTime : Stamp
  endTime : Option Stamp
  status : String
  errorMessage : Option String
  dryRun : Bool
  deleted : Bool
  persisted : Bool
  deriving DecidableEq, Repr, Inhabited

def readStatus (text : String) : Except StoreFault Progress :=
  match Progress.ofText? text with
  | some p => .ok p
  | none => .error (.statusUnknown text)

def readEnd : Option Stamp → Except StoreFault (Option Instant)
  | none => .ok none
  | some s => (s.read "end_time").map some

/-- The attempt that a row records, without its uploads. -/
def AttemptRow.read (r : AttemptRow) : Except StoreFault Attempt := do
  let startTime ← r.startTime.read "start_time"
  let endTime ← readEnd r.endTime
  let status ← readStatus r.status
  return {
    id := r.id, height := r.height.toUInt64, startTime, endTime, status
    errorMessage := r.errorMessage, dryRun := r.dryRun, deleted := r.deleted
    persisted := r.persisted, uploads := [] }

def UploadRow.read (r : UploadRow) : Except StoreFault Upload := do
  let startTime ← r.startTime.read "start_time"
  let endTime ← readEnd r.endTime
  let status ← readStatus r.status
  return {
    id := r.id, attemptId := r.attemptId, target := r.target, uploadPrefix := r.uploadPrefix
    startTime, endTime, status
    errorMessage := r.errorMessage, dryRun := r.dryRun, deleted := r.deleted
    persisted := r.persisted }

inductive TableName where
  | attempts
  | uploads
  deriving DecidableEq, Repr

def TableName.text : TableName → String
  | .attempts => "snapshot_attempts"
  | .uploads => "target_results"

/-- A rule of the database itself that stands in the way of some changes. -/
structure Trigger where
  name : String
  table : TableName
  /-- Set off by updates of this column, or by insertions. -/
  column : Option String
  /-- Only where this column shows this value. -/
  condition : Option (String × String)
  /-- The refusal of the whole statement; without one the row is passed over. -/
  message : Option String
  deriving DecidableEq, Repr

def stampShows (s : Stamp) (value : String) : Bool := s == .text value

/-- The number of a row shows every text that reads as it. -/
def numberShows (id : Int) (value : String) : Bool := Stamp.ofText value == .number id

/-- Whether a column of the row shows the text. Heights and flags are no texts. -/
def AttemptRow.shows (r : AttemptRow) (column value : String) : Bool :=
  match column with
  | "id" => numberShows r.id value
  | "start_time" => stampShows r.startTime value
  | "end_time" => r.endTime.any (stampShows · value)
  | "status" => r.status == value
  | "error_message" => r.errorMessage == some value
  | _ => false

def UploadRow.shows (r : UploadRow) (column value : String) : Bool :=
  match column with
  | "id" => numberShows r.id value
  | "alias" => r.target == value
  | "upload_prefix" => r.uploadPrefix == value
  | "start_time" => stampShows r.startTime value
  | "end_time" => r.endTime.any (stampShows · value)
  | "status" => r.status == value
  | "error_message" => r.errorMessage == some value
  | _ => false

inductive Verdict where
  | pass
  | skip
  | abort (message : String)
  deriving DecidableEq, Repr

/-- What a statement does to a table: it inserts, or it updates some columns. -/
inductive Change where
  | insertion
  | update (columns : List String)

def Trigger.firesOn (t : Trigger) : Change → Bool
  | .insertion => t.column.isNone
  | .update columns => t.column.any columns.contains

/-- What the triggers say to a row that is about to show these values. The first one that minds
decides. -/
def judge (triggers : List Trigger) (table : TableName) (change : Change)
    (shows : String → String → Bool) : Verdict :=
  match triggers.find? fun t =>
      t.table == table && t.firesOn change && t.condition.all fun (column, value) => shows column value with
  | none => .pass
  | some t => t.message.elim .skip .abort

theorem judge_nil (table : TableName) (change : Change) (shows : String → String → Bool) :
    judge [] table change shows = .pass := rfl

/-- Updates the rows that are selected and counts those that were changed. -/
def updateRows {ρ : Type} (verdict : ρ → Verdict) (selects : ρ → Bool) (set : ρ → ρ) :
    List ρ → Except StoreFault (List ρ × Nat)
  | [] => .ok ([], 0)
  | r :: rs =>
    if selects r then
      match verdict (set r) with
      | .pass => (updateRows verdict selects set rs).map fun (rs, n) => (set r :: rs, n + 1)
      | .skip => (updateRows verdict selects set rs).map fun (rs, n) => (r :: rs, n)
      | .abort message => .error (.engine 1811 message)
    else (updateRows verdict selects set rs).map fun (rs, n) => (r :: rs, n)

end FleetSnapshot.Audit
