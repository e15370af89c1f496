import FleetSnapshot.Audit.Document
import FleetSnapshot.Audit
import FleetSnapshot.Gate
import FleetSnapshot.Text.Percent
/-!
The service that shows the records and lets them be protected. Reading is free; protecting needs the
token. Every answer is an envelope with a message or with data.
-/

namespace FleetSnapshot.Api

structure Request where
  method : String
  /-- A path, or a whole address with a path in it. -/
  uri : String
  authorization : Option String
  deriving DecidableEq, Repr

inductive Body where
  | empty
  | text (s : String)
  | json (d : Doc)

structure Response where
  code : Nat
  contentType : Option String := none
  /-- The methods that the path knows, if the request had none of them. -/
  allow : Option String := none
  body : Body := .empty

inductive Kind where
  | run
  | target
  deriving DecidableEq, Repr

inductive Route where
  | list (k : Kind)
  | get (k : Kind) (id : List Char)
  | status
  | persist (k : Kind) (id : List Char) (value : Bool)
  deriving DecidableEq, Repr

def Route.writes : Route → Bool
  | .persist .. => true
  | _ => false

def Route.methods (r : Route) : String := if r.writes then "POST" else "GET,HEAD"

def Route.serves (r : Route) (method : String) : Bool :=
  if r.writes then method == "POST" else method == "GET" || method == "HEAD"

def kindOf? (segment : List Char) : Option Kind :=
  if segment = "runs".toList then some .run
  else if segment = "targets".toList then some .target
  else none

def valueOf? (segment : List Char) : Option Bool :=
  if segment = "persist".toList then some true
  else if segment = "unpersist".toList then some false
  else none

/-- The route of the segments below the root of the service. -/
def routeOf? : List (List Char) → Option Route
  | [s] => if s = "status".toList then some .status else (kindOf? s).map .list
  | [s, id] => if id.isEmpty then none else (kindOf? s).map (.get · id)
  | [s, id, what] => do
    let k ← kindOf? s
    let value ← valueOf? what
    return .persist k id value
  | _ => none

def route? (path : List Char) : Option Route :=
  (Text.strip? "/api/v1/".toList path).bind fun rest => routeOf? (Text.fields '/' rest)

def splitUri (uri : String) : List Char × String :=
  let cs := uri.toList.takeWhile (· != '#')
  let cs :=
    match Text.cut? "://".toList cs with
    | some (scheme, rest) =>
      if scheme.all Char.isAlphanum then rest.dropWhile fun c => c != '/' && c != '?' else cs
    | none => cs
  match Text.cut? ['?'] cs with
  | some (path, query) => (path, String.ofList query)
  | none => (cs, "")

structure ListQuery where
  page : Option String := none
  limit : Option String := none
  includeDeleted : Option String := none
  onlyPersisted : Option String := none
  target : Option String := none
  deriving DecidableEq, Repr, Inhabited

namespace ListQuery

def positive? (s : Option String) : Option Nat := (s.bind Text.word32?).filter (0 < ·)

def pageNumber (q : ListQuery) : Nat := (positive? q.page).getD 1

def pageSize (q : ListQuery) : Nat := min ((positive? q.limit).getD Audit.maxPage) Audit.maxPage

def filter (q : ListQuery) : Audit.Filter where
  includeDeleted := q.includeDeleted == some "true"
  onlyPersisted := q.onlyPersisted == some "true"

def fieldNames : List String := ["page", "limit", "include_deleted", "only_persisted", "alias"]

def ofDoc (d : Doc) : Option ListQuery := do
  let f ← d.record? fieldNames
  return {
    page := ← (f "page").optional Doc.text?
    limit := ← (f "limit").optional Doc.text?
    includeDeleted := ← (f "include_deleted").optional Doc.text?
    onlyPersisted := ← (f "only_persisted").optional Doc.text?
    target := ← (f "alias").optional Doc.text? }

def repeated? : List String → List String → Option String
  | _, [] => none
  | seen, name :: names =>
    if name ∈ fieldNames && name ∈ seen then some name else repeated? (name :: seen) names

def find? (pairs : List (String × String)) (name : String) : Option String :=
  (pairs.find? (·.1 == name)).map (·.2)

def ofPairs (pairs : List (String × String)) : Except String ListQuery :=
  match repeated? [] (pairs.map (·.1)) with
  | some name => .error s!"Failed to deserialize query string: duplicate field `{name}`"
  | none => .ok {
      page := find? pairs "page", limit := find? pairs "limit"
      includeDeleted := find? pairs "include_deleted"
      onlyPersisted := find? pairs "only_persisted", target := find? pairs "alias" }

end ListQuery

/-- A header that can be read as text at all: blanks, tabs and visible ASCII characters. -/
def readable (header : String) : Bool :=
  header.toList.all fun c => c == '\t' || (0x20 ≤ c.toNat && c.toNat < 0x7F)

/-- Where two byte strings differ, as one number. All of the expected bytes are looked at. -/
def difference : (given expected : List Nat) → Nat
  | _, [] => 0
  | given, e :: expected => (e ^^^ given.headD 0) ||| difference given.tail expected

def tokensMatch (given expected : List Nat) : Bool :=
  (given.length ^^^ expected.length) ||| difference given expected == 0

inductive Access where
  | granted
  | missing
  | denied
  deriving DecidableEq, Repr

def stripScheme (cs : List Char) : List Char := (Text.strip? "Bearer ".toList cs).getD cs

/-- Whether a header gives the token, bare or behind the name of its scheme. -/
def access (token : String) (header : Option String) : Access :=
  match (header.filter readable).map fun h => Text.trimChars h.toList with
  | none | some [] => .missing
  | some cs =>
    let given := Text.utf8 (String.ofList (stripScheme cs))
    if tokensMatch given (Text.utf8 token) then .granted else .denied

open Audit

inductive Answer where
  | data (d : Doc)
  | refuse (code : Nat) (message : String)
  | plain (code : Nat) (message : String)

def attempted {α : Type} (q : Query α) : StateM Store (Except Error α) := q.run

def noun : Kind → String
  | .run => "run"
  | .target => "target"

def notFound : Kind → Answer
  | .run => .refuse 404 "snapshot run not found"
  | .target => .refuse 404 "target snapshot not found"

def broken (k : Kind) (verb : String) : Answer :=
  match k with
  | .run => .refuse 500 s!"failed to {verb} snapshot run"
  | .target => .refuse 500 s!"failed to {verb} target snapshot"

def record (k : Kind) (id : Int) : Query (Option Doc) := do
  match k with
  | .run => return (← getAttempt id).map Attempt.toDoc
  | .target => return (← getUpload id).map Upload.toDoc

def showRecord (k : Kind) (id : Int) : StateM Store Answer := do
  match ← attempted (record k id) with
  | .ok (some d) => return .data d
  | .ok none => return notFound k
  | .error _ => return broken k "get"

def protect (k : Kind) (id : Int) (value : Bool) : StateM Store Answer := do
  let change : Query Bool := match k with
    | .run => persistAttempt id value
    | .target => persistUpload id value
  match ← attempted change with
  | .ok true => showRecord k id
  | .ok false => return notFound k
  | .error _ => return broken k "update"

/-- Reads the number in a path and goes on with it. -/
def withId (k : Kind) (segment : List Char) (next : Int → StateM Store Answer) :
    StateM Store Answer :=
  match Text.ofUtf8? (Text.percentDecode (String.ofList segment)) with
  | none => return .plain 400 "Invalid URL: Invalid UTF-8 in `id`"
  | some s =>
    match Text.signed? s.toList with
    | none => return .refuse 400 s!"invalid {noun k} ID"
    | some id => next id

def listRuns (q : ListQuery) : StateM Store Answer := do
  match ← attempted (listAttempts q.pageNumber q.pageSize q.filter) with
  | .ok runs => return .data (.table [
      ("page", .int q.pageNumber), ("limit", .int q.pageSize),
      ("runs", .list (runs.map Attempt.toDoc))])
  | .error _ => return .refuse 500 "failed to get snapshot runs"

def listTargets (q : ListQuery) : StateM Store Answer := do
  let target := Text.trim (q.target.getD "")
  if target.isEmpty then return .refuse 400 "alias parameter is required"
  match ← attempted (uploadsByTarget target q.pageNumber q.pageSize q.filter) with
  | .ok uploads => return .data (.table [
      ("page", .int q.pageNumber), ("limit", .int q.pageSize), ("alias", .text target),
      ("targets", .list (uploads.map Upload.toDoc))])
  | .error _ => return .refuse 500 "failed to get target snapshots"

def showStatus (gate : Gate) : StateM Store Answer := do
  match ← attempted mostRecent with
  | .ok latest => return .data (.table [
      ("latestRun", optional Attempt.toDoc latest), ("status", gate.toDoc)])
  | .error _ => return .refuse 500 "failed to get most recent run"

/-- The service as one token guards it. -/
def handle (token : String) (gate : Gate) (r : Route) (query : String) (header : Option String) :
    StateM Store Answer :=
  match r with
  | .status => showStatus gate
  | .get k id => withId k id (showRecord k)
  | .list k =>
    match ListQuery.ofPairs (Text.queryPairs query) with
    | .error message => return .plain 400 message
    | .ok q =>
      match k with
      | .run => listRuns q
      | .target => listTargets q
  | .persist k id value =>
    match access token header with
    | .missing => return .refuse 401 "Missing Authorization header"
    | .denied => return .refuse 401 "Invalid token"
    | .granted => withId k id fun id => protect k id value

def envelope (code : Nat) (success : Bool) (data message : Doc) (now : Instant) : Response where
  code
  contentType := some "application/json"
  body := .json (.table [
    ("success", .bool success), ("data", data), ("message", message),
    ("timestamp", .text now.columnText)])

def readClock : StateM Store Instant := do
  let s ← get
  set { s with ticks := s.ticks + 1 }
  return s.clock s.ticks

def respondWith (a : Answer) : StateM Store Response := do
  match a with
  | .plain code message =>
    return { code, contentType := some "text/plain; charset=utf-8", body := .text message }
  | .data d => return envelope 200 true d .null (← readClock)
  | .refuse code message => return envelope code false .null (.text message) (← readClock)

/-- The answer to a request. Whoever asks for the options gets them; a head goes without a body. -/
def respond (token : String) (gate : Gate) (q : Request) : StateM Store Response := do
  let (path, query) := splitUri q.uri
  let route := route? path
  if q.method == "OPTIONS" then
    return { code := 200, allow := route.map Route.methods }
  match route with
  | none => return { code := 404 }
  | some r =>
    if r.serves q.method then
      let response ← respondWith (← handle token gate r query q.authorization)
      if q.method == "HEAD" then return { response with body := .empty }
      return response
    return { code := 405, allow := some r.methods }

end FleetSnapshot.Api
