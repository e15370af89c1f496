import FleetSnapshot.Bucket.Settings
/-!
Objects kept by a service that answers one request at a time: it may fail any of them, split a
listing into pages and report single keys that it did not delete. A directory is emptied by listing
all of its keys first and then deleting them in batches.
-/

namespace FleetSnapshot.Bucket

structure Page where
  keys : List String
  /-- Where the next page starts. -/
  next : Option String

/-- A service with state `σ`. Failed requests carry a reason. -/
structure Service (σ : Type) where
  put : (bucket key text : String) → σ → Except String Unit × σ
  page : (bucket pre : String) → Option String → σ → Except String Page × σ
  /-- The keys that were refused are part of the answer. -/
  delete : (bucket : String) → List String → σ → Except String (List String) × σ

/-- No request gets through, and one without a key cannot even be made. -/
def Service.offline : Service Unit where
  put _ key _ s :=
    (.error (if key.isEmpty then "failed to construct request" else "dispatch failure"), s)
  page _ _ _ s := (.error "dispatch failure", s)
  delete _ _ s := (.error "dispatch failure", s)

/-- At most this many keys go into one request. -/
def batchSize : Nat := 1000

variable {σ : Type}

/-- The keys on the pages from `start` on. Nothing comes out while there are more than `bound`
pages. -/
def keysFrom (service : Service σ) (bucket pre : String) :
    (bound : Nat) → (start : Option String) → σ → Option (Except Error (List String)) × σ
  | 0, _, s => (none, s)
  | bound + 1, start, s =>
    match service.page bucket pre start s with
    | (.error reason, s) => (some (.error (.storage s!"failed to list S3 objects: {reason}")), s)
    | (.ok page, s) =>
      match page.next with
      | none => (some (.ok page.keys), s)
      | some next =>
        match keysFrom service bucket pre bound (some next) s with
        | (some (.ok keys), s) => (some (.ok (page.keys ++ keys)), s)
        | other => other

def deleteAll (service : Service σ) (bucket : String) :
    List (List String) → σ → Except Error Unit × σ
  | [], s => (.ok (), s)
  | keys :: rest, s =>
    match service.delete bucket keys s with
    | (.error reason, s) => (.error (.storage s!"failed to delete batch of S3 objects: {reason}"), s)
    | (.ok _, s) => deleteAll service bucket rest s

def requireBucket (settings : Settings) : Except Error String :=
  if settings.bucketName.isEmpty then
    .error (.storage "bucket name not specified and no default bucket configured")
  else .ok settings.bucketName

/-- Empties a directory and gives the number of keys that were listed in it. -/
def deletePrefix (service : Service σ) (settings : Settings) (bound : Nat) (pre : String) (s : σ) :
    Option (Except Error Nat) × σ :=
  match requireBucket settings with
  | .error e => (some (.error e), s)
  | .ok bucket =>
    match keysFrom service bucket (directory pre) bound none s with
    | (some (.ok keys), s) =>
      match deleteAll service bucket (batches batchSize keys) s with
      | (.ok (), s) => (some (.ok keys.length), s)
      | (.error e, s) => (some (.error e), s)
    | (some (.error e), s) => (some (.error e), s)
    | (none, s) => (none, s)

def putObject (service : Service σ) (settings : Settings) (key text : String) (s : σ) :
    Except Error Unit × σ :=
  match requireBucket settings with
  | .error e => (.error e, s)
  | .ok bucket =>
    match service.put bucket key text s with
    | (.ok (), s) => (.ok (), s)
    | (.error reason, s) =>
      (.error (.storage s!"failed to upload S3 object {bucket}/{key}: {reason}"), s)

end FleetSnapshot.Bucket
