import FleetSnapshot.Config.Document
import FleetSnapshot.Doc.Toml
import FleetSnapshot.Files.Pattern
import FleetSnapshot.Text.Expand
/-!
A configuration as a directory: one file with the settings, and one file for each target, whose name
serves as an alias where none is given. References to variables are filled in where they are
allowed, and the uploads get the storage of the cleanup unless they were given another.
-/

namespace FleetSnapshot.Config

inductive LoadFault where
  | mainUnreadable (path : String) (f : Files.Fault)
  | mainMalformed
  | pattern (f : Pattern.Fault)
  | unreadable (path : String) (f : Files.Fault)
  | malformed (path : String)
  | invalid (f : Fault)
  deriving DecidableEq, Repr

def LoadFault.message : LoadFault → String
  | .mainUnreadable path f => s!"Failed to read main config {path}: {f.message}"
  | .mainMalformed => "Failed to parse main config: <toml error>"
  | .pattern f => s!"Glob pattern error: {f.message}"
  | .unreadable path f => s!"Failed to read {path}: {f.message}"
  | .malformed path => s!"Failed to parse {path}: <toml error>"
  | .invalid f => (Error.config f.message).message

def mainFile : String := "main.toml"

/-- The name of a target's file without its ending. -/
def stem? (name : String) : Option String :=
  if name = mainFile then none
  else (Text.strip? "lmot.".toList name.toList.reverse).map fun cs => String.ofList cs.reverse

def readMain (fs : Files) (dir : String) : Except LoadFault Config := do
  let path := s!"{dir}/{mainFile}"
  match fs.readText path with
  | .error f => throw (.mainUnreadable path f)
  | .ok text =>
    match (Doc.Toml.read? text).bind ofDoc with
    | some c => return c
    | none => throw .mainMalformed

/-- The target in a file with a name. -/
def Target.inFile (stem : String) (t : Target) : Target :=
  if Text.blank t.name then { t with name := stem } else t

def readTarget (fs : Files) (path stem : String) : Except LoadFault Target := do
  match fs.readText path with
  | .error f => throw (.unreadable path f)
  | .ok text =>
    match (Doc.Toml.read? text).bind Target.ofDoc with
    | some t => return t.inFile stem
    | none => throw (.malformed path)

/-- The files of the targets and the names they give. The directory is part of the pattern that is
searched for, and what is in its path that looks like a wildcard is taken for one. -/
def targetFiles (fs : Files) (dir : String) : Except LoadFault (List (String × String)) :=
  match Pattern.read? s!"{dir}/*.toml" with
  | .error f => .error (.pattern f)
  | .ok p => .ok ((p.find fs).filterMap fun place => (stem? place.name).map (place.shown, ·))

def readTargets (fs : Files) (dir : String) : Except LoadFault (List Target) := do
  (← targetFiles fs dir).mapM fun (path, stem) => readTarget fs path stem

def byAlias (t u : Target) : Bool := !decide (u.name < t.name)

def expandAll (env : Text.Env) (c : Config) : Config :=
  let expand := Text.expand env
  { c with
    ssh := { c.ssh with
      privateKeyPath := expand c.ssh.privateKeyPath
      passphrasePath := expand c.ssh.passphrasePath
      knownHostsPath := expand c.ssh.knownHostsPath }
    snapshots := { c.snapshots with
      storage := {
        endpoint := expand c.snapshots.storage.endpoint
        bucketName := expand c.snapshots.storage.bucketName
        region := expand c.snapshots.storage.region
        rootPrefix := expand c.snapshots.storage.rootPrefix }
      rclone := { c.snapshots.rclone with
        env := c.snapshots.rclone.env.map fun (k, v) => (k, expand v) } }
    databasePath := expand c.databasePath
    server := { c.server with apiToken := expand c.server.apiToken }
    targets := c.targets.map fun t => { t with dataDir := expand t.dataDir } }

/-- Sets a variable that has not been set. -/
def putDefault (key value : String) (es : List (String × String)) : List (String × String) :=
  if es.any (·.1 == key) then es else Order.put key value es

/-- The variables of the upload container with the storage filled in. -/
def uploadEnv (s : Storage) (es : List (String × String)) : List (String × String) :=
  if s.endpoint.isEmpty then es
  else
    let es := putDefault "RCLONE_CONFIG_MYS3_ENDPOINT" s.endpoint es
    let es :=
      if s.bucketName.isEmpty then es
      else putDefault "RCLONE_CONFIG_MYS3_BUCKET_NAME" s.bucketName es
    if s.region.isEmpty then es else putDefault "RCLONE_CONFIG_MYS3_REGION" s.region es

def withUploadEnv (c : Config) : Config :=
  { c with snapshots := { c.snapshots with rclone := { c.snapshots.rclone with
      env := uploadEnv c.snapshots.storage c.snapshots.rclone.env } } }

/-- The configuration of these settings and targets, unless it breaks a rule. -/
def assemble (env : Text.Env) (c : Config) (targets : List Target) : Except LoadFault Config :=
  let c := withUploadEnv (expandAll env { c with targets := Order.sort byAlias targets })
  match c.fault? with
  | some f => .error (.invalid f)
  | none => .ok c

def load (fs : Files) (env : Text.Env) (dir : String) : Except LoadFault Config := do
  let c ← readMain fs dir
  assemble env c (← readTargets fs dir)

end FleetSnapshot.Config
