import FleetSnapshot.Error
import FleetSnapshot.Text.Blank
/-!
The configuration of a deployment: its values, what stands in for the ones left out, and the rules
that every configuration has to meet before anything starts.
-/

namespace FleetSnapshot.Config

structure Ssh where
  privateKeyPath : String := ""
  passphrasePath : String := ""
  knownHostsPath : String := ""
  ignoreHostKey : Bool := false
  connectTimeoutSeconds : Option UInt64 := none
  deriving DecidableEq, Repr, Inhabited

structure Cleanup where
  enabled : Bool := false
  keepCount : Int := 0
  checkIntervalHours : Int := 0
  /-- A cron expression of six fields; takes the place of the interval. -/
  schedule : Option String := none
  deriving DecidableEq, Repr, Inhabited

/-- The arguments of the upload container's entrypoint, with places for the values of one upload. -/
def defaultCommandTemplate : String :=
  "-ac \"\napk add --no-cache tar zstd jq &&\ncd \x7bdata_dir\x7d &&\n" ++
  "cat \x7bdata_dir\x7d/_snapshot_metadata.json | jq . &&\ntar -I zstd \\\n" ++
  "--exclude=./nodekey \\\n--exclude=./key \\\n--exclude=./discovery-secret \\\n-cvf - . \\\n" ++
  "| rclone rcat --s3-chunk-size 150M " ++
  "mys3:/\x7bbucket_name\x7d/\x7bupload_prefix\x7d/\x7bblock_number\x7d/snapshot.tar.zst &&\n" ++
  "rclone copy \x7bdata_dir\x7d/_snapshot_eth_getBlockByNumber.json " ++
  "mys3:/\x7bbucket_name\x7d/\x7bupload_prefix\x7d/\x7bblock_number\x7d &&\n" ++
  "rclone copy \x7bdata_dir\x7d/_snapshot_web3_clientVersion.json " ++
  "mys3:/\x7bbucket_name\x7d/\x7bupload_prefix\x7d/\x7bblock_number\x7d &&\n" ++
  "rclone copy \x7bdata_dir\x7d/_snapshot_metadata.json " ++
  "mys3:/\x7bbucket_name\x7d/\x7bupload_prefix\x7d/\x7bblock_number\x7d &&\n" ++
  "echo \x7bblock_number\x7d | rclone rcat mys3:/\x7bbucket_name\x7d/\x7bupload_prefix\x7d/latest\n\""

structure Rclone where
  version : String := "1.65.2"
  entrypoint : String := "/bin/sh"
  commandTemplate : String := defaultCommandTemplate
  /-- Variables of the upload container, by name. -/
  env : List (String × String) := []
  deriving DecidableEq, Repr, Inhabited

structure Storage where
  bucketName : String := ""
  region : String := ""
  endpoint : String := ""
  rootPrefix : String := ""
  deriving DecidableEq, Repr, Inhabited

structure Snapshots where
  checkIntervalSeconds : UInt64 := 12
  blockInterval : UInt64 := 0
  dryRun : Bool := false
  runOnce : Bool := false
  settleDelaySeconds : Option UInt64 := none
  dryRunDelaySeconds : Option UInt64 := none
  cooldownSeconds : Option UInt64 := none
  cleanup : Cleanup := {}
  rclone : Rclone := {}
  storage : Storage := {}
  deriving DecidableEq, Repr, Inhabited

structure Server where
  listenAddr : String := "0.0.0.0:5001"
  apiToken : String := ""
  deriving DecidableEq, Repr, Inhabited

structure Containers where
  /-- The helper service that pauses while data is moved. -/
  sidecar : String := "snooper-engine"
  execution : String := "execution"
  consensus : String := "beacon"
  deriving DecidableEq, Repr, Inhabited

structure Endpoints where
  beacon : String := "http://localhost:5052"
  execution : String := "http://localhost:8545"
  deriving DecidableEq, Repr, Inhabited

structure Target where
  /-- The alias that records and messages call it by. -/
  name : String := ""
  host : String
  user : String
  sshPort : Nat := 22
  dataDir : String
  uploadPrefix : String
  /-- Labels for the description that goes with every upload, by name. -/
  metadata : List (String × String) := []
  containers : Containers := {}
  endpoints : Endpoints := {}
  deriving DecidableEq, Repr, Inhabited

end Config

structure Config where
  chainId : String
  ssh : Config.Ssh := {}
  snapshots : Config.Snapshots := {}
  databasePath : String := "snapshots.db"
  server : Config.Server := {}
  targets : List Config.Target := []
  deriving DecidableEq, Repr, Inhabited

namespace Config

def Ssh.connectTimeout (c : Ssh) : UInt64 := c.connectTimeoutSeconds.getD 30

def Snapshots.settleDelay (c : Snapshots) : UInt64 := c.settleDelaySeconds.getD 30

def Snapshots.dryRunDelay (c : Snapshots) : UInt64 := c.dryRunDelaySeconds.getD 60

def Snapshots.cooldown (c : Snapshots) : UInt64 := c.cooldownSeconds.getD 60

/-- How many unprotected attempts a cleanup spares. -/
def Cleanup.keep (c : Cleanup) : Nat := if c.keepCount ≤ 0 then 3 else c.keepCount.toNat

/-- Seconds between two cleanups, at most what a word holds. -/
def Cleanup.interval (c : Cleanup) : Nat :=
  let hours := if c.checkIntervalHours ≤ 0 then 24 else c.checkIntervalHours.toNat
  min (hours * 3600) (UInt64.size - 1)

inductive Fault where
  | noChainId
  | noBlockInterval
  | noCheckInterval
  | noApiToken
  | noTargets
  | aliasTwice (name : String)
  | fieldMissing (name field : String)
  deriving DecidableEq, Repr

def Fault.message : Fault → String
  | .noChainId => "chain_id must be set"
  | .noBlockInterval => "snapshots.block_interval must be greater than 0"
  | .noCheckInterval => "snapshots.check_interval_seconds must be greater than 0"
  | .noApiToken => "server.api_token must be set - API authentication is required"
  | .noTargets => "no targets configured"
  | .aliasTwice a => s!"duplicate target alias '{a}'"
  | .fieldMissing a f => s!"target '{a}' is missing required field '{f}'"

/-- The first of the fields a target cannot do without that is blank. -/
def Target.blankField? (t : Target) : Option String :=
  ([("host", t.host), ("user", t.user), ("data_dir", t.dataDir), ("upload_prefix", t.uploadPrefix)].find?
    fun f => Text.blank f.2).map (·.1)

/-- The first fault among the targets, given the aliases before them. -/
def targetFault? (seen : List String) : List Target → Option Fault
  | [] => none
  | t :: ts =>
    if t.name ∈ seen then some (.aliasTwice t.name)
    else
      match t.blankField? with
      | some f => some (.fieldMissing t.name f)
      | none => targetFault? (t.name :: seen) ts

def fault? (c : Config) : Option Fault :=
  if Text.blank c.chainId then some .noChainId
  else if c.snapshots.blockInterval = 0 then some .noBlockInterval
  else if c.snapshots.checkIntervalSeconds = 0 then some .noCheckInterval
  else if Text.blank c.server.apiToken then some .noApiToken
  else if c.targets.isEmpty then some .noTargets
  else targetFault? [] c.targets

def validate (c : Config) : Except Error Unit :=
  match c.fault? with
  | some f => .error (.config f.message)
  | none => .ok ()

end FleetSnapshot.Config
