import FleetSnapshot.Api.Listen
import FleetSnapshot.Audit.Disk
import FleetSnapshot.Bucket.Settings
import FleetSnapshot.Config.Directory
import FleetSnapshot.Session
import FleetSnapshot.World
/-!
From the words of the command line to a deployment that runs. Configuration, audit store, bucket and
hosts are taken in this order, and the first that cannot be had ends the program.
-/

namespace FleetSnapshot.Startup

inductive Command where
  | help
  | run (directory : String)
  deriving DecidableEq, Repr

def defaultDirectory : String := "config"

/-- The value of an option that is written as one word with its name. -/
def joined? (option word : String) : Option String :=
  (Text.strip? (option ++ "=").toList word.toList).map String.ofList

def isOption (word : String) : Bool :=
  match word.toList with
  | '-' :: _ :: _ => true
  | _ => false

/-- What the words ask for, after some have been read. `due` tells that a value has to follow.
Nothing comes out of words that make no command. -/
def readFrom (due : Bool) (directory : Option String) : List String → Option Command
  | [] => if due then none else some (.run (directory.getD defaultDirectory))
  | word :: words =>
    if due then
      if isOption word || directory.isSome then none else readFrom false (some word) words
    else if word = "--help" || (Text.strip? "-h".toList word.toList).isSome then some .help
    else if word = "--config" then readFrom true directory words
    else if word = "--" && words.isEmpty then readFrom false directory words
    else
      match joined? "--config" word with
      | some value => if directory.isSome then none else readFrom false (some value) words
      | none => none

def Command.read? (words : List String) : Option Command := readFrom false none words

inductive Failure where
  | config (f : Config.LoadFault)
  | disk (f : Audit.Disk.Fault)
  | credentials (f : Credentials.Fault)
  | job (e : Error)
  | schedule (message : String)
  | listen (addr : String) (f : Api.Listen.Fault)

/-- What an error of the audit store quotes, which is told once more behind it. -/
def quoted : StoreFault → List String
  | .engine code text => [s!"(code: {code}) {text}"]
  | _ => []

/-- The reasons behind a failure, the outermost first. -/
def Failure.reasons : Failure → List String
  | .config f => [f.message]
  | .credentials f => [f.message]
  | .job (.store f) => (Error.store f).message :: f.message :: quoted f
  | .job e => [e.message]
  | .schedule message => [message]
  | .listen addr f => [Api.Listen.refusal addr f]
  | .disk (.refused f) => f.message :: quoted f
  | .disk (.schema (.refused f)) => f.message :: quoted f
  | .disk (.address reason) => [(Audit.Disk.Fault.address reason).message, reason]
  | .disk f => [f.message]

/-- The error of the domain that a failure is, if it is one. -/
def Failure.error? : Failure → Option Error
  | .config (.invalid f) => some (.config f.message)
  | .job e => some e
  | _ => none

def Failure.report (f : Failure) : String :=
  match f.error?.filter Error.fatalAtStartup with
  | some e => "Fatal startup error: " ++ e.message
  | none => "Snapshotter stopped: " ++ ": ".intercalate f.reasons

/-- What the program finds around it. -/
structure Surroundings (σ : Type) where
  disk : Audit.Disk
  env : Text.Env
  clock : Nat → Instant
  transport : Transport σ
  network : σ

structure Ready where
  config : Config
  audit : Audit.Disk.Handle
  settings : Bucket.Settings
  sessions : List Session

variable {σ : Type}

def connect (m : Surroundings σ) (c : Config) : Except Failure (List Session) :=
  match Credentials.load m.disk.files c.ssh with
  | .error f => .error (.credentials f)
  | .ok credentials =>
    match Session.startAll m.transport credentials c.targets m.network with
    | (.ok sessions, _) => .ok sessions
    | (.error e, _) => .error (.job e)

/-- The store stays on the disk even if what comes after it fails. -/
def prepare (m : Surroundings σ) (directory : String) : Except Failure Ready × Audit.Disk :=
  match Config.load m.disk.files m.env directory with
  | .error f => (.error (.config f), m.disk)
  | .ok config =>
    match m.disk.opening m.clock config.databasePath with
    | (.error f, disk) => (.error (.disk f), disk)
    | (.ok audit, disk) =>
      (match Bucket.Settings.resolve config.snapshots.storage m.env with
        | .error e => .error (.job e)
        | .ok settings =>
          (connect { m with disk } config).map fun sessions => { config, audit, settings, sessions },
        disk.closing audit)

def replyOf : Except Error String → Reply
  | .ok text => .output text
  | .error (.unreachable _ reason) => .unreachable reason
  | .error (.commandFailed _ reason) => .failed reason
  | .error e => .failed e.message

/-- A session as a host: the commands before, the latest first, have gone over it. -/
def hostOf (t : Transport σ) (network : σ) (s : Session) : Host where
  answer asked text :=
    let (s, w) := asked.foldr (fun text (s, w) =>
      let (_, _, s, w) := Session.run t text s w
      (s, w)) (s, network)
    replyOf (Session.run t text s w).1

def Ready.world (r : Ready) (m : Surroundings σ) : World where
  deployment := {
    hosts := r.sessions.map (hostOf m.transport m.network)
    store := r.audit.store
    gate := { blockInterval := r.config.snapshots.blockInterval } }
  plant := {
    fleet := World.fleetOf r.config.targets r.config.snapshots.rclone r.settings.bucketName
    dryRun := r.config.snapshots.dryRun, rootPrefix := r.settings.rootPrefix }
  bucketName := r.settings.bucketName
  blockInterval := r.config.snapshots.blockInterval
  runOnce := r.config.snapshots.runOnce
  token := r.config.server.apiToken

/-- Runs a deployment after its start: the chains have to agree, cleanup begins, and the fleet is
watched for at most `bound` ticks. -/
def serve (r : Ready) (bound : Nat) (w : World) : Except Failure Unit × World :=
  match w.job (Agreement.verifyChains w.plant.fleet r.config.chainId) with
  | (.error (.failed e), w) => (.error (.job e), w)
  | (.error .hung, w) => (.ok (), w)
  | (.ok (), w) =>
    match w.startSweeping r.config.snapshots.cleanup with
    | (.error message, w) => (.error (.schedule message), w)
    | (.ok _, w) =>
      match Api.Listen.fault? r.config.server.listenAddr with
      | some f => (.error (.listen r.config.server.listenAddr f), w)
      | none =>
        match w.poll bound with
        | (.error (.failed e), w) => (.error (.job e), w)
        | (_, w) => (.ok (), w)

/-- How the program ends: its exit code and what it says of its failure. -/
structure Ending where
  code : Nat
  errors : List String := []
  deriving DecidableEq, Repr

def run (m : Surroundings σ) (bound : Nat) (words : List String) : Ending × Audit.Disk :=
  match Command.read? words with
  | none => ({ code := 2 }, m.disk)
  | some .help => ({ code := 0 }, m.disk)
  | some (.run directory) =>
    let failed (f : Failure) : Ending := { code := 1, errors := [f.report] }
    match prepare m directory with
    | (.error f, disk) => (failed f, disk)
    | (.ok ready, disk) =>
      let (result, w) := serve ready bound (ready.world m)
      let disk := disk.closing { ready.audit with store := w.deployment.store }
      match result with
      | .ok () => ({ code := 0 }, disk)
      | .error f => (failed f, disk)

end FleetSnapshot.Startup
