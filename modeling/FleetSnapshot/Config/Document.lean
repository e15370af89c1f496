import FleetSnapshot.Config
import FleetSnapshot.Doc.Record
import FleetSnapshot.Order
/-!
Configurations as documents, read and written. Reading fills in the defaults; the targets are not
part of the main document. Where a list stands for a record, what it has beyond the fields is left
out.
-/

namespace FleetSnapshot.Config

open Doc

def Ssh.ofDoc (d : Doc) : Option Ssh := do
  let f ← d.leading? ["private_key_path", "private_key_passphrase_path", "known_hosts_path",
    "ignore_host_key", "connect_timeout_seconds"]
  return {
    privateKeyPath := ← (f "private_key_path").withDefault text? ""
    passphrasePath := ← (f "private_key_passphrase_path").withDefault text? ""
    knownHostsPath := ← (f "known_hosts_path").withDefault text? ""
    ignoreHostKey := ← (f "ignore_host_key").withDefault bool? false
    connectTimeoutSeconds := ← (f "connect_timeout_seconds").optional word? }

def Cleanup.ofDoc (d : Doc) : Option Cleanup := do
  let f ← d.leading? ["enabled", "keep_count", "check_interval_hours", "schedule"]
  return {
    enabled := ← (f "enabled").withDefault bool? false
    keepCount := ← (f "keep_count").withDefault signed? 0
    checkIntervalHours := ← (f "check_interval_hours").withDefault signed? 0
    schedule := ← (f "schedule").optional text? }

/-- Entries by name in order, the later of two of one name. -/
def sortedEntries (es : List (String × String)) : List (String × String) :=
  es.foldl (fun m (k, v) => Order.put k v m) []

def Rclone.ofDoc (d : Doc) : Option Rclone := do
  let base : Rclone := {}
  let f ← d.leading? ["version", "entrypoint", "command_template", "env"]
  return {
    version := ← (f "version").withDefault text? base.version
    entrypoint := ← (f "entrypoint").withDefault text? base.entrypoint
    commandTemplate := ← (f "command_template").withDefault text? base.commandTemplate
    env := sortedEntries (← (f "env").withDefault texts? []) }

def Storage.ofDoc (d : Doc) : Option Storage := do
  let f ← d.leading? ["bucket_name", "region", "endpoint", "root_prefix"]
  return {
    bucketName := ← (f "bucket_name").withDefault text? ""
    region := ← (f "region").withDefault text? ""
    endpoint := ← (f "endpoint").withDefault text? ""
    rootPrefix := ← (f "root_prefix").withDefault text? "" }

def Snapshots.ofDoc (d : Doc) : Option Snapshots := do
  let f ← d.leading? ["check_interval_seconds", "block_interval", "dry_run", "run_once",
    "settle_delay_seconds", "dry_run_delay_seconds", "cooldown_seconds", "cleanup", "rclone", "s3"]
  return {
    checkIntervalSeconds := ← (f "check_interval_seconds").withDefault word? 12
    blockInterval := ← (f "block_interval").withDefault word? 0
    dryRun := ← (f "dry_run").withDefault bool? false
    runOnce := ← (f "run_once").withDefault bool? false
    settleDelaySeconds := ← (f "settle_delay_seconds").optional word?
    dryRunDelaySeconds := ← (f "dry_run_delay_seconds").optional word?
    cooldownSeconds := ← (f "cooldown_seconds").optional word?
    cleanup := ← (f "cleanup").withDefault Cleanup.ofDoc {}
    rclone := ← (f "rclone").withDefault Rclone.ofDoc {}
    storage := ← (f "s3").withDefault Storage.ofDoc {} }

def Server.ofDoc (d : Doc) : Option Server := do
  let base : Server := {}
  let f ← d.leading? ["listen_addr", "api_token"]
  return {
    listenAddr := ← (f "listen_addr").withDefault text? base.listenAddr
    apiToken := ← (f "api_token").withDefault text? "" }

def databasePathOfDoc (d : Doc) : Option String := do
  let f ← d.leading? ["path"]
  (f "path").withDefault text? "snapshots.db"

def ofDoc (d : Doc) : Option Config := do
  let f ← d.leading? ["chain_id", "ssh", "snapshots", "database", "server"]
  return {
    chainId := ← (f "chain_id").required text?
    ssh := ← (f "ssh").withDefault Ssh.ofDoc {}
    snapshots := ← (f "snapshots").withDefault Snapshots.ofDoc {}
    databasePath := ← (f "database").withDefault databasePathOfDoc "snapshots.db"
    server := ← (f "server").withDefault Server.ofDoc {} }

def Containers.ofDoc (d : Doc) : Option Containers := do
  let base : Containers := {}
  let f ← d.leading? ["sidecar", "execution", "consensus"]
  return {
    sidecar := ← (f "sidecar").withDefault text? base.sidecar
    execution := ← (f "execution").withDefault text? base.execution
    consensus := ← (f "consensus").withDefault text? base.consensus }

def Endpoints.ofDoc (d : Doc) : Option Endpoints := do
  let base : Endpoints := {}
  let f ← d.leading? ["beacon", "execution"]
  return {
    beacon := ← (f "beacon").withDefault text? base.beacon
    execution := ← (f "execution").withDefault text? base.execution }

def Target.ofDoc (d : Doc) : Option Target := do
  let f ← d.leading? ["alias", "host", "user", "port", "data_dir", "upload_prefix", "metadata",
    "containers", "endpoints"]
  return {
    name := ← (f "alias").withDefault text? ""
    host := ← (f "host").required text?
    user := ← (f "user").required text?
    sshPort := ← (f "port").withDefault (below? UInt16.size) 22
    dataDir := ← (f "data_dir").required text?
    uploadPrefix := ← (f "upload_prefix").required text?
    metadata := sortedEntries (← (f "metadata").withDefault texts? [])
    containers := ← (f "containers").withDefault Containers.ofDoc {}
    endpoints := ← (f "endpoints").withDefault Endpoints.ofDoc {} }

def ofWord (n : UInt64) : Doc := .int n.toNat

def ofWord? (n : Option UInt64) : Doc := n.elim .null ofWord

def ofTexts (es : List (String × String)) : Doc := .table (es.map fun (k, v) => (k, .text v))

def Target.toDoc (t : Target) : Doc :=
  .table [
    ("alias", .text t.name), ("host", .text t.host), ("user", .text t.user), ("port", .int t.sshPort),
    ("data_dir", .text t.dataDir), ("upload_prefix", .text t.uploadPrefix),
    ("metadata", ofTexts t.metadata),
    ("containers", .table [("sidecar", .text t.containers.sidecar),
      ("execution", .text t.containers.execution), ("consensus", .text t.containers.consensus)]),
    ("endpoints", .table [("beacon", .text t.endpoints.beacon),
      ("execution", .text t.endpoints.execution)])]

def Snapshots.toDoc (s : Snapshots) : Doc :=
  .table [
    ("check_interval_seconds", ofWord s.checkIntervalSeconds),
    ("block_interval", ofWord s.blockInterval),
    ("dry_run", .bool s.dryRun), ("run_once", .bool s.runOnce),
    ("settle_delay_seconds", ofWord? s.settleDelaySeconds),
    ("dry_run_delay_seconds", ofWord? s.dryRunDelaySeconds),
    ("cooldown_seconds", ofWord? s.cooldownSeconds),
    ("cleanup", .table [("enabled", .bool s.cleanup.enabled), ("keep_count", .int s.cleanup.keepCount),
      ("check_interval_hours", .int s.cleanup.checkIntervalHours),
      ("schedule", s.cleanup.schedule.elim .null .text)]),
    ("rclone", .table [("version", .text s.rclone.version), ("entrypoint", .text s.rclone.entrypoint),
      ("command_template", .text s.rclone.commandTemplate), ("env", ofTexts s.rclone.env)]),
    ("s3", .table [("bucket_name", .text s.storage.bucketName), ("region", .text s.storage.region),
      ("endpoint", .text s.storage.endpoint), ("root_prefix", .text s.storage.rootPrefix)])]

/-- All but the targets. -/
def toDoc (c : Config) : Doc :=
  .table [
    ("chain_id", .text c.chainId),
    ("ssh", .table [("private_key_path", .text c.ssh.privateKeyPath),
      ("private_key_passphrase_path", .text c.ssh.passphrasePath),
      ("known_hosts_path", .text c.ssh.knownHostsPath),
      ("ignore_host_key", .bool c.ssh.ignoreHostKey),
      ("connect_timeout_seconds", ofWord? c.ssh.connectTimeoutSeconds)]),
    ("snapshots", c.snapshots.toDoc),
    ("database", .table [("path", .text c.databasePath)]),
    ("server", .table [("listen_addr", .text c.server.listenAddr),
      ("api_token", .text c.server.apiToken)])]

end FleetSnapshot.Config
