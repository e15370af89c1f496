import FleetSnapshot.Config
import FleetSnapshot.Doc.Json
import FleetSnapshot.Node.SyncReport
import FleetSnapshot.Plan
import FleetSnapshot.Quantity
import FleetSnapshot.Shell
/-!
A node of the fleet: a consensus and an execution client in containers on one host, reached by shell
commands. First the words of the commands, then the calls that send them and read the replies.
-/

namespace FleetSnapshot

structure Node where
  /-- The place of the node in the fleet. -/
  index : Nat
  target : Config.Target
  rclone : Config.Rclone
  bucketName : String
  deriving DecidableEq, Repr, Inhabited

namespace Node

/-- The body of a call without arguments. -/
def requestOf (method : String) : String :=
  "\x7b\"jsonrpc\":\"2.0\",\"method\":\"" ++ method ++ "\",\"params\":[],\"id\":1\x7d"

def latestBlockRequest : String :=
  "\x7b\"jsonrpc\":\"2.0\",\"method\":\"eth_getBlockByNumber\",\"params\":[\"latest\",true],\"id\":1\x7d"

def clientVersionRequest : String := requestOf "web3_clientVersion"

def metadataFile : String := "_snapshot_metadata.json"

def latestBlockFile : String := "_snapshot_eth_getBlockByNumber.json"

def clientVersionFile : String := "_snapshot_web3_clientVersion.json"

variable (n : Node)

def rpcCommand (request : String) : String :=
  "curl -s -X POST -H \"Content-Type: application/json\" --data " ++ Shell.quote request ++ " " ++
    n.target.endpoints.execution ++ " | jq -r \".result\""

def syncCommand : String :=
  "curl -s " ++ n.target.endpoints.beacon ++ "/eth/v1/node/syncing | jq -r .data"

def stopCommand (container : String) (force : Bool) : String :=
  "docker stop " ++ (if force then "-t 0 " else "") ++ "\"" ++ container ++ "\""

def startCommand (container : String) : String := "docker start \"" ++ container ++ "\""

def dumpCommand (request path : String) : String :=
  n.rpcCommand request ++ " | sudo tee " ++ path ++ " > /dev/null"

def inspectCommand : String :=
  "docker inspect --format '\x7b\x7b.Config.Image\x7d\x7d' \"" ++ n.target.containers.execution ++ "\""

/-- What goes with the data of an upload. -/
def metadataDoc (image : String) (height : UInt64) : Doc :=
  .table [
    ("alias", .text n.target.name), ("blockNumber", .int height.toNat),
    ("image", .text (Text.trim image)),
    ("labels", .table (n.target.metadata.map fun (k, v) => (k, .text v)))]

def metadataCommand (dir image : String) (height : UInt64) : String :=
  "echo " ++ Shell.quote (Doc.Json.write (n.metadataDoc image height)) ++ " | sudo tee " ++ dir ++ "/" ++
    metadataFile ++ " > /dev/null"

/-- The template with its places filled in, one name after the other. -/
def fillTemplate (dir pre : String) (height : UInt64) : String :=
  let s := Text.replace n.rclone.commandTemplate "\x7bdata_dir\x7d" dir
  let s := Text.replace s "\x7bbucket_name\x7d" n.bucketName
  let s := Text.replace s "\x7bupload_prefix\x7d" pre
  Text.replace s "\x7bblock_number\x7d" (toString height.toNat)

def envOptions : String :=
  String.join (n.rclone.env.map fun (k, v) => " -e " ++ k ++ "=" ++ Shell.quote v)

def uploadCommand (dir pre : String) (height : UInt64) : String :=
  "docker run --rm -v " ++ dir ++ ":" ++ dir ++ n.envOptions ++ " --entrypoint " ++
    n.rclone.entrypoint ++ " rclone/rclone:" ++ n.rclone.version ++ " " ++ n.fillTemplate dir pre height

def run (command : String) : Job String := do
  match ← Job.act (.command n.index command) with
  | .output text => return text
  | .unreachable reason => Job.fail (.unreachable n.target.name reason)
  | .failed reason => Job.fail (.commandFailed n.target.name reason)
  | .silent => throw .hung

def refuse {α : Type} (reason : String) : Job α := Job.fail (.commandFailed n.target.name reason)

def chainIdOf (out : String) : Option String :=
  let id := Text.trim out
  if id.isEmpty || id == "null" then none else some id

def chainId : Job String := do
  match chainIdOf (← n.run (n.rpcCommand (requestOf "eth_chainId"))) with
  | some id => return id
  | none => n.refuse "eth_chainId returned no result"

def syncReportOf (out : String) : Option SyncReport :=
  (Doc.Json.read? (Text.trim out)).bind SyncReport.ofDoc

def syncReport : Job SyncReport := do
  let out ← n.run n.syncCommand
  match syncReportOf out with
  | some r => return r
  | none => n.refuse s!"failed parsing CL sync status '{Text.trim out}': <parse error>"

/-- An execution client that is syncing says how far it is. -/
def syncingOf (out : String) : Option Bool :=
  match Text.trim out with
  | "false" => some false
  | "true" => some true
  | out =>
    match Doc.Json.readAny? out with
    | some (.table _) => some true
    | _ => none

def executionSyncing : Job Bool := do
  let out ← n.run (n.rpcCommand (requestOf "eth_syncing"))
  match syncingOf out with
  | some b => return b
  | none => n.refuse s!"failed parsing EL sync status output '{Text.trim out}'"

def height : Job UInt64 := do
  let out ← n.run (n.rpcCommand (requestOf "eth_blockNumber"))
  match Quantity.read? out with
  | some h => return h
  | none => n.refuse s!"invalid eth_blockNumber result '{Text.trim out}'"

def stop (container : String) (force : Bool) : Job Unit := do
  let _ ← n.run (stopCommand container force)

def start (container : String) : Job Unit := do
  let _ ← n.run (startCommand container)

def dump (request path : String) : Job Unit := do
  let _ ← n.run (n.dumpCommand request path)

/-- Describes the data and then sends it off. -/
def upload (dir pre : String) (height : UInt64) : Job Unit := do
  let image ← n.run n.inspectCommand
  let _ ← n.run (n.metadataCommand dir image height)
  let _ ← n.run (n.uploadCommand dir pre height)

end Node

end FleetSnapshot
