import FleetSnapshot.Startup
/-!
The command line. It gathers the files and the variables that a start may need and reports how the
program ended. It has no way to the hosts, so every start ends where they would be connected.
-/

namespace FleetSnapshot.CommandLine

def help : String :=
  "Coordinated blockchain node snapshots to object storage\n\n" ++
  "Usage: fleet-snapshot [OPTIONS]\n\nOptions:\n" ++
  "      --config <CONFIG>  Directory holding main.toml and one <alias>.toml per target" ++
  " [default: config]\n" ++
  "  -h, --help             Print help"

def look (path : String) (fs : Files) : IO Files := do
  try
    let bytes ← IO.FS.readBinFile path
    return fs.put (fs.settle path) (.file (bytes.toList.map (·.toNat)))
  catch _ =>
    if ← ((← IO.currentDir) / path).isDir then return fs.put (fs.settle path) .directory
    return fs

/-- The settings and the targets in a directory, and in the directories below as far as to a depth. -/
def lookInto : Nat → String → Files → IO Files
  | depth, directory, fs => do
    try
      let inside ← ((← IO.currentDir) / directory).readDir
      inside.foldlM (fun fs e => do
        let path := s!"{directory}/{e.fileName}"
        if path.endsWith ".toml" then look path fs
        else match depth with
          | 0 => return fs
          | depth + 1 => lookInto depth path fs) (fs.put (fs.settle directory) .directory)
    catch _ => return fs

/-- How far below its place a pattern may lead. -/
def reach (parts : List Pattern.Part) : Nat := if parts.contains .deep then 64 else parts.length

/-- The files that a pattern may stand for: those where its names lead before its first wildcard, and
below. -/
def lookAlong (path : String) : List Pattern.Part → Files → IO Files
  | .name s :: parts, fs => lookAlong (if path.isEmpty then s else s!"{path}/{s}") parts fs
  | parts, fs => lookInto (reach parts - 1) (if path.isEmpty then "." else path) fs

/-- The variables of the environment, as the system lists them. -/
def environment : IO (List (String × String)) := do
  try
    let bytes ← IO.FS.readBinFile "/proc/self/environ"
    let text := Text.ofUtf8Lossy (bytes.toList.map (·.toNat))
    return (Text.fields '\x00' text.toList).filterMap fun cs =>
      (Text.cut? ['='] cs).map fun (k, v) => (String.ofList k, String.ofList v)
  catch _ => return []

/-- The files that a start from this directory reads. -/
def gather (directory : String) (env : Text.Env) : IO Files := do
  let fs ← look directory { home := (← IO.currentDir).toString, entries := [] }
  let fs ← look s!"{directory}/{Config.mainFile}" fs
  let fs ← match Pattern.read? s!"{directory}/*.toml" with
    | .ok p => lookAlong (if p.rooted then "/" else "") p.parts fs
    | .error _ => pure fs
  match Config.load fs env directory with
  | .error _ => return fs
  | .ok c => look c.ssh.privateKeyPath (← look c.ssh.passphrasePath (← look c.databasePath fs))

end FleetSnapshot.CommandLine

open FleetSnapshot in
def main (words : List String) : IO UInt32 := do
  let vars ← CommandLine.environment
  let env : Text.Env := fun name => (vars.find? (·.1 == name)).map (·.2)
  let files ← match Startup.Command.read? words with
    | some (.run directory) => CommandLine.gather directory env
    | some .help => do
      IO.println CommandLine.help
      pure { home := "", entries := [] }
    | none => do
      IO.eprintln CommandLine.help
      pure { home := "", entries := [] }
  let (ending, _) := Startup.run
    { disk := { files }, env, clock := fun _ => default, transport := .offline, network := () }
    0 words
  ending.errors.forM fun line => IO.eprintln line
  return ending.code.toUInt32
