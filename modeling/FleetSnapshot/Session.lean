import FleetSnapshot.Config
import FleetSnapshot.Files
import FleetSnapshot.Text.Blank
import FleetSnapshot.Text.HostName
/-!
Commands sent to one host over a connection that is kept from one command to the next. Once the
connection fails under a command it is given up, and only the next command opens another: no command
is ever sent twice.
-/

namespace FleetSnapshot

/-- The key and the rules for hosts, the same for every host. -/
structure Credentials where
  privateKey : String
  passphrase : Option String
  /-- None if any host is trusted. -/
  knownHostsPath : Option String
  connectTimeout : UInt64
  deriving DecidableEq, Repr

namespace Credentials

inductive Fault where
  | publicKey (path : String)
  | keyUnreadable (path : String) (f : Files.Fault)
  | passphraseUnreadable (path : String) (f : Files.Fault)
  deriving DecidableEq, Repr

def Fault.message : Fault → String
  | .publicKey path => s!"SSH key path should point to private key, not public key: {path}"
  | .keyUnreadable path f => s!"Failed to read SSH key from {path}: {f.message}"
  | .passphraseUnreadable path f => s!"Failed to read SSH key passphrase from {path}: {f.message}"

/-- A passphrase without the line breaks at its end. -/
def chomp (s : String) : String :=
  String.ofList (s.toList.reverse.dropWhile fun c => c == '\r' || c == '\n').reverse

def readPassphrase (fs : Files) (path : String) : Except Fault (Option String) :=
  if path.isEmpty then .ok none
  else
    match fs.readText path with
    | .ok s => .ok (some (chomp s))
    | .error f => .error (.passphraseUnreadable path f)

def load (fs : Files) (c : Config.Ssh) : Except Fault Credentials := do
  let path := c.privateKeyPath
  if (Text.strip? "bup.".toList path.toList.reverse).isSome then throw (.publicKey path)
  match fs.readText path with
  | .error f => throw (.keyUnreadable path f)
  | .ok privateKey => return {
      privateKey
      passphrase := ← readPassphrase fs c.passphrasePath
      knownHostsPath := if c.ignoreHostKey then none else some c.knownHostsPath
      connectTimeout := c.connectTimeout }

end Credentials

structure Exit where
  status : Nat
  stdout : String := ""
  stderr : String := ""
  deriving DecidableEq, Repr, Inhabited

/-- What connects to a host and carries commands there, with state `σ`. Connections are numbered. -/
structure Transport (σ : Type) where
  /-- None if it took too long; failures carry a reason. -/
  connect : (user host : String) → (sshPort : Nat) → Credentials → σ →
    Option (Except String Unit) × σ
  execute : (connection : Nat) → (command : String) → σ → Except String Exit × σ

/-- No connection is ever made, and no name is found. -/
def Transport.offline : Transport Unit where
  connect _ host _ _ s :=
    let reason := match Text.lookupFault? host with
      | some reason => "Invalid address was provided: " ++ reason
      | none => "Ssh error occured: Network is unreachable (os error 101)"
    (some (.error reason), s)
  execute _ _ s := (.error "", s)

structure Session where
  target : Config.Target
  credentials : Credentials
  /-- How many connections have been opened. -/
  opened : Nat := 0
  /-- The number of the one in use. -/
  connection : Option Nat := none
  deriving DecidableEq, Repr

namespace Session

/-- What a session does with its host. -/
inductive Contact where
  | connected (connection : Nat)
  | refused
  | executed (connection : Nat) (command : String) (outcome : Except String Exit)

variable {σ : Type}

/-- A connection to send commands over: the one in use, or else a new one. -/
def reach (t : Transport σ) (s : Session) (w : σ) :
    Except Error Nat × List Contact × Session × σ :=
  match s.connection with
  | some n => (.ok n, [], s, w)
  | none =>
    let u := s.target.user
    let h := s.target.host
    match t.connect u h s.target.sshPort s.credentials w with
    | (none, w) =>
      let seconds := s.credentials.connectTimeout
      (.error (.unreachable s.target.name s!"SSH connection timed out after {seconds}s"),
        [.refused], s, w)
    | (some (.error reason), w) =>
      (.error (.unreachable s.target.name s!"failed to connect to {u}@{h}: {reason}"),
        [.refused], s, w)
    | (some (.ok ()), w) =>
      let n := s.opened
      (.ok n, [.connected n], { s with opened := n + 1, connection := some n }, w)

/-- The output of a command that succeeded. What a command that failed wrote goes into the error. -/
def judge (target : String) (e : Exit) : Except Error String :=
  let stdout := Text.trim e.stdout
  if e.status = 0 then .ok stdout
  else
    let output := "\n".intercalate ([stdout, Text.trim e.stderr].filter (!·.isEmpty))
    let output := if output.isEmpty then "Unknown error" else output
    .error (.commandFailed target s!"exit code {e.status}: {output}")

/-- Sends one command, once. Gives what was done with the host beside the result. -/
def run (t : Transport σ) (command : String) (s : Session) (w : σ) :
    Except Error String × List Contact × Session × σ :=
  match reach t s w with
  | (.error e, contacts, s, w) => (.error e, contacts, s, w)
  | (.ok n, contacts, s, w) =>
    let (outcome, w) := t.execute n command w
    let contacts := contacts ++ [.executed n command outcome]
    match outcome with
    | .ok e => (judge s.target.name e, contacts, s, w)
    | .error reason =>
      (.error (.unreachable s.target.name s!"SSH command execution failed: {reason}"), contacts,
        { s with connection := none }, w)

def start (t : Transport σ) (credentials : Credentials) (target : Config.Target) (w : σ) :
    Except Error Session × σ :=
  match reach t { target, credentials } w with
  | (.ok _, _, s, w) => (.ok s, w)
  | (.error e, _, _, w) => (.error e, w)

/-- The sessions of all targets, up to the first that cannot be had. -/
def startAll (t : Transport σ) (credentials : Credentials) :
    List Config.Target → σ → Except Error (List Session) × σ
  | [], w => (.ok [], w)
  | target :: targets, w =>
    match start t credentials target w with
    | (.error e, w) => (.error e, w)
    | (.ok s, w) =>
      match startAll t credentials targets w with
      | (.error e, w) => (.error e, w)
      | (.ok ss, w) => (.ok (s :: ss), w)

end Session

end FleetSnapshot
