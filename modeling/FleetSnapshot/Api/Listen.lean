import FleetSnapshot.Text.HostName
/-!
The address the program listens on: a host, a colon and a number.
-/

namespace FleetSnapshot.Api.Listen

inductive Fault where
  | noPort
  | badPort
  | hostUnknown (reason : String)
  | notOurs
  deriving DecidableEq, Repr

def Fault.message : Fault → String
  | .noPort => "invalid socket address"
  | .badPort => "invalid port value"
  | .hostUnknown reason => reason
  | .notOurs => "Cannot assign requested address (os error 99)"

def splitLast? (cs : List Char) : Option (List Char × List Char) :=
  (Text.cut? [':'] cs.reverse).map fun (after, before) => (before.reverse, after.reverse)

def read (addr : String) : Except Fault (List Char × Nat) := do
  let some (host, digits) := splitLast? addr.toList | throw .noPort
  match Text.word? 10 UInt16.size digits with
  | some n => return (host, n)
  | none => throw .badPort

/-- The addresses of the machine itself. -/
def ours : List String := ["0.0.0.0", "127.0.0.1", "localhost", "[::]", "[::1]"]

def fault? (addr : String) : Option Fault :=
  match read addr with
  | .error f => some f
  | .ok (host, _) =>
    let host := String.ofList host
    match Text.lookupFault? host with
    | some reason => some (.hostUnknown reason)
    | none => if ours.contains host then none else some .notOurs

def refusal (addr : String) (f : Fault) : String :=
  s!"Failed to bind HTTP server to {addr}: {f.message}"

end FleetSnapshot.Api.Listen
