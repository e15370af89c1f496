/-!
What can go wrong in a snapshot, a cleanup or at startup, by cause, and the words for it.
-/

namespace FleetSnapshot

inductive StoreFault where
  | rowMissing
  | statusUnknown (text : String)
  | timeInvalid (column text : String)
  /-- The database engine's own refusal, with its result code. -/
  | engine (code : Nat) (text : String)
  deriving DecidableEq, Repr, Inhabited

def StoreFault.message : StoreFault → String
  | .rowMissing => "no rows returned by a query that expected to return at least one row"
  | .statusUnknown t => s!"error occurred while decoding: unknown run status '{t}'"
  | .timeInvalid column t => s!"error occurred while decoding column \"{column}\": invalid datetime: {t}"
  | .engine code t => s!"error returned from database: (code: {code}) {t}"

inductive Error where
  | unreachable (target reason : String)
  | otherChain (target expected actual : String)
  | commandFailed (target reason : String)
  | disagreement (detail : String)
  | busy
  | uploadsFailed (targets : List String)
  | storage (reason : String)
  /-- A deletion that would have hit a protected record. -/
  | kept (record : String)
  | store (fault : StoreFault)
  | config (reason : String)
  deriving DecidableEq, Repr, Inhabited

namespace Error

def message : Error → String
  | .unreachable t r => s!"target {t} is unreachable: {r}"
  | .otherChain t e a => s!"chain id mismatch on {t}: expected {e}, got {a}"
  | .commandFailed t r => s!"remote command failed on {t}: {r}"
  | .disagreement d => s!"targets disagree on block height: {d}"
  | .busy => "there's already a snapshot in progress"
  | .uploadsFailed ts => s!"upload failed for {ts.length} target(s): " ++ ", ".intercalate ts
  | .storage r => s!"storage error: {r}"
  | .kept r => s!"refusing to delete persisted {r}"
  | .store f => "database error: " ++ f.message
  | .config r => s!"configuration error: {r}"

/-- Errors that end the program at startup. -/
def fatalAtStartup : Error → Bool
  | .unreachable .. | .otherChain .. | .config _ | .storage _ => true
  | _ => false

end Error

end FleetSnapshot
