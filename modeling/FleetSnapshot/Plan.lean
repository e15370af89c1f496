import FleetSnapshot.Audit
import FleetSnapshot.Gate
/-!
What the program does to the world, act by act. A plan is a tree of acts: after each one it goes on
as the answer tells it. Plans of several callers can therefore be carried out in turns.
-/

namespace FleetSnapshot

inductive Reply where
  | output (text : String)
  | unreachable (reason : String)
  | failed (reason : String)
  /-- The command goes on for ever. -/
  | silent
  deriving DecidableEq, Repr, Inhabited

/-- An act, with the type of its answer. -/
inductive Act : Type → Type 1 where
  /-- A command on the node of this place in the fleet. -/
  | command (node : Nat) (text : String) : Act Reply
  | audit {α : Type} (op : Audit.Op α) : Act (Except Error α)
  | put (key text : String) : Act (Except Error Unit)
  /-- The removal of an upload's directory from the bucket begins, and others may act before it is
  over. -/
  | openRemoval (upload : Int) (pre : String) : Act Unit
  | closeRemoval (upload : Int) (pre : String) : Act (Except Error Unit)
  | enter : Act (Except Error Unit)
  | leave : Act Unit
  | phase (p : Phase) : Act Unit
  | agreed (height next : UInt64) : Act Unit

inductive Plan (α : Type) : Type 1 where
  | done (a : α)
  | step {β : Type} (act : Act β) (next : β → Plan α)

namespace Plan

def bind {α β : Type} : Plan α → (α → Plan β) → Plan β
  | .done a, f => f a
  | .step act next, f => .step act fun r => (next r).bind f

instance : Monad Plan where
  pure := .done
  bind := bind

def act {α : Type} (a : Act α) : Plan α := .step a .done

theorem bind_done {α : Type} (p : Plan α) : p.bind .done = p := by
  induction p with
  | done a => rfl
  | step a next ih => simp only [bind, ih]

theorem bind_assoc {α β γ : Type} (p : Plan α) (f : α → Plan β) (g : β → Plan γ) :
    (p.bind f).bind g = p.bind fun a => (f a).bind g := by
  induction p with
  | done a => rfl
  | step a next ih => simp only [bind, ih]

end Plan

/-- Why a job has no result: it failed, or it waits for ever. -/
inductive Stop where
  | failed (e : Error)
  | hung
  deriving DecidableEq, Repr

abbrev Job := ExceptT Stop Plan

namespace Job

def fail {α : Type} (e : Error) : Job α := throw (.failed e)

def act {α : Type} (a : Act α) : Job α := ExceptT.lift (.act a)

def ofExcept {α : Type} : Except Error α → Job α
  | .ok a => pure a
  | .error e => fail e

def audit {α : Type} (op : Audit.Op α) : Job α := do ofExcept (← act (.audit op))

/-- The outcome of a job as a value, unless it waits for ever. -/
def outcome {α : Type} (j : Job α) : Job (Except Error α) := ExceptT.mk do
  match ← j.run with
  | .ok a => return .ok (.ok a)
  | .error (.failed e) => return .ok (.error e)
  | .error .hung => return .error .hung

/-- Goes through with both whatever becomes of the first. -/
def both {α β : Type} (j : Job α) (k : Job β) : Job (α × β) := ExceptT.mk do
  let a ← j.run
  let b ← k.run
  match a, b with
  | .ok a, .ok b => return .ok (a, b)
  | .error s, _ => return .error s
  | _, .error s => return .error s

/-- Goes through with all the jobs, whatever becomes of any. Jobs that may be under way at once are
taken in the order of the list, each up to its end before the next begins. -/
def all {α : Type} : List (Job α) → Job (List α)
  | [] => pure []
  | j :: js => do
    let (a, as) ← both j (all js)
    return a :: as

/-- The jobs up to the first that fails, which ends those under way. Jobs that may be under way at
once are taken in the order of the list, each up to its end before the next begins: none behind a
failure begins, and those behind one that waits for ever are not held up by it. -/
def upToFailure {α : Type} : List (Job α) → Job (List α)
  | [] => pure []
  | j :: js => ExceptT.mk do
    match ← j.run with
    | .error (.failed e) => return .error (.failed e)
    | .error .hung => do
      match ← (upToFailure js).run with
      | .error (.failed e) => return .error (.failed e)
      | _ => return .error .hung
    | .ok a => do
      match ← (upToFailure js).run with
      | .ok as => return .ok (a :: as)
      | .error s => return .error s

end Job

end FleetSnapshot
