import FleetSnapshot.Plan
import FleetSnapshot.Text.Search
/-!
Hosts that answer by rule. The first rule whose text occurs in a command gives its replies one after
the other, and its last one from then on.
-/

namespace FleetSnapshot.Script

structure Rule where
  contains : String
  replies : List Reply
  deriving Repr, Inhabited

def ruleFor (rules : List Rule) (text : String) : Option Nat :=
  rules.findIdx? fun r => Text.contains text r.contains

/-- The reply number `n`, or the last one. -/
def replyAt : List Reply → Nat → Reply
  | [], _ => .output ""
  | [r], _ => r
  | r :: _, 0 => r
  | _ :: rs, n + 1 => replyAt rs n

/-- The reply to a command after the commands that went before it. -/
def answer (rules : List Rule) (asked : List String) (text : String) : Reply :=
  match ruleFor rules text with
  | none => .output ""
  | some i => replyAt (rules[i]?.elim [] (·.replies)) (asked.countP fun t => ruleFor rules t == some i)

end FleetSnapshot.Script
