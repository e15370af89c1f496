import FleetSnapshot.Order
import FleetSnapshot.Text.Blank
import FleetSnapshot.Text.Search
/-!
Keys of stored objects. A prefix stands for a directory: it is taken with a slash at its end, so
that `a/1` never covers what lies under `a/10`.
-/

namespace FleetSnapshot.Bucket

def closeSlash (cs : List Char) : List Char :=
  if cs.getLast? = some '/' then cs else cs ++ ['/']

/-- The prefix in front of the keys of a whole deployment: empty, or closed by a slash. -/
def rootPrefix (s : String) : String :=
  match (Text.trimChars s.toList).dropWhile (· == '/') with
  | [] => ""
  | cs => String.ofList (closeSlash cs)

def directory (pre : String) : String := String.ofList (closeSlash pre.toList)

/-- Whether a key lies in the directory of the prefix. -/
def covers (pre key : String) : Bool :=
  (Text.strip? (directory pre).toList key.toList).isSome

/-- The keys in lists of `size`, the last one maybe shorter; a size of zero counts as one. -/
def batches {α : Type} (size : Nat) : List α → List (List α)
  | [] => []
  | key :: keys => (key :: keys.take (size - 1)) :: batches size (keys.drop (size - 1))
termination_by keys => keys.length
decreasing_by simp only [List.length_drop, List.length_cons]; omega

/-- What a bucket holds: the texts of its objects, sorted by key. -/
abbrev Objects := List (String × String)

def Objects.remove (objects : Objects) (pre : String) : Objects :=
  objects.filter fun (key, _) => !covers pre key

def Objects.put (objects : Objects) (key text : String) : Objects := Order.put key text objects

end FleetSnapshot.Bucket
