/-!
Documents: the tree of values that a configuration text, a reply of a node or a request carries.
Numbers are exact where they are whole; of the others only their range matters here.
-/

namespace FleetSnapshot

inductive Doc where
  | null
  | bool (b : Bool)
  | int (n : Int)
  /-- A number with a fraction or an exponent, and whether a double can hold it. -/
  | real (finite : Bool)
  | text (s : String)
  /-- A text with half of a surrogate pair in it. -/
  | broken
  /-- A date or a time that is not a text. -/
  | time
  | list (items : List Doc)
  | table (entries : List (String × Doc))
  deriving Inhabited, Repr

namespace Doc

mutual

def depth : Doc → Nat
  | .list items => depthOfItems items + 1
  | .table entries => depthOfEntries entries + 1
  | _ => 0

def depthOfItems : List Doc → Nat
  | [] => 0
  | d :: ds => max (depth d) (depthOfItems ds)

def depthOfEntries : List (String × Doc) → Nat
  | [] => 0
  | (_, d) :: es => max (depth d) (depthOfEntries es)

end

mutual

/-- Every text whole and every number in range. -/
def sound : Doc → Bool
  | .broken => false
  | .real finite => finite
  | .list items => soundItems items
  | .table entries => soundEntries entries
  | _ => true

def soundItems : List Doc → Bool
  | [] => true
  | d :: ds => sound d && soundItems ds

def soundEntries : List (String × Doc) → Bool
  | [] => true
  | (_, d) :: es => sound d && soundEntries es

end

/-- The entry of this name, the last one if there are several. -/
def get? (key : String) : Doc → Option Doc
  | .table entries => (entries.reverse.find? (·.1 == key)).map (·.2)
  | _ => none

end Doc

end FleetSnapshot
