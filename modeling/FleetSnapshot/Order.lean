/-!
Lists kept in order: sorting that leaves equals as they came, and tables sorted by their names.
-/

namespace FleetSnapshot.Order

def insert {α : Type} (le : α → α → Bool) (a : α) : List α → List α
  | [] => [a]
  | b :: bs => if le a b then a :: b :: bs else b :: insert le a bs

/-- Sorts by `le`; elements that go either way keep their order. -/
def sort {α : Type} (le : α → α → Bool) : List α → List α
  | [] => []
  | a :: as => insert le a (sort le as)

theorem insert_perm {α : Type} (le : α → α → Bool) (a : α) (l : List α) :
    (insert le a l).Perm (a :: l) := by
  induction l with
  | nil => simp [insert]
  | cons b bs ih =>
    simp only [insert]
    split
    · exact .refl _
    · exact (ih.cons b).trans (.swap a b bs)

theorem sort_perm {α : Type} (le : α → α → Bool) (l : List α) : (sort le l).Perm l := by
  induction l with
  | nil => simp [sort]
  | cons a as ih => exact (insert_perm le a _).trans (ih.cons a)

/-- Sets the value of a name in a table sorted by names. -/
def put {α : Type} (key : String) (value : α) : List (String × α) → List (String × α)
  | [] => [(key, value)]
  | (k, v) :: es =>
    if key < k then (key, value) :: (k, v) :: es
    else if key = k then (key, value) :: es
    else (k, v) :: put key value es

def find? {α : Type} (key : String) (es : List (String × α)) : Option α :=
  (es.find? (·.1 == key)).map (·.2)

theorem find?_cons {α : Type} (name key : String) (value : α) (es : List (String × α)) :
    find? name ((key, value) :: es) = if key = name then some value else find? name es := by
  by_cases h : key = name <;> simp [find?, h]

theorem find?_put {α : Type} (name key : String) (value : α) (es : List (String × α)) :
    find? name (put key value es) = if key = name then some value else find? name es := by
  induction es with
  | nil => simp [put, find?_cons]
  | cons e es ih =>
    obtain ⟨k, v⟩ := e
    simp only [put]
    split
    · rw [find?_cons]
    · split
      · next heq => subst heq; by_cases h : key = name <;> simp [find?_cons, h]
      · next hne =>
        rw [find?_cons, ih, find?_cons]
        by_cases h : key = name
        · subst h; simp [Ne.symm hne]
        · simp [h]

end FleetSnapshot.Order
