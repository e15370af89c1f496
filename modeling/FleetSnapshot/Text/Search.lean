/-!
Finding and replacing parts of a text, from the left and without overlap.
-/

namespace FleetSnapshot.Text

/-- What follows `pat` at the front. -/
def strip? : List Char → List Char → Option (List Char)
  | [], cs => some cs
  | _ :: _, [] => none
  | p :: pat, c :: cs => if p = c then strip? pat cs else none

theorem strip?_eq_some {pat cs rest : List Char} (h : strip? pat cs = some rest) :
    cs = pat ++ rest := by
  induction pat generalizing cs with
  | nil => simpa [strip?] using h
  | cons p pat ih =>
    cases cs with
    | nil => simp [strip?] at h
    | cons c cs =>
      by_cases hp : p = c
      · subst hp
        simp only [strip?, if_true] at h
        rw [ih h, List.cons_append]
      · simp [strip?, hp] at h

theorem strip?_append (pat rest : List Char) : strip? pat (pat ++ rest) = some rest := by
  induction pat with
  | nil => rfl
  | cons p pat ih => rwa [List.cons_append, strip?, if_pos rfl]

def occurs (pat : List Char) : List Char → Bool
  | [] => pat.isEmpty
  | c :: cs => (strip? pat (c :: cs)).isSome || occurs pat cs

/-- The text around the first `pat`. -/
def cut? (pat : List Char) : List Char → Option (List Char × List Char)
  | [] => if pat.isEmpty then some ([], []) else none
  | c :: cs =>
    match strip? pat (c :: cs) with
    | some rest => some ([], rest)
    | none => (cut? pat cs).map fun (before, after) => (c :: before, after)

/-- The pieces between separators, empty ones included. -/
def fields (sep : Char) : List Char → List (List Char)
  | [] => [[]]
  | c :: cs =>
    if c = sep then [] :: fields sep cs
    else
      match fields sep cs with
      | f :: fs => (c :: f) :: fs
      | [] => [[c]]

theorem fields_ne_nil (sep : Char) (cs : List Char) : fields sep cs ≠ [] := by
  cases cs with
  | nil => exact List.cons_ne_nil _ _
  | cons c cs =>
    rw [fields]
    split
    · exact List.cons_ne_nil _ _
    · split <;> exact List.cons_ne_nil _ _

/-- Every `pat` becomes `new`; what was put in is not looked at again. The number counts the
characters left of an occurrence that has been replaced. -/
def replaceFrom (pat new : List Char) : Nat → List Char → List Char
  | _, [] => []
  | n + 1, _ :: cs => replaceFrom pat new n cs
  | 0, c :: cs =>
    if !pat.isEmpty && (strip? pat (c :: cs)).isSome then
      new ++ replaceFrom pat new (pat.length - 1) cs
    else c :: replaceFrom pat new 0 cs

def replaceChars (pat new cs : List Char) : List Char := replaceFrom pat new 0 cs

def replace (s pat new : String) : String :=
  String.ofList (replaceChars pat.toList new.toList s.toList)

def contains (s pat : String) : Bool := occurs pat.toList s.toList

end FleetSnapshot.Text
