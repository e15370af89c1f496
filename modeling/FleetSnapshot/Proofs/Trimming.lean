import FleetSnapshot.Text.Blank
import Mathlib.Data.List.DropRight

/-! What is left of a text without the characters of one kind at its ends, such as its blanks. -/

namespace FleetSnapshot.Text

def peel (p : Char → Bool) (cs : List Char) : List Char :=
  ((cs.dropWhile p).reverse.dropWhile p).reverse

/-- What is left of a text once what `p` holds of has been let go at both of its ends. -/
structure Stripped (p : Char → Bool) (cs core : List Char) : Prop where
  ends : ∃ front back, cs = front ++ core ++ back ∧ (∀ c ∈ front, p c = true) ∧ ∀ c ∈ back, p c = true
  first : ∀ c ∈ core.head?, p c = false
  last : ∀ c ∈ core.getLast?, p c = false

section Stripped

variable {p : Char → Bool} {cs core : List Char}

theorem head?_dropWhile {c : Char} (h : c ∈ (cs.dropWhile p).head?) : p c = false := by
  have hnot := List.head?_dropWhile_not p cs
  rwa [Option.mem_def.1 h] at hnot

theorem peel_stripped (p : Char → Bool) (cs : List Char) : Stripped p cs (peel p cs) := by
  have hpeel : peel p cs = (cs.dropWhile p).rdropWhile p := rfl
  refine ⟨⟨cs.takeWhile p, (cs.dropWhile p).rtakeWhile p, ?_, fun _ => List.mem_takeWhile_imp,
    fun _ => List.mem_rtakeWhile_imp⟩, fun c hc => (?_ : p c = false), fun c hc => ?_⟩
  · rw [hpeel, List.append_assoc, List.rdropWhile_append_rtakeWhile, List.takeWhile_append_dropWhile]
  · refine head?_dropWhile (?_ : c ∈ (cs.dropWhile p).head?)
    obtain ⟨rest, hrest⟩ := List.head?_eq_some_iff.1 hc
    obtain ⟨back, hback⟩ := List.rdropWhile_prefix p (cs.dropWhile p)
    rw [← hback, ← hpeel, hrest]
    rfl
  · rw [peel, List.getLast?_reverse] at hc
    exact head?_dropWhile hc

theorem dropWhile_self (h : ∀ c ∈ cs.head?, p c = false) : cs.dropWhile p = cs := by
  cases cs with
  | nil => rfl
  | cons c cs => rw [List.dropWhile_cons_of_neg (by simp [h c rfl])]

theorem Stripped.peel_eq (h : Stripped p cs core) : peel p cs = core := by
  obtain ⟨⟨front, back, rfl, hfront, hback⟩, hfirst, hlast⟩ := h
  rw [peel, List.append_assoc, List.dropWhile_append_of_pos hfront]
  cases core with
  | nil =>
    have hnone : ([] ++ back).dropWhile p = [] := List.dropWhile_eq_nil_iff.2 hback
    rw [hnone]
    rfl
  | cons c core =>
    have hstart : (c :: core ++ back).dropWhile p = c :: core ++ back := dropWhile_self hfirst
    have hend : (c :: core).reverse.dropWhile p = (c :: core).reverse := by
      refine dropWhile_self fun d hd => hlast d ?_
      rwa [List.head?_reverse] at hd
    rw [hstart, List.reverse_append,
      List.dropWhile_append_of_pos fun d hd => hback d (List.mem_reverse.1 hd), hend,
      List.reverse_reverse]

theorem peel_eq_iff : peel p cs = core ↔ Stripped p cs core :=
  ⟨fun h => h ▸ peel_stripped p cs, Stripped.peel_eq⟩

theorem peel_pad {front back : List Char} (hfront : ∀ c ∈ front, p c = true)
    (hback : ∀ c ∈ back, p c = true) (hcore : ∀ c ∈ core, p c = false) :
    peel p (front ++ core ++ back) = core := by
  refine Stripped.peel_eq ⟨⟨front, back, rfl, hfront, hback⟩, fun c hc => ?_, fun c hc => ?_⟩
  · exact hcore c (List.mem_of_mem_head? hc)
  · exact hcore c (List.mem_of_mem_getLast? hc)

theorem peel_self (hcore : ∀ c ∈ core, p c = false) : peel p core = core := by
  have h : peel p ([] ++ core ++ []) = core := peel_pad (by simp) (by simp) hcore
  rwa [List.nil_append, List.append_nil] at h

theorem peel_map {f : Char → Char} (h : ∀ c, p (f c) = p c) (cs : List Char) :
    peel p (cs.map f) = (peel p cs).map f := by
  have hsame : p ∘ f = p := funext h
  simp only [peel, List.dropWhile_map, ← List.map_reverse, hsame]

end Stripped

section Trim

variable {cs pre : List Char}

theorem trimEnd_trimEnd (cs : List Char) : trimEnd (trimEnd cs) = trimEnd cs :=
  List.rdropWhile_idempotent isBlank cs

theorem trimEnd_trimChars (cs : List Char) : trimEnd (trimChars cs) = trimChars cs :=
  trimEnd_trimEnd (trimStart cs)

theorem trimEnd_append (h : cs.all isBlank = false) : trimEnd (pre ++ cs) = pre ++ trimEnd cs := by
  have hsome : (cs.reverse.dropWhile isBlank).isEmpty = false := by
    rw [List.isEmpty_eq_false_iff, Ne, List.dropWhile_eq_nil_iff]
    simpa [List.all_eq_false] using h
  rw [trimEnd, List.reverse_append, List.dropWhile_append, if_neg (by simp [hsome]),
    List.reverse_append, List.reverse_reverse]
  rfl

theorem trimChars_sublist (cs : List Char) : (trimChars cs).Sublist cs :=
  (List.rdropWhile_prefix isBlank _).sublist.trans (List.dropWhile_sublist isBlank)

end Trim

end FleetSnapshot.Text
