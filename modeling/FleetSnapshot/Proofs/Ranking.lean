import FleetSnapshot.Audit

/-! The order in which a cleanup goes through the attempts. Sorting puts rows in order and takes none
away, and whatever is left out of the rows beforehand may as well be left out afterwards. -/

namespace FleetSnapshot

namespace Order

variable {α : Type} {le : α → α → Bool}

theorem insert_pairwise (trans : ∀ a b c, le a b = true → le b c = true → le a c = true)
    (total : ∀ a b, le a b = true ∨ le b a = true) (a : α) {l : List α}
    (h : l.Pairwise (le · ·)) : (insert le a l).Pairwise (le · ·) := by
  induction l with
  | nil => exact List.pairwise_singleton _ _
  | cons b bs ih =>
    obtain ⟨hb, hbs⟩ := List.pairwise_cons.1 h
    rw [insert]
    split
    case isTrue hab =>
      refine List.pairwise_cons.2 ⟨fun c hc => ?_, h⟩
      rcases List.mem_cons.1 hc with rfl | hc
      · exact hab
      · exact trans a b c hab (hb c hc)
    case isFalse hab =>
      refine List.pairwise_cons.2 ⟨fun c hc => ?_, ih hbs⟩
      rcases List.mem_cons.1 ((insert_perm le a bs).mem_iff.1 hc) with rfl | hc
      · exact (total c b).resolve_left hab
      · exact hb c hc

theorem sort_pairwise (trans : ∀ a b c, le a b = true → le b c = true → le a c = true)
    (total : ∀ a b, le a b = true ∨ le b a = true) (l : List α) :
    (sort le l).Pairwise (le · ·) := by
  induction l with
  | nil => exact List.Pairwise.nil
  | cons a as ih => exact insert_pairwise trans total a ih

theorem insert_filter (trans : ∀ a b c, le a b = true → le b c = true → le a c = true)
    (p : α → Bool) (a : α) {l : List α} (h : l.Pairwise (le · ·)) :
    (insert le a l).filter p = if p a then insert le a (l.filter p) else l.filter p := by
  induction l with
  | nil =>
    cases hp : p a <;> simp [insert, hp]
  | cons b bs ih =>
    obtain ⟨hb, hbs⟩ := List.pairwise_cons.1 h
    rw [insert]
    split
    case isTrue hab =>
      -- what is left of the list has an element at its head that the new one may stand before
      have hfirst : insert le a ((b :: bs).filter p) = a :: (b :: bs).filter p := by
        cases hl : (b :: bs).filter p with
        | nil => rfl
        | cons c cs =>
          have hc : c ∈ (b :: bs).filter p := hl ▸ List.mem_cons_self
          have hac : le a c = true := by
            rcases List.mem_cons.1 (List.mem_filter.1 hc).1 with rfl | hc
            · exact hab
            · exact trans a b c hab (hb c hc)
          rw [insert, if_pos hac]
      rw [hfirst, List.filter_cons]
    case isFalse hab =>
      rw [List.filter_cons, ih hbs, List.filter_cons]
      cases hp : p b with
      | true =>
        cases p a with
        | true => simp only [if_true, insert, if_neg hab]
        | false => rfl
      | false => rfl

/-- Leaving elements out and sorting the rest is sorting and then leaving them out. -/
theorem sort_filter (trans : ∀ a b c, le a b = true → le b c = true → le a c = true)
    (total : ∀ a b, le a b = true ∨ le b a = true) (p : α → Bool) (l : List α) :
    sort le (l.filter p) = (sort le l).filter p := by
  induction l with
  | nil => rfl
  | cons a as ih =>
    rw [sort, insert_filter trans p a (sort_pairwise trans total as), ← ih, List.filter_cons]
    split <;> rfl

end Order

namespace Audit

theorem AttemptRow.highestFirst_iff (a b : AttemptRow) :
    a.highestFirst b = true ↔ b.height.toInt < a.height.toInt ∨
      a.height.toInt = b.height.toInt ∧ b.id ≤ a.id := by
  unfold AttemptRow.highestFirst
  by_cases heq : a.height = b.height
  · rw [if_pos heq, heq]
    simp
  · have hne : a.height.toInt ≠ b.height.toInt := fun h => heq (Int64.toInt_inj.1 h)
    rw [if_neg heq, decide_eq_true_iff, Int64.le_iff_toInt_le]
    omega

theorem AttemptRow.highestFirst_trans (a b c : AttemptRow) (h : a.highestFirst b = true)
    (h' : b.highestFirst c = true) : a.highestFirst c = true := by
  rw [highestFirst_iff] at *
  omega

theorem AttemptRow.highestFirst_total (a b : AttemptRow) :
    a.highestFirst b = true ∨ b.highestFirst a = true := by
  rw [highestFirst_iff, highestFirst_iff]
  omega

end Audit

end FleetSnapshot
