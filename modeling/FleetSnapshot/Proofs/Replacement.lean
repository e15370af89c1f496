import FleetSnapshot.Proofs.Directory

/-! Replacement in a text that falls into parts. What opens a pattern is a character that does not
come again in it, such as the brace of a name in braces: then a part without this character keeps
its characters, and a part in front of a character that the pattern does not have is replaced in on
its own. In general a part is passed over if no more is found with it than behind it. -/

namespace FleetSnapshot.Text

variable {pat new w cs : List Char} {c s : Char}

def count (pat : List Char) : List Char → Nat
  | [] => 0
  | c :: cs => (if (strip? pat (c :: cs)).isSome then 1 else 0) + count pat cs

theorem replace_toList (t pat new : String) :
    (replace t pat new).toList = replaceChars pat.toList new.toList t.toList :=
  String.toList_ofList

theorem replaceFrom_passed (w cs : List Char) :
    replaceFrom pat new w.length (w ++ cs) = replaceFrom pat new 0 cs := by
  induction w with
  | nil => rfl
  | cons c w ih => exact ih

theorem replaceChars_here (hne : pat ≠ []) (new cs : List Char) :
    replaceChars pat new (pat ++ cs) = new ++ replaceChars pat new cs := by
  obtain ⟨c, rest, rfl⟩ := List.exists_cons_of_ne_nil hne
  have hhere : (strip? (c :: rest) (c :: (rest ++ cs))).isSome = true :=
    Bucket.strip?_isSome_iff.2 (List.prefix_append (c :: rest) cs)
  rw [replaceChars, List.cons_append, replaceFrom, if_pos (by simp [hhere])]
  exact congrArg (new ++ ·) (replaceFrom_passed rest cs)

theorem replaceChars_cons (h : ¬ pat <+: c :: cs) :
    replaceChars pat new (c :: cs) = c :: replaceChars pat new cs := by
  have hnot : ¬ (strip? pat (c :: cs)).isSome = true := mt Bucket.strip?_isSome_iff.1 h
  rw [replaceChars, replaceFrom, if_neg (by simp [hnot])]
  rfl

theorem count_cons_of_prefix (h : pat <+: c :: cs) : count pat (c :: cs) = count pat cs + 1 := by
  rw [count, if_pos (Bucket.strip?_isSome_iff.2 h), Nat.add_comm]

theorem count_cons_of_not_prefix (h : ¬ pat <+: c :: cs) : count pat (c :: cs) = count pat cs := by
  rw [count, if_neg (mt Bucket.strip?_isSome_iff.1 h), Nat.zero_add]

theorem count_le_append (pat w cs : List Char) : count pat cs ≤ count pat (w ++ cs) := by
  induction w with
  | nil => exact Nat.le_refl _
  | cons c w ih => exact Nat.le_trans ih (Nat.le_add_left _ _)

/-- What adds no place to a text is left as it is. -/
theorem replaceChars_append (h : count pat (w ++ cs) = count pat cs) :
    replaceChars pat new (w ++ cs) = w ++ replaceChars pat new cs := by
  induction w with
  | nil => rfl
  | cons c w ih =>
    have hle := count_le_append pat w cs
    have hnot : ¬ pat <+: c :: (w ++ cs) := by
      intro hpre
      rw [List.cons_append, count_cons_of_prefix hpre] at h
      omega
    rw [List.cons_append, count_cons_of_not_prefix hnot] at h
    rw [List.cons_append, replaceChars_cons hnot, ih h, List.cons_append]

theorem not_prefix_of_ne {rest : List Char} (h : s ≠ c) : ¬ s :: rest <+: c :: cs := by
  rw [List.cons_prefix_cons]
  exact fun hpre => h hpre.1

theorem count_append {rest : List Char} (h : s ∉ w) : count (s :: rest) (w ++ cs) = count (s :: rest) cs := by
  induction w with
  | nil => rfl
  | cons c w ih =>
    obtain ⟨hc, hw⟩ := not_or.1 (mt List.mem_cons.2 h)
    rw [List.cons_append, count_cons_of_not_prefix (not_prefix_of_ne hc), ih hw]

theorem count_eq_zero (h : occurs pat cs = false) : count pat cs = 0 := by
  induction cs with
  | nil => rfl
  | cons c cs ih =>
    obtain ⟨hhere, hlater⟩ := Bool.or_eq_false_iff.1 h
    rw [count, hhere, ih hlater]
    rfl

theorem replaceChars_absent (h : occurs pat cs = false) : replaceChars pat new cs = cs := by
  have hkept : replaceChars pat new (cs ++ []) = cs ++ replaceChars pat new [] :=
    replaceChars_append (by rw [List.append_nil, count_eq_zero h]; rfl)
  rw [List.append_nil] at hkept
  exact hkept.trans (List.append_nil cs)

theorem replace_absent {t p : String} (h : contains t p = false) (new : String) :
    replace t p new = t :=
  String.toList_inj.1 ((replace_toList t p new).trans (replaceChars_absent h))

/-- The first place, and what becomes of the text from there on. -/
theorem replaceChars_first (hne : pat ≠ []) (h : occurs pat cs = true) (new : List Char) :
    ∃ before after, cs = before ++ (pat ++ after) ∧
      replaceChars pat new cs = before ++ (new ++ replaceChars pat new after) := by
  induction cs with
  | nil => exact absurd (List.isEmpty_iff.1 h) hne
  | cons c cs ih =>
    by_cases hhere : pat <+: c :: cs
    · obtain ⟨after, hafter⟩ := hhere
      exact ⟨[], after, hafter.symm, by rw [← hafter, replaceChars_here hne]; rfl⟩
    · rw [occurs, Bool.or_eq_true, Bucket.strip?_isSome_iff] at h
      obtain ⟨before, after, rfl, hreplaced⟩ := ih (h.resolve_left hhere)
      exact ⟨c :: before, after, rfl, by rw [replaceChars_cons hhere, hreplaced]; rfl⟩

/-- A pattern does not reach over a character that it does not have. -/
theorem prefix_apart (hs : s ∉ pat) (h : pat <+: w ++ s :: cs) : pat <+: w := by
  rcases List.prefix_or_prefix_of_prefix h (List.prefix_append w (s :: cs)) with h' | ⟨r, rfl⟩
  · exact h'
  · cases r with
    | nil => exact ⟨[], by simp⟩
    | cons c r =>
      have hr : c :: r <+: s :: cs := (List.prefix_append_right_inj w).1 h
      rw [(List.cons_prefix_cons.1 hr).1] at hs
      exact absurd (List.mem_append_right w List.mem_cons_self) hs

theorem replaceFrom_apart (hne : pat ≠ []) (hs : s ∉ pat) (w cs : List Char) (n : Nat)
    (hn : n ≤ w.length) :
    replaceFrom pat new n (w ++ s :: cs) = replaceFrom pat new n w ++ s :: replaceChars pat new cs := by
  induction w generalizing n with
  | nil =>
    obtain rfl : n = 0 := Nat.le_zero.1 hn
    refine replaceChars_cons fun hpre => hne ?_
    exact List.prefix_nil.1 (prefix_apart hs hpre)
  | cons c w ih =>
    cases n with
    | succ n => exact ih n (Nat.le_of_succ_le_succ hn)
    | zero =>
      have hsame : (strip? pat (c :: (w ++ s :: cs))).isSome = (strip? pat (c :: w)).isSome := by
        rw [Bool.eq_iff_iff, Bucket.strip?_isSome_iff, Bucket.strip?_isSome_iff]
        exact ⟨prefix_apart (w := c :: w) hs, fun h => h.trans (List.prefix_append (c :: w) (s :: cs))⟩
      rw [List.cons_append, replaceFrom, replaceFrom, hsame]
      split
      case isTrue hhere =>
        have hfits := (Bucket.strip?_isSome_iff.1 (Bool.and_eq_true_iff.1 hhere).2).length_le
        rw [List.length_cons] at hfits
        rw [ih _ (by omega), List.append_assoc]
      case isFalse => rw [ih 0 (Nat.zero_le _), List.cons_append]

/-- Both sides of a character that the pattern does not have are replaced in on their own. -/
theorem replaceChars_apart (hne : pat ≠ []) (hs : s ∉ pat) (new w cs : List Char) :
    replaceChars pat new (w ++ s :: cs) = replaceChars pat new w ++ s :: replaceChars pat new cs :=
  replaceFrom_apart hne hs w cs 0 (Nat.zero_le _)

end FleetSnapshot.Text
