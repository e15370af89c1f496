import FleetSnapshot.Text.Blank
import FleetSnapshot.Text.Search

/-! Texts taken apart and put together again: into words at their blanks, into pieces at a separator,
and into two where the separator comes first. -/

namespace FleetSnapshot.Text

/-- The words of a text in order, each up to a blank or the end, and nothing but blanks around them. -/
inductive Words : List Char → List (List Char) → Prop
  | blank {cs : List Char} (h : ∀ c ∈ cs, isBlank c = true) : Words cs []
  | word {front w rest : List Char} {ws : List (List Char)} (hfront : ∀ c ∈ front, isBlank c = true)
      (hsome : w ≠ []) (hsolid : ∀ c ∈ w, isBlank c = false) (hend : ∀ c ∈ rest.head?, isBlank c = true)
      (h : Words rest ws) : Words (front ++ w ++ rest) (w :: ws)

section Words

variable {c : Char} {cs rest w : List Char} {ws : List (List Char)}

theorem headBlank_iff : headBlank cs = true ↔ ∀ c ∈ cs.head?, isBlank c = true := by
  cases cs <;> simp [headBlank]

theorem words_blank {front : List Char} (h : ∀ c ∈ front, isBlank c = true) (cs : List Char) :
    words (front ++ cs) = words cs := by
  induction front with
  | nil => rfl
  | cons c front ih =>
    rw [List.forall_mem_cons] at h
    rw [List.cons_append, words, if_pos h.1, ih h.2]

theorem words_word (hsome : w ≠ []) (hsolid : ∀ c ∈ w, isBlank c = false)
    (hend : headBlank rest = true) : words (w ++ rest) = w :: words rest := by
  induction w with
  | nil => exact absurd rfl hsome
  | cons c w ih =>
    rw [List.forall_mem_cons] at hsolid
    cases w with
    | nil => simp [words, hsolid.1, hend]
    | cons d w =>
      have hgoes : headBlank (d :: (w ++ rest)) = false := hsolid.2 d List.mem_cons_self
      rw [List.cons_append, words, ih (List.cons_ne_nil d w) hsolid.2]
      simp [hsolid.1, hgoes, lengthenFirst]

theorem Words.words_eq (h : Words cs ws) : words cs = ws := by
  induction h with
  | blank h => simpa [words] using words_blank h []
  | word hfront hsome hsolid hend _ ih =>
    rw [List.append_assoc, words_blank hfront, words_word hsome hsolid (headBlank_iff.2 hend), ih]

theorem Words.first (hsome : w ≠ []) (hsolid : ∀ c ∈ w, isBlank c = false)
    (hend : headBlank rest = true) (h : Words rest ws) : Words (w ++ rest) (w :: ws) := by
  have hword : Words ([] ++ w ++ rest) (w :: ws) := .word nofun hsome hsolid (headBlank_iff.1 hend) h
  exact hword

theorem Words.cons_blank (hc : isBlank c = true) (h : Words cs ws) : Words (c :: cs) ws := by
  cases h with
  | blank h => exact .blank (List.forall_mem_cons.2 ⟨hc, h⟩)
  | @word front w rest ws hfront hsome hsolid hend h =>
    have hblank : ∀ d ∈ c :: front, isBlank d = true := List.forall_mem_cons.2 ⟨hc, hfront⟩
    have hword : Words ((c :: front) ++ w ++ rest) (w :: ws) := .word hblank hsome hsolid hend h
    exact hword

/-- A character right in front of a word belongs to it. -/
theorem Words.lengthen (hc : isBlank c = false) (hgoes : headBlank cs = false) (h : Words cs ws) :
    Words (c :: cs) (lengthenFirst c ws) := by
  cases h with
  | blank h =>
    cases cs with
    | nil => cases hgoes
    | cons d cs => exact absurd (h d List.mem_cons_self) (by simpa [headBlank] using hgoes)
  | @word front w rest ws hfront hsome hsolid hend h =>
    cases front with
    | nil =>
      have hword : ∀ d ∈ c :: w, isBlank d = false := List.forall_mem_cons.2 ⟨hc, hsolid⟩
      exact .first (List.cons_ne_nil c w) hword (headBlank_iff.2 hend) h
    | cons d front => exact absurd (hfront d List.mem_cons_self) (by simpa [headBlank] using hgoes)

theorem words_sound (cs : List Char) : Words cs (words cs) := by
  induction cs with
  | nil => exact .blank nofun
  | cons c cs ih =>
    rw [words]
    split
    case isTrue hc => exact ih.cons_blank hc
    case isFalse hc =>
      rw [Bool.not_eq_true] at hc
      split
      case isTrue hend =>
        have hword : ∀ d ∈ [c], isBlank d = false := List.forall_mem_singleton.2 hc
        exact .first (List.cons_ne_nil c []) hword hend ih
      case isFalse hgoes => exact ih.lengthen hc (Bool.not_eq_true _ ▸ hgoes)

end Words

/-- The pieces of a text between separators, of which there is always one. -/
structure Pieces (sep : Char) (cs : List Char) (items : List (List Char)) : Prop where
  some : items ≠ []
  apart : ∀ i ∈ items, sep ∉ i
  whole : [sep].intercalate items = cs

section Pieces

variable {sep : Char} {cs front : List Char} {items : List (List Char)}

theorem fields_append_sep (cs rest : List Char) :
    fields sep (cs ++ sep :: rest) = fields sep cs ++ fields sep rest := by
  induction cs with
  | nil => simp [fields]
  | cons c cs ih =>
    rw [List.cons_append, fields, fields, ih]
    obtain ⟨f, fs, hfields⟩ := List.exists_cons_of_ne_nil (fields_ne_nil sep cs)
    split
    · rfl
    · rw [hfields]
      rfl

theorem fields_self (h : sep ∉ cs) : fields sep cs = [cs] := by
  induction cs with
  | nil => rfl
  | cons c cs ih =>
    rw [List.mem_cons, not_or] at h
    rw [fields, if_neg (Ne.symm h.1), ih h.2]

theorem of_mem_fields {f : List Char} (hf : f ∈ fields sep cs) : sep ∉ f ∧ ∀ c ∈ f, c ∈ cs := by
  induction cs generalizing f with
  | nil =>
    rw [fields, List.mem_singleton] at hf
    simp [hf]
  | cons c cs ih =>
    rw [fields] at hf
    split at hf
    case isTrue hsep =>
      rcases List.mem_cons.1 hf with rfl | hf
      · simp
      · exact ⟨(ih hf).1, fun d hd => List.mem_cons_of_mem _ ((ih hf).2 d hd)⟩
    case isFalse hsep =>
      obtain ⟨g, gs, hfields⟩ := List.exists_cons_of_ne_nil (fields_ne_nil sep cs)
      rw [hfields] at hf ih
      rcases List.mem_cons.1 hf with rfl | hf
      · obtain ⟨hg, hsub⟩ := ih List.mem_cons_self
        refine ⟨by simp [hg, Ne.symm hsep], ?_⟩
        rintro d (_ | ⟨_, hd⟩)
        · exact List.mem_cons_self
        · exact List.mem_cons_of_mem _ (hsub d hd)
      · obtain ⟨hg, hsub⟩ := ih (List.mem_cons_of_mem _ hf)
        exact ⟨hg, fun d hd => List.mem_cons_of_mem _ (hsub d hd)⟩

/-- The pieces of a text put together again. -/
theorem fields_intercalate (sep : Char) (cs : List Char) :
    [sep].intercalate (fields sep cs) = cs := by
  induction cs with
  | nil => rfl
  | cons c cs ih =>
    obtain ⟨f, fs, hfields⟩ := List.exists_cons_of_ne_nil (fields_ne_nil sep cs)
    rw [hfields] at ih
    rw [fields, hfields]
    split
    · next hsep => subst hsep; simp [← ih]
    · cases fs <;> simp [← ih]

theorem Pieces.fields_eq (h : Pieces sep cs items) : fields sep cs = items := by
  obtain ⟨hsome, hapart, rfl⟩ := h
  induction items with
  | nil => exact absurd rfl hsome
  | cons i items ih =>
    rw [List.forall_mem_cons] at hapart
    cases items with
    | nil => simpa using fields_self hapart.1
    | cons j items =>
      have hcut : [sep].intercalate (i :: j :: items) = i ++ sep :: [sep].intercalate (j :: items) := by
        simp
      rw [hcut, fields_append_sep, fields_self hapart.1, ih (List.cons_ne_nil j items) hapart.2]
      rfl

theorem fields_pieces (sep : Char) (cs : List Char) : Pieces sep cs (fields sep cs) :=
  ⟨fields_ne_nil sep cs, fun _ hf => (of_mem_fields hf).1, fields_intercalate sep cs⟩

theorem cut?_absent (h : sep ∉ cs) : cut? [sep] cs = none := by
  induction cs with
  | nil => rfl
  | cons c cs ih =>
    rw [List.mem_cons, not_or] at h
    rw [cut?, strip?, if_neg h.1, ih h.2]
    rfl

theorem cut?_first (h : sep ∉ front) (back : List Char) :
    cut? [sep] (front ++ sep :: back) = some (front, back) := by
  induction front with
  | nil => simp [cut?, strip?]
  | cons c front ih =>
    rw [List.mem_cons, not_or] at h
    rw [List.cons_append, cut?, strip?, if_neg h.1, ih h.2]
    rfl

end Pieces

end FleetSnapshot.Text
