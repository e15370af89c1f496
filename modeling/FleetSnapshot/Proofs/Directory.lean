import FleetSnapshot.Capture

/-! Directories of the bucket. A key lies under a prefix if the closed prefix begins it, so two
directories share a key only if one of them lies in the other. Those of uploads end in a height,
which has no slash in it: if neither node's prefix goes on from the other's, they share a key only
if they are the same. -/

namespace FleetSnapshot

namespace Bucket

theorem strip?_isSome_iff {pat cs : List Char} : (Text.strip? pat cs).isSome = true ↔ pat <+: cs := by
  constructor
  · intro h
    obtain ⟨rest, hrest⟩ := Option.isSome_iff_exists.1 h
    exact ⟨rest, (Text.strip?_eq_some hrest).symm⟩
  · rintro ⟨rest, rfl⟩
    induction pat with
    | nil => rfl
    | cons c pat ih => simpa [Text.strip?] using ih

theorem covers_iff {pre key : String} :
    covers pre key = true ↔ closeSlash pre.toList <+: key.toList := by
  rw [covers, strip?_isSome_iff, directory, String.toList_ofList]

theorem covers_directory (pre : String) : covers pre (directory pre) = true := by
  refine covers_iff.2 ⟨[], ?_⟩
  rw [List.append_nil, directory, String.toList_ofList]

/-- What covers a directory covers all that lies in it. -/
theorem covers_of_directory {pre pre' key : String} (h : covers pre (directory pre') = true)
    (hk : covers pre' key = true) : covers pre key = true := by
  rw [covers_iff, directory, String.toList_ofList] at h
  rw [covers_iff] at hk ⊢
  exact h.trans hk

def Extends (p q : String) : Prop := ∃ segments, segments ≠ "" ∧ q = p ++ "/" ++ segments

section Slashes

variable {p q a b : List Char}

/-- What follows the last slash tells what stands before it. -/
theorem last_slash (ha : '/' ∉ a) (hb : '/' ∉ b) (h : p ++ '/' :: a = q ++ '/' :: b) :
    p = q ∧ a = b := by
  rcases List.append_eq_append_iff.1 h with ⟨c, rfl, hc⟩ | ⟨c, rfl, hc⟩
  · cases c with
    | nil => exact ⟨(List.append_nil p).symm, (List.cons.inj hc).2⟩
    | cons x c =>
      rw [(List.cons.inj hc).2] at ha
      exact absurd (List.mem_append_right c List.mem_cons_self) ha
  · cases c with
    | nil => exact ⟨List.append_nil q, (List.cons.inj hc).2.symm⟩
    | cons x c =>
      rw [(List.cons.inj hc).2] at hb
      exact absurd (List.mem_append_right c List.mem_cons_self) hb

/-- A directory that lies deeper goes on from the prefix of the upper one. -/
theorem deeper_slash (hb : '/' ∉ b) (ha : a ≠ []) {rest : List Char}
    (h : p ++ '/' :: (a ++ '/' :: rest) = q ++ '/' :: b) :
    ∃ segments, segments ≠ [] ∧ q = p ++ '/' :: segments := by
  rw [← List.cons_append, ← List.append_assoc] at h
  rcases List.append_eq_append_iff.1 h with ⟨c, hq, -⟩ | ⟨c, hp, hc⟩
  · refine ⟨a ++ c, fun he => ha (List.append_eq_nil_iff.1 he).1, ?_⟩
    rw [hq, List.append_assoc, List.cons_append]
  · cases c with
    | nil => exact ⟨a, ha, by rw [hp, List.append_nil]⟩
    | cons x c =>
      rw [(List.cons.inj hc).2] at hb
      exact absurd (List.mem_append_right c List.mem_cons_self) hb

/-- The upper directory is the same, or the deeper prefix goes on from the upper one. -/
theorem nested_slash (ha : '/' ∉ a) (hb : '/' ∉ b) (hne : a ≠ [])
    (h : p ++ '/' :: (a ++ ['/']) <+: q ++ '/' :: (b ++ ['/'])) :
    p = q ∧ a = b ∨ ∃ segments, segments ≠ [] ∧ q = p ++ '/' :: segments := by
  obtain ⟨rest, hrest⟩ := h
  rw [← List.cons_append, ← List.cons_append, ← List.append_assoc, ← List.append_assoc] at hrest
  rcases List.eq_nil_or_concat rest with rfl | ⟨rest, c, rfl⟩
  · rw [List.append_nil] at hrest
    exact Or.inl (last_slash ha hb (List.append_inj' hrest rfl).1)
  · rw [List.concat_eq_append, ← List.append_assoc] at hrest
    have hinit : p ++ '/' :: (a ++ '/' :: rest) = q ++ '/' :: b := by
      simpa using (List.append_inj' hrest rfl).1
    exact Or.inr (deeper_slash hb hne hinit)

end Slashes

end Bucket

namespace Capture

open Bucket

/-- A height as it stands in a key. -/
theorem isDigit_of_mem_height {height : UInt64} {c : Char} (h : c ∈ (toString height.toNat).toList) :
    c.isDigit = true := by
  rw [Nat.toString_eq_ofList_toDigits, String.toList_ofList] at h
  exact Nat.isDigit_of_mem_toDigits (by decide) (by decide) h

theorem slash_not_mem_height (height : UInt64) : '/' ∉ (toString height.toNat).toList :=
  fun h => absurd (isDigit_of_mem_height h) (by decide)

theorem height_ne_nil (height : UInt64) : (toString height.toNat).toList ≠ [] := by
  rw [Nat.toString_eq_ofList_toDigits, String.toList_ofList]
  exact Nat.toDigits_ne_nil

theorem height_inj {height height' : UInt64}
    (h : (toString height.toNat).toList = (toString height'.toNat).toList) : height = height' := by
  rw [Nat.toString_eq_ofList_toDigits, Nat.toString_eq_ofList_toDigits, String.toList_ofList,
    String.toList_ofList] at h
  have := congrArg (Nat.ofDigitChars 10 · 0) h
  simp only [Nat.ofDigitChars_ten_toDigits] at this
  exact UInt64.toNat_inj.1 this

theorem uploadPrefix_toList (n : Node) (height : UInt64) :
    (uploadPrefix n height).toList =
      n.target.uploadPrefix.toList ++ '/' :: (toString height.toNat).toList := by
  simp [uploadPrefix, String.toList_append]

theorem closeSlash_uploadPrefix (n : Node) (height : UInt64) :
    closeSlash (uploadPrefix n height).toList =
      n.target.uploadPrefix.toList ++ '/' :: ((toString height.toNat).toList ++ ['/']) := by
  rw [closeSlash, uploadPrefix_toList, if_neg, List.append_assoc, List.cons_append]
  intro hlast
  have hno := slash_not_mem_height height
  rcases List.eq_nil_or_concat (toString height.toNat).toList with hnil | ⟨ds, c, hds⟩
  · exact height_ne_nil height hnil
  · rw [hds, List.concat_eq_append] at hlast hno
    rw [← List.cons_append, ← List.append_assoc, List.getLast?_concat] at hlast
    rw [Option.some.inj hlast] at hno
    exact hno (List.mem_append_right ds List.mem_cons_self)

theorem nested_uploads {n m : Node} {height height' : UInt64}
    (h : closeSlash (uploadPrefix n height).toList <+:
      closeSlash (uploadPrefix m height').toList) :
    n.target.uploadPrefix = m.target.uploadPrefix ∧ height = height' ∨
      Extends n.target.uploadPrefix m.target.uploadPrefix := by
  rw [closeSlash_uploadPrefix, closeSlash_uploadPrefix] at h
  rcases nested_slash (slash_not_mem_height height) (slash_not_mem_height height')
    (height_ne_nil height) h with ⟨hp, hh⟩ | ⟨segments, hne, hp⟩
  · exact Or.inl ⟨String.toList_inj.1 hp, height_inj hh⟩
  · refine Or.inr ⟨String.ofList segments, fun he => hne ?_, String.toList_inj.1 ?_⟩
    · simpa using congrArg String.toList he
    · simp [hp, String.toList_append]

/-- Uploads of two nodes only share a key if they go to one directory, or if the prefix of the one
node goes on from that of the other. -/
theorem shared_key {n m : Node} {height height' : UInt64} {key : String}
    (hn : covers (uploadPrefix n height) key = true)
    (hm : covers (uploadPrefix m height') key = true) :
    n.target.uploadPrefix = m.target.uploadPrefix ∧ height = height' ∨
      Extends n.target.uploadPrefix m.target.uploadPrefix ∨
      Extends m.target.uploadPrefix n.target.uploadPrefix := by
  rw [covers_iff] at hn hm
  rcases List.prefix_or_prefix_of_prefix hn hm with h | h
  · rcases nested_uploads h with hsame | hext
    · exact Or.inl hsame
    · exact Or.inr (Or.inl hext)
  · rcases nested_uploads h with ⟨hp, hh⟩ | hext
    · exact Or.inl ⟨hp.symm, hh.symm⟩
    · exact Or.inr (Or.inr hext)

end Capture

end FleetSnapshot
