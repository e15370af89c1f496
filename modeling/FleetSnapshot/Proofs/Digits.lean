import FleetSnapshot.Text.Blank
import FleetSnapshot.Text.Digits
import Mathlib.Data.Bool.AllAny
import Mathlib.Data.Nat.Digits.Defs
import Mathlib.Tactic.IntervalCases

/-! How numbers are spelled. The readers of numbers go by a grammar of their own: digits of a base, the
most significant first, in letters of either case, and for words a sign in front of them. The digits of a
number are read as the number, behind any number of zeros. -/

namespace FleetSnapshot.Text

section Letters

/-- Only the capitals of ASCII change, and none of them turns into anything but a letter. -/
theorem toLower_cases (c : Char) :
    c.toLower = c ∨ 65 ≤ c.toNat ∧ c.toNat ≤ 90 ∧ c.toLower.toNat = c.toNat + 32 := by
  unfold Char.toLower
  split
  case isTrue h =>
    right
    have hlow : 65 ≤ c.val.toNat := h.1
    have hhigh : c.val.toNat ≤ 90 := h.2
    refine ⟨hlow, hhigh, ?_⟩
    have hstep : (32 : UInt32).toNat = 32 := rfl
    change (c.val + 32).toNat = c.val.toNat + 32
    rw [UInt32.toNat_add, hstep]
    exact Nat.mod_eq_of_lt (by omega)
  case isFalse => exact Or.inl rfl

theorem isBlank_toLower (c : Char) : isBlank c.toLower = isBlank c := by
  rcases toLower_cases c with h | ⟨hlow, hhigh, h⟩
  · rw [h]
  · rw [Bool.eq_iff_iff]
    simp only [isBlank, h, Bool.or_eq_true, Bool.and_eq_true, beq_iff_eq, decide_eq_true_eq]
    omega

theorem digit?_toLower (base : Nat) (c : Char) : digit? base c.toLower = digit? base c := by
  rcases toLower_cases c with h | ⟨hlow, hhigh, h⟩
  · rw [h]
  · have hvalue : c.toNat + 32 - 87 = c.toNat - 55 := by omega
    simp only [digit?, h, hvalue, Bool.and_eq_true, decide_eq_true_eq]
    congr 1
    split_ifs <;> first | rfl | omega

/-- No small letter but a letter's stands for anything else. -/
theorem toLower_eq_iff {a c : Char} (h : ¬ (97 ≤ a.toNat ∧ a.toNat ≤ 122)) (ha : a.toLower = a) :
    c.toLower = a ↔ c = a := by
  refine ⟨fun hc => ?_, fun hc => hc ▸ ha⟩
  rcases toLower_cases c with h' | ⟨hlow, hhigh, h'⟩
  · exact h'.symm.trans hc
  · rw [hc] at h'
    omega

end Letters

section Numerals

variable {base bound n : Nat} {cs : List Char}

theorem digits?_map (base : Nat) (cs : List Char) :
    digits? base (cs.map Char.toLower) = digits? base cs := by
  induction cs with
  | nil => rfl
  | cons c cs ih =>
    unfold digits? at ih ⊢
    rw [List.map_cons, List.mapM_cons, List.mapM_cons, digit?_toLower, ih]

theorem numeral?_map (base : Nat) (cs : List Char) :
    numeral? base (cs.map Char.toLower) = numeral? base cs := by
  cases cs with
  | nil => rfl
  | cons c cs => exact congrArg (Option.map (ofDigits base)) (digits?_map base (c :: cs))

theorem word?_map (base bound : Nat) (cs : List Char) :
    word? base bound (cs.map Char.toLower) = word? base bound cs := by
  cases cs with
  | nil => rfl
  | cons c cs =>
    by_cases hc : c = '+'
    · subst hc
      exact congrArg (Option.filter (· < bound)) (numeral?_map base cs)
    · have hc' : c.toLower ≠ '+' := by rwa [Ne, toLower_eq_iff (by decide) (by decide)]
      have hplain : ∀ (d : Char) (ds : List Char), d ≠ '+' →
          word? base bound (d :: ds) = (numeral? base (d :: ds)).filter (· < bound) := by
        intro d ds hd
        unfold word?
        split
        · rename_i heq
          exact absurd (List.cons.inj heq).1 hd
        · rfl
      rw [List.map_cons, hplain _ _ hc', hplain _ _ hc, ← List.map_cons, numeral?_map]

theorem word?_of_numeral (h : numeral? base cs = some n) (hn : n < bound) :
    word? base bound cs = some n := by
  have hplus : ∀ rest, cs ≠ '+' :: rest := by
    rintro rest rfl
    have hnone : digits? base ('+' :: rest) = none := by
      have hsign : digit? base '+' = none := by simp [digit?]
      simp [digits?, List.mapM_cons, hsign]
    rw [numeral?, hnone] at h
    cases h
    exact nofun
  unfold word?
  split
  · next rest => exact absurd rfl (hplus rest)
  · simp [h, hn]

theorem digits?_append (base : Nat) (cs cs' : List Char) :
    digits? base (cs ++ cs') =
      (digits? base cs).bind fun ds => (digits? base cs').map (ds ++ ·) := by
  unfold digits?
  rw [List.mapM_append]
  cases cs.mapM (digit? base) <;> cases cs'.mapM (digit? base) <;> rfl

theorem digit?_range {c : Char} (h : (digit? base c).isSome) : 48 ≤ c.toNat ∧ c.toNat ≤ 57 ∨
    65 ≤ c.toNat ∧ c.toNat ≤ 70 ∨ 97 ≤ c.toNat ∧ c.toNat ≤ 102 := by
  by_contra hno
  simp only [digit?, Bool.and_eq_true, decide_eq_true_eq] at h
  rw [if_neg (by omega), if_neg (by omega), if_neg (by omega)] at h
  cases h

/-- A digit is none of the marks that a number may come with. -/
theorem digit?_mark {c : Char} (h : (digit? base c).isSome) :
    isBlank c = false ∧ c ∉ ['"', '+', 'x', 'X'] := by
  have hrange := digit?_range h
  refine ⟨?_, ?_⟩
  · rw [Bool.eq_false_iff]
    simp only [isBlank, ne_eq, Bool.or_eq_true, Bool.and_eq_true, beq_iff_eq, decide_eq_true_eq]
    omega
  · have hmarks : ∀ m ∈ ['"', '+', 'x', 'X'], ¬ (48 ≤ m.toNat ∧ m.toNat ≤ 57 ∨
        65 ≤ m.toNat ∧ m.toNat ≤ 70 ∨ 97 ≤ m.toNat ∧ m.toNat ≤ 102) := by
      simp only [List.forall_mem_cons]
      exact ⟨by decide, by decide, by decide, by decide, nofun⟩
    exact fun hc => hmarks c hc hrange

theorem digit?_of_mem {ds : List Nat} (h : digits? base cs = some ds) :
    ∀ c ∈ cs, (digit? base c).isSome := by
  induction cs generalizing ds with
  | nil => exact nofun
  | cons c cs ih =>
    simp only [digits?, List.mapM_cons, Option.bind_eq_bind, Option.bind_eq_some_iff] at h
    obtain ⟨d, hd, ds', hds, -⟩ := h
    exact List.forall_mem_cons.2 ⟨by rw [hd]; rfl, ih hds⟩

/-- The digits of a number are read as the number, the digits of bases below sixteen as well. -/
theorem digits?_toDigits (hdigit : ∀ d < base, digit? base d.digitChar = some d) (hbase : 1 < base)
    (n : Nat) : ∃ ds, digits? base (Nat.toDigits base n) = some ds ∧ ofDigits base ds = n := by
  induction n using Nat.strongRecOn with
  | _ n ih =>
    by_cases hn : n < base
    · refine ⟨[n], ?_, ?_⟩
      · rw [Nat.toDigits_of_lt_base hn]
        simp [digits?, List.mapM_cons, hdigit n hn]
      · simp [ofDigits]
    · obtain ⟨ds, hds, hvalue⟩ := ih (n / base) (Nat.div_lt_self (by omega) hbase)
      have hlast : n % base < base := Nat.mod_lt _ (by omega)
      refine ⟨ds ++ [n % base], ?_, ?_⟩
      · rw [Nat.toDigits_of_base_le hbase (Nat.le_of_not_lt hn), digits?_append, hds]
        simp [digits?, List.mapM_cons, hdigit _ hlast]
      · rw [ofDigits, List.foldl_append]
        change ofDigits base ds * base + n % base = n
        rw [hvalue, Nat.div_add_mod']

/-- Leading zeros count for nothing. -/
theorem digits?_zeros {ds : List Nat} (hbase : 0 < base) (zeros : Nat) (h : digits? base cs = some ds) :
    ∃ ds', digits? base (List.replicate zeros '0' ++ cs) = some ds' ∧
      ofDigits base ds' = ofDigits base ds := by
  induction zeros with
  | zero => exact ⟨ds, h, rfl⟩
  | succ zeros ih =>
    obtain ⟨ds', hds', hsame⟩ := ih
    refine ⟨0 :: ds', ?_, ?_⟩
    · have hzero : digit? base '0' = some 0 := by simp [digit?, hbase]
      rw [List.replicate_succ, List.cons_append]
      unfold digits? at hds' ⊢
      simp [List.mapM_cons, hzero, hds']
    · rw [← hsame, ofDigits, List.foldl_cons]
      simp [ofDigits]

end Numerals

def figures : List Char := "0123456789abcdef".toList

/-- What a digit counts for, in letters of either case. What is no digit counts for sixteen. -/
def weight (c : Char) : Nat := figures.idxOf c.toLower

/-- One or more digits of a base that stand for the number, the most significant first. -/
structure Spells (base : Nat) (cs : List Char) (n : Nat) : Prop where
  some : cs ≠ []
  digits : ∀ c ∈ cs, weight c < base
  value : Nat.ofDigits base (cs.reverse.map weight) = n

section Digits

variable {base bound n : Nat} {c : Char} {cs : List Char}

theorem digit?_letter (h : (digit? 16 c).isSome) : c ∈ "0123456789abcdefABCDEF".toList := by
  rw [← Char.ofNat_toNat c]
  rcases digit?_range h with ⟨hlow, hhigh⟩ | ⟨hlow, hhigh⟩ | ⟨hlow, hhigh⟩ <;>
    generalize c.toNat = k at hlow hhigh <;> interval_cases k <;> decide

theorem digit?_sixteen (c : Char) : digit? 16 c = if weight c < 16 then some (weight c) else none := by
  have hletters : ∀ c ∈ "0123456789abcdefABCDEF".toList,
      digit? 16 c = some (weight c) ∧ weight c < 16 := List.all_iff_forall_prop.1 (by decide +kernel)
  have hfigures : ∀ c ∈ figures, (digit? 16 c).isSome := List.all_iff_forall_prop.1 (by decide +kernel)
  split
  case isTrue h =>
    have hmem : c.toLower ∈ figures := List.idxOf_lt_length_iff.1 h
    have hsome := hfigures _ hmem
    rw [digit?_toLower] at hsome
    exact (hletters c (digit?_letter hsome)).1
  case isFalse h =>
    by_contra hsome
    exact h (hletters c (digit?_letter (Option.ne_none_iff_isSome.1 hsome))).2

/-- The digits of a smaller base are among those of base sixteen. -/
theorem digit?_eq_some_iff (hbase : base ≤ 16) {d : Nat} :
    digit? base c = some d ↔ weight c < base ∧ weight c = d := by
  have hfilter : digit? base c = (digit? 16 c).filter (· < base) := by
    simp only [digit?, Option.filter_filter]
    congr 1
    funext v
    rw [Bool.eq_iff_iff, Bool.and_eq_true, decide_eq_true_eq, decide_eq_true_eq]
    omega
  rw [hfilter, digit?_sixteen, Option.filter_eq_some_iff]
  split <;> simp <;> omega

theorem digits?_eq_some_iff (hbase : base ≤ 16) {ds : List Nat} :
    digits? base cs = some ds ↔ (∀ c ∈ cs, weight c < base) ∧ cs.map weight = ds := by
  induction cs generalizing ds with
  | nil => simp [digits?, eq_comm]
  | cons c cs ih =>
    unfold digits? at ih ⊢
    simp only [List.mapM_cons, Option.bind_eq_bind, Option.bind_eq_some_iff, Option.pure_def,
      Option.some.injEq, digit?_eq_some_iff hbase, ih, List.forall_mem_cons, List.map_cons]
    grind

theorem ofDigits_eq (ds : List Nat) : ofDigits base ds = Nat.ofDigits base ds.reverse := by
  rw [ofDigits, Nat.ofDigits_eq_foldr, List.foldr_reverse]
  congr 1
  funext n d
  simp [Nat.mul_comm, Nat.add_comm]

theorem numeral?_eq_some_iff (hbase : base ≤ 16) : numeral? base cs = some n ↔ Spells base cs n := by
  cases cs with
  | nil =>
    refine ⟨fun h => ?_, fun h => absurd rfl h.some⟩
    cases h
  | cons c cs =>
    rw [numeral?, Option.map_eq_some_iff]
    simp only [digits?_eq_some_iff hbase, ofDigits_eq]
    constructor
    · rintro ⟨_, ⟨hdigits, rfl⟩, hvalue⟩
      exact ⟨List.cons_ne_nil c cs, hdigits, by rw [List.map_reverse, hvalue]⟩
    · rintro ⟨-, hdigits, hvalue⟩
      exact ⟨_, ⟨hdigits, rfl⟩, by rw [← List.map_reverse, hvalue]⟩
    · exact List.cons_ne_nil c cs

/-- A sign is let go in front of the digits, the one sign that a word may have. -/
theorem word?_eq_some_iff (hbase : base ≤ 16) : word? base bound cs = some n ↔
    n < bound ∧ ∃ sign digits, cs = sign ++ digits ∧ (sign = [] ∨ sign = ['+']) ∧
      Spells base digits n := by
  have hplus : ∀ digits, ¬ Spells base ('+' :: digits) n := by
    intro digits h
    have hweight : weight '+' = 16 := by decide
    have := h.digits '+' List.mem_cons_self
    omega
  unfold word?
  split
  · next rest =>
    rw [Option.filter_eq_some_iff, decide_eq_true_eq, numeral?_eq_some_iff hbase, and_comm]
    refine and_congr_right fun _ => ⟨fun h => ⟨['+'], rest, rfl, Or.inr rfl, h⟩, ?_⟩
    rintro ⟨sign, digits, heq, rfl | rfl, h⟩
    · exact absurd (heq ▸ h) (hplus rest)
    · obtain rfl := (List.cons.inj heq).2
      exact h
  · next hno =>
    rw [Option.filter_eq_some_iff, decide_eq_true_eq, numeral?_eq_some_iff hbase, and_comm]
    refine and_congr_right fun _ => ⟨fun h => ⟨[], cs, rfl, Or.inl rfl, h⟩, ?_⟩
    rintro ⟨sign, digits, rfl, rfl | rfl, h⟩
    · exact h
    · exact absurd rfl (hno digits)

end Digits

end FleetSnapshot.Text
