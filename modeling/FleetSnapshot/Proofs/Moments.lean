import FleetSnapshot.Audit.Table
import Mathlib.Data.Char
import Mathlib.Tactic.IntervalCases

/-! Moments stand in the order of their texts. The audit store compares times as the texts they are
written in, and the fields of a text have fixed widths, the greatest first, up to the fraction of a
second, which takes as few digits as it needs. What comes behind it is a plus, which stands before
the point and before all digits: so a shorter fraction precedes the longer ones that begin like it. -/

namespace FleetSnapshot.Instant

section Texts

variable {x y : List Char}

theorem append_lt_append {a b : List Char} (hlength : a.length = b.length) (h : a < b) :
    a ++ x < b ++ y := by
  induction a generalizing b with
  | nil =>
    rw [List.length_nil, eq_comm, List.length_eq_zero_iff] at hlength
    subst hlength
    exact absurd h (List.lt_irrefl _)
  | cons c a ih =>
    cases b with
    | nil => cases hlength
    | cons d b =>
      rw [List.cons_append, List.cons_append, List.cons_lt_cons_iff]
      rcases List.cons_lt_cons_iff.1 h with hlt | ⟨heq, hlt⟩
      · exact Or.inl hlt
      · exact Or.inr ⟨heq, ih (Nat.succ.inj hlength) hlt⟩

theorem digitChar_lt {m n : Nat} (h : m < n) (hn : n < 10) :
    Nat.digitChar m < Nat.digitChar n := by
  have hm : m < 10 := by omega
  interval_cases n <;> interval_cases m <;> decide

/-- The last digit comes off the end. -/
theorem padded_succ {width : Nat} (h : 1 ≤ width) (n : Nat) :
    (padded (width + 1) n).toList = (padded width (n / 10)).toList ++ [Nat.digitChar (n % 10)] := by
  simp only [padded, String.toList_ofList]
  rw [Nat.toDigits_eq_if (n := n) (by decide)]
  split
  case isTrue hn =>
    have hzero : n / 10 = 0 := by omega
    have hsame : width + 1 - 1 = (width - 1) + 1 := by omega
    rw [hzero, Nat.mod_eq_of_lt hn, Nat.toDigits_zero, List.length_singleton, List.length_singleton,
      hsame, List.replicate_succ']
  case isFalse =>
    rw [List.length_append, List.length_singleton, Nat.add_sub_add_right, List.append_assoc]

theorem padded_one {n : Nat} (h : n < 10) : (padded 1 n).toList = [Nat.digitChar n] := by
  simp only [padded, String.toList_ofList]
  rw [Nat.toDigits_of_lt_base h]
  rfl

theorem padded_length {width n : Nat} (hwidth : 1 ≤ width) (h : n < 10 ^ width) :
    (padded width n).toList.length = width := by
  induction width, hwidth using Nat.le_induction generalizing n with
  | base => rw [padded_one h, List.length_singleton]
  | succ width hwidth ih =>
    have hn : n / 10 < 10 ^ width := by
      rw [Nat.pow_succ] at h
      omega
    rw [padded_succ hwidth, List.length_append, ih hn, List.length_singleton]

theorem padded_lt {width m n : Nat} (hwidth : 1 ≤ width) (h : m < n) (hn : n < 10 ^ width) :
    (padded width m).toList < (padded width n).toList := by
  induction width, hwidth using Nat.le_induction generalizing m n with
  | base =>
    rw [padded_one (by omega), padded_one hn, List.cons_lt_cons_iff]
    exact Or.inl (digitChar_lt h hn)
  | succ width hwidth ih =>
    have hn' : n / 10 < 10 ^ width := by
      rw [Nat.pow_succ] at hn
      omega
    rw [padded_succ hwidth, padded_succ hwidth]
    rcases Nat.lt_or_ge (m / 10) (n / 10) with hlt | hge
    · refine append_lt_append ?_ (ih hlt hn')
      rw [padded_length hwidth (by omega), padded_length hwidth hn']
    · have heq : m / 10 = n / 10 := by omega
      rw [heq]
      apply List.append_left_lt
      rw [List.cons_lt_cons_iff]
      exact Or.inl (digitChar_lt (by omega) (by omega))

/-- A number of fixed width goes before what follows it. -/
theorem padded_append_lt {width m n : Nat} (hwidth : 1 ≤ width) (hn : n < 10 ^ width)
    (h : m < n ∨ m = n ∧ x < y) : (padded width m).toList ++ x < (padded width n).toList ++ y := by
  rcases h with hlt | ⟨rfl, hlt⟩
  · refine append_lt_append ?_ (padded_lt hwidth hlt hn)
    rw [padded_length hwidth (by omega), padded_length hwidth hn]
  · exact List.append_left_lt hlt

/-- Three digits more. -/
theorem padded_add_three {width : Nat} (h : 1 ≤ width) (n : Nat) :
    (padded (width + 3) n).toList =
      (padded width (n / 1000)).toList ++ (padded 3 (n % 1000)).toList := by
  have hfront : n / 10 / 10 / 10 = n / 1000 := by omega
  have hfirst : n / 10 / 10 % 10 = n % 1000 / 10 / 10 := by omega
  have hsecond : n / 10 % 10 = n % 1000 / 10 % 10 := by omega
  have hthird : n % 10 = n % 1000 % 10 := by omega
  rw [padded_succ (by omega), padded_succ (by omega), padded_succ h, padded_succ (by decide),
    padded_succ (by decide), padded_one (by omega), hfront, hfirst, hsecond, hthird]
  simp only [List.append_assoc]

theorem plus_lt_padded {width n : Nat} (hwidth : 1 ≤ width) (h : n < 10 ^ width) :
    '+' :: x < (padded width n).toList ++ y := by
  induction width, hwidth using Nat.le_induction generalizing n y with
  | base =>
    rw [padded_one h, List.singleton_append, List.cons_lt_cons_iff]
    have hn : n < 10 := h
    exact Or.inl (by interval_cases n <;> decide)
  | succ width hwidth ih =>
    rw [padded_succ hwidth, List.append_assoc]
    apply ih
    rw [Nat.pow_succ] at h
    omega

end Texts

section Fractions

/-- A number below `1000 ^ k` in groups of three digits, which end where only zeros are left. -/
def groups (rest : List Char) : Nat → Nat → List Char
  | 0, _ => rest
  | k + 1, n =>
    if n = 0 then rest
    else (padded 3 (n / 1000 ^ k)).toList ++ groups rest k (n % 1000 ^ k)

theorem groups_zero (rest : List Char) (k : Nat) : groups rest k 0 = rest := by
  cases k with
  | zero => rfl
  | succ k => rw [groups, if_pos rfl]

theorem groups_succ {n : Nat} (h : n ≠ 0) (rest : List Char) (k : Nat) :
    groups rest (k + 1) n =
      (padded 3 (n / 1000 ^ k)).toList ++ groups rest k (n % 1000 ^ k) := by
  rw [groups, if_neg h]

theorem groups_lt {rest : List Char} {k m n : Nat} (h : m < n) (hn : n < 1000 ^ k) :
    groups ('+' :: rest) k m < groups ('+' :: rest) k n := by
  induction k generalizing m n with
  | zero =>
    rw [Nat.pow_zero] at hn
    omega
  | succ k ih =>
    have hpos : 0 < 1000 ^ k := Nat.pow_pos (by decide)
    have hlead : n / 1000 ^ k < 10 ^ 3 := by
      apply Nat.div_lt_of_lt_mul
      rwa [Nat.pow_succ] at hn
    rw [groups_succ (n := n) (by omega)]
    by_cases hm : m = 0
    · rw [hm, groups_zero]
      exact plus_lt_padded (by decide) hlead
    · rw [groups_succ hm]
      apply padded_append_lt (by decide) hlead
      rcases Nat.lt_or_ge (m / 1000 ^ k) (n / 1000 ^ k) with hlt | hge
      · exact Or.inl hlt
      · have heq : m / 1000 ^ k = n / 1000 ^ k :=
          Nat.le_antisymm (Nat.div_le_div_right h.le) hge
        refine Or.inr ⟨heq, ih ?_ (Nat.mod_lt _ hpos)⟩
        have hm' := Nat.div_add_mod m (1000 ^ k)
        have hn' := Nat.div_add_mod n (1000 ^ k)
        rw [heq] at hm'
        omega

/-- A fraction and what follows it. -/
theorem fractionText_append (n : Nat) (rest : List Char) :
    (fractionText n).toList ++ rest = if n = 0 then rest else '.' :: groups rest 3 n := by
  have hmicros : n / 1000 / 1000 = n / 1000000 := by omega
  have hmicros' : n / 1000 % 1000 = n % 1000000 / 1000 := by omega
  have hnanos : n % 1000000 % 1000 = n % 1000 := by omega
  have hdot : ".".toList = ['.'] := rfl
  unfold fractionText
  by_cases hzero : n = 0
  · rw [if_pos hzero, if_pos hzero]
    rfl
  rw [if_neg hzero, if_neg hzero, groups_succ hzero, show (1000 : Nat) ^ 2 = 1000000 from rfl]
  by_cases hmillis : n % 1000000 = 0
  · rw [if_pos hmillis, hmillis, groups_zero, String.toList_append, hdot]
    rfl
  rw [if_neg hmillis, groups_succ hmillis, show (1000 : Nat) ^ 1 = 1000 from rfl, hnanos]
  by_cases hmicro : n % 1000 = 0
  · rw [if_pos hmicro, hmicro, groups_zero, String.toList_append, padded_add_three (by decide),
      hmicros, hmicros', hdot]
    simp only [List.append_assoc, List.cons_append, List.nil_append]
  · rw [if_neg hmicro, groups_succ hmicro, String.toList_append, padded_add_three (by decide),
      padded_add_three (by decide), hmicros, hmicros', hdot, Nat.pow_zero, Nat.div_one, groups]
    simp only [List.append_assoc, List.cons_append, List.nil_append]

end Fractions

section Dates

/-- How many of the centuries of an era have passed. -/
theorem century_of_era {d y : Int} (h0 : 0 ≤ d) (h1 : d ≤ 146096)
    (hy : y = (d - d / 1460 + d / 36524 - d / 146096) / 365) :
    y / 100 = d / 36524 - d / 146096 := by
  have hc : d / 36524 = 0 ∨ d / 36524 = 1 ∨ d / 36524 = 2 ∨ d / 36524 = 3 ∨ d / 36524 = 4 := by
    omega
  rcases hc with hc | hc | hc | hc | hc <;> omega

theorem dayOfYear_bounds {d y : Int} (h0 : 0 ≤ d) (h1 : d ≤ 146096)
    (hy : y = (d - d / 1460 + d / 36524 - d / 146096) / 365) :
    0 ≤ d - (365 * y + y / 4 - y / 100) ∧ d - (365 * y + y / 4 - y / 100) ≤ 365 := by
  have hcentury := century_of_era h0 h1 hy
  have hleaps : y / 4 ≤ d / 1460 := by omega
  have hleaps' : d / 1460 - 1 ≤ y / 4 := by omega
  omega

theorem yearOfEra_mono {d d' : Int} (h : d ≤ d') (h0 : 0 ≤ d) (h1 : d' ≤ 146096) :
    (d - d / 1460 + d / 36524 - d / 146096) / 365 ≤
      (d' - d' / 1460 + d' / 36524 - d' / 146096) / 365 := by
  rcases Int.lt_or_le d' 146096 with hlast | hlast
  · have hzero : d / 146096 = 0 := by omega
    have hzero' : d' / 146096 = 0 := by omega
    have hstep : d - d / 1460 + d / 36524 ≤ d' - d' / 1460 + d' / 36524 := by omega
    omega
  · obtain rfl : d' = 146096 := by omega
    omega

def DateBefore (a b : Int × Int × Int) : Prop :=
  a.1 < b.1 ∨ a.1 = b.1 ∧ (a.2.1 < b.2.1 ∨ a.2.1 = b.2.1 ∧ a.2.2 < b.2.2)

/-- The era of a day, counted from March of a leap year that ends a century, its year of the era and
its day of that year. -/
def marchAt (days : Int) : Int × Int × Int :=
  let z := days + 719468
  let era := z / 146097
  let dayOfEra := z - era * 146097
  let yearOfEra := (dayOfEra - dayOfEra / 1460 + dayOfEra / 36524 - dayOfEra / 146096) / 365
  (era, yearOfEra, dayOfEra - (365 * yearOfEra + yearOfEra / 4 - yearOfEra / 100))

theorem marchAt_bounds (days : Int) :
    0 ≤ (marchAt days).2.1 ∧ (marchAt days).2.1 ≤ 399 ∧ 0 ≤ (marchAt days).2.2 ∧
      (marchAt days).2.2 ≤ 365 := by
  have hera : 0 ≤ days + 719468 - (days + 719468) / 146097 * 146097 ∧
      days + 719468 - (days + 719468) / 146097 * 146097 ≤ 146096 := by omega
  have hday := dayOfYear_bounds hera.1 hera.2 rfl
  simp only [marchAt]
  generalize days + 719468 - (days + 719468) / 146097 * 146097 = d at *
  omega

theorem marchAt_lt {days days' : Int} (h : days < days') :
    DateBefore (marchAt days) (marchAt days') := by
  have hera : 0 ≤ days + 719468 - (days + 719468) / 146097 * 146097 := by omega
  have hera' : days' + 719468 - (days' + 719468) / 146097 * 146097 ≤ 146096 := by omega
  have horder : (days + 719468) / 146097 < (days' + 719468) / 146097 ∨
      (days + 719468) / 146097 = (days' + 719468) / 146097 ∧
        days + 719468 - (days + 719468) / 146097 * 146097 <
          days' + 719468 - (days' + 719468) / 146097 * 146097 := by omega
  simp only [DateBefore, marchAt]
  rcases horder with hlt | ⟨heq, hlt⟩
  · exact Or.inl hlt
  · refine Or.inr ⟨heq, ?_⟩
    generalize days + 719468 - (days + 719468) / 146097 * 146097 = d at *
    generalize days' + 719468 - (days' + 719468) / 146097 * 146097 = d' at *
    have hmono := yearOfEra_mono hlt.le hera hera'
    generalize (d - d / 1460 + d / 36524 - d / 146096) / 365 = y at *
    generalize (d' - d' / 1460 + d' / 36524 - d' / 146096) / 365 = y' at *
    rcases Int.lt_or_eq_of_le hmono with hyear | rfl
    · exact Or.inl hyear
    · exact Or.inr ⟨rfl, by omega⟩

/-- The date of the calendar: the last two months of a year from March are in the year after. -/
def calendarDate (m : Int × Int × Int) : Int × Int × Int :=
  let monthOfYear := (5 * m.2.2 + 2) / 153
  let month := if monthOfYear < 10 then monthOfYear + 3 else monthOfYear - 9
  (m.2.1 + m.1 * 400 + (if month ≤ 2 then 1 else 0), month,
    m.2.2 - (153 * monthOfYear + 2) / 5 + 1)

theorem dateAt_eq (days : Int) : dateAt days = calendarDate (marchAt days) := rfl

theorem dateAt_bounds (days : Int) :
    1 ≤ (dateAt days).2.1 ∧ (dateAt days).2.1 ≤ 12 ∧ 1 ≤ (dateAt days).2.2 ∧
      (dateAt days).2.2 ≤ 31 := by
  obtain ⟨-, -, hday, hday'⟩ := marchAt_bounds days
  rw [dateAt_eq]
  generalize marchAt days = m at *
  dsimp only [calendarDate]
  split <;> omega

theorem dateAt_lt {days days' : Int} (h : days < days') :
    DateBefore (dateAt days) (dateAt days') := by
  obtain ⟨hyear, hyear', hday, hday'⟩ := marchAt_bounds days
  obtain ⟨hyear₁, hyear₁', hday₁, hday₁'⟩ := marchAt_bounds days'
  have hbefore := marchAt_lt h
  rw [dateAt_eq, dateAt_eq]
  generalize marchAt days = m at *
  generalize marchAt days' = m' at *
  dsimp only [DateBefore, calendarDate] at *
  split <;> split <;> split <;> split <;> omega

end Dates

/-- A moment of a year of four digits, and no leap second. -/
structure Common (t : Instant) : Prop where
  fromYear : 0 ≤ (dateAt (t.seconds / 86400)).1
  toYear : (dateAt (t.seconds / 86400)).1 ≤ 9999
  nanos : t.nanos < 1000000000

def Before (t t' : Instant) : Prop :=
  t.seconds < t'.seconds ∨ t.seconds = t'.seconds ∧ t.nanos < t'.nanos

variable {t t' : Instant}

theorem columnText_toList (h : t.Common) :
    let date := dateAt (t.seconds / 86400)
    let second := (t.seconds - t.seconds / 86400 * 86400).toNat
    t.columnText.toList =
      (padded 4 date.1.toNat).toList ++ '-' ::
        ((padded 2 date.2.1.toNat).toList ++ '-' ::
          ((padded 2 date.2.2.toNat).toList ++ 'T' ::
            ((padded 2 (second / 3600)).toList ++ ':' ::
              ((padded 2 (second / 60 % 60)).toList ++ ':' ::
                ((padded 2 (second % 60)).toList ++
                  ((fractionText t.nanos).toList ++ '+' :: "00:00".toList)))))) := by
  have hleap : ¬ 1000000000 ≤ t.nanos := by
    have := h.nanos
    omega
  have hyear : (decide (0 ≤ (dateAt (t.seconds / 86400)).1) &&
      decide ((dateAt (t.seconds / 86400)).1 ≤ 9999)) = true := by
    simp [h.fromYear, h.toYear]
  have hdash : "-".toList = ['-'] := rfl
  have hcolon : ":".toList = [':'] := rfl
  have htime : "T".toList = ['T'] := rfl
  have hzone : "+00:00".toList = '+' :: "00:00".toList := rfl
  simp only [columnText, plainText, yearText, hyear, hleap, if_true, if_false, Nat.add_zero,
    String.toList_append, hdash, hcolon, htime, hzone, List.append_assoc, List.cons_append,
    List.nil_append]

theorem fraction_lt {m n : Nat} (h : m < n) (hn : n < 1000000000) (rest : List Char) :
    (fractionText m).toList ++ '+' :: rest < (fractionText n).toList ++ '+' :: rest := by
  rw [fractionText_append, fractionText_append, if_neg (c := n = 0) (by omega)]
  split
  · rw [List.cons_lt_cons_iff]
    exact Or.inl (by decide)
  · rw [List.cons_lt_cons_iff]
    exact Or.inr ⟨rfl, groups_lt h hn⟩

/-- A field and the sign behind it go before the fields that follow. -/
theorem field_lt {width m n : Nat} {x y : List Char} (sign : Char) (hwidth : 1 ≤ width)
    (hn : n < 10 ^ width) (h : m < n ∨ m = n ∧ x < y) :
    (padded width m).toList ++ sign :: x < (padded width n).toList ++ sign :: y :=
  padded_append_lt hwidth hn
    (h.imp_right (And.imp_right fun hlt => List.cons_lt_cons_iff.2 (Or.inr ⟨rfl, hlt⟩)))

/-- The first field in which two moments differ tells which of them is the earlier one. -/
theorem fields_before (h : t.Common) (h' : t'.Common) (hbefore : t.Before t') :
    let date := dateAt (t.seconds / 86400)
    let date' := dateAt (t'.seconds / 86400)
    let second := (t.seconds - t.seconds / 86400 * 86400).toNat
    let second' := (t'.seconds - t'.seconds / 86400 * 86400).toNat
    date.1.toNat < date'.1.toNat ∨ date.1.toNat = date'.1.toNat ∧
      (date.2.1.toNat < date'.2.1.toNat ∨ date.2.1.toNat = date'.2.1.toNat ∧
        (date.2.2.toNat < date'.2.2.toNat ∨ date.2.2.toNat = date'.2.2.toNat ∧
          (second / 3600 < second' / 3600 ∨ second / 3600 = second' / 3600 ∧
            (second / 60 % 60 < second' / 60 % 60 ∨ second / 60 % 60 = second' / 60 % 60 ∧
              (second % 60 < second' % 60 ∨ second % 60 = second' % 60 ∧
                t.nanos < t'.nanos))))) := by
  dsimp only
  rcases Int.lt_trichotomy (t.seconds / 86400) (t'.seconds / 86400) with hlt | heq | hgt
  · have hdate := dateAt_lt hlt
    obtain ⟨hmonth, -, hday, -⟩ := dateAt_bounds (t.seconds / 86400)
    obtain ⟨hmonth', -, hday', -⟩ := dateAt_bounds (t'.seconds / 86400)
    have hyear := h.fromYear
    have hyear' := h'.fromYear
    generalize dateAt (t.seconds / 86400) = a at *
    generalize dateAt (t'.seconds / 86400) = b at *
    unfold DateBefore at hdate
    omega
  · rw [heq]
    refine Or.inr ⟨rfl, Or.inr ⟨rfl, Or.inr ⟨rfl, ?_⟩⟩⟩
    have hsecond : (t.seconds - t'.seconds / 86400 * 86400).toNat <
        (t'.seconds - t'.seconds / 86400 * 86400).toNat ∨
        (t.seconds - t'.seconds / 86400 * 86400).toNat =
          (t'.seconds - t'.seconds / 86400 * 86400).toNat ∧ t.nanos < t'.nanos := by
      rcases hbefore with hlt | ⟨hsame, hnanos⟩
      · exact Or.inl (by omega)
      · exact Or.inr ⟨by rw [hsame], hnanos⟩
    generalize (t.seconds - t'.seconds / 86400 * 86400).toNat = k at *
    generalize (t'.seconds - t'.seconds / 86400 * 86400).toNat = k' at *
    omega
  · rcases hbefore with hlt | ⟨hsame, -⟩ <;> omega

theorem columnText_lt (h : t.Common) (h' : t'.Common) (hbefore : t.Before t') :
    t.columnText < t'.columnText := by
  obtain ⟨-, hmonth, -, hday⟩ := dateAt_bounds (t'.seconds / 86400)
  have hyear := h'.toYear
  rw [String.lt_iff, columnText_toList h, columnText_toList h']
  apply field_lt '-' (by decide) (by omega)
  refine (fields_before h h' hbefore).imp_right (And.imp_right fun hfields => ?_)
  apply field_lt '-' (by decide) (by omega)
  refine hfields.imp_right (And.imp_right fun hfields => ?_)
  apply field_lt 'T' (by decide) (by omega)
  refine hfields.imp_right (And.imp_right fun hfields => ?_)
  apply field_lt ':' (by decide) (by omega)
  refine hfields.imp_right (And.imp_right fun hfields => ?_)
  apply field_lt ':' (by decide) (by omega)
  refine hfields.imp_right (And.imp_right fun hfields => ?_)
  apply padded_append_lt (by decide) (by omega)
  exact hfields.imp_right (And.imp_right fun hnanos => fraction_lt hnanos h'.nanos _)

theorem before_trichotomy (t t' : Instant) : t.Before t' ∨ t = t' ∨ t'.Before t := by
  obtain ⟨seconds, nanos⟩ := t
  obtain ⟨seconds', nanos'⟩ := t'
  simp only [Before, Instant.mk.injEq]
  omega

/-- Texts are compared as the moments that they tell. -/
theorem columnText_lt_iff (h : t.Common) (h' : t'.Common) :
    t.columnText < t'.columnText ↔ t.Before t' := by
  constructor
  · intro hlt
    rcases before_trichotomy t t' with hbefore | rfl | hafter
    · exact hbefore
    · exact absurd hlt (String.lt_irrefl _)
    · exact absurd hlt (String.lt_asymm (columnText_lt h' h hafter))
  · exact columnText_lt h h'

/-- A shorter fraction precedes a longer one that begins like it. -/
example : (Instant.mk 0 500000000).columnText < (Instant.mk 0 500001000).columnText := by
  decide +kernel

end FleetSnapshot.Instant
