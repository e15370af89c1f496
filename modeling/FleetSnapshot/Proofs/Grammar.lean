import FleetSnapshot.Cron
import FleetSnapshot.Proofs.Digits
import FleetSnapshot.Proofs.Splitting

/-! The grammar of schedules. It is told apart from the reading of them: what a number, an item and a
field may look like, and what there is to say of a text that does not. Validation accepts what the grammar
has and nothing else. Otherwise it tells of the first field that is wrong, and of the first item in it. -/

namespace FleetSnapshot.Cron

/-- Decimal digits with at most one plus in front of them, for a number that fits 32 bits. -/
inductive Number : List Char → Nat → Prop
  | plain {digits : List Char} {n : Nat} (h : Text.Spells 10 digits n) (hfits : n < UInt32.size) :
      Number digits n
  | plus {digits : List Char} {n : Nat} (h : Text.Spells 10 digits n) (hfits : n < UInt32.size) :
      Number ('+' :: digits) n

def Bounded (low high : Nat) (cs : List Char) (n : Nat) : Prop := Number cs n ∧ low ≤ n ∧ n ≤ high

inductive Item (low high : Nat) : List Char → Prop
  | number {cs : List Char} {n : Nat} (h : Bounded low high cs n) : Item low high cs
  | range {first last : List Char} {a b : Nat} (ha : Bounded low high first a)
      (hb : Bounded low high last b) (hle : a ≤ b) : Item low high (first ++ '-' :: last)

/-- What a field may be. A step is not held to the bounds. -/
inductive Entry (low high : Nat) : List Char → Prop
  | star : Entry low high ['*']
  | any : Entry low high ['?']
  | step {cs : List Char} {n : Nat} (h : Number cs n) (hsome : 1 ≤ n) : Entry low high ('*' :: '/' :: cs)
  | list {cs : List Char} {items : List (List Char)} (hitems : Text.Pieces ',' cs items)
      (h : ∀ i ∈ items, Item low high i) : Entry low high cs

/-- The text has none of the other forms, so that it can only be a list. -/
structure Listed (cs : List Char) : Prop where
  star : cs ≠ ['*']
  any : cs ≠ ['?']
  step : ∀ rest, cs ≠ '*' :: '/' :: rest

inductive Field.Misses (f : Field) (cs : List Char) : Fault → Prop
  | unread (h : ∀ n, ¬ Number cs n) : f.Misses cs (.valueInvalid f.name cs)
  | outside {n : Nat} (h : Number cs n) (hout : n < f.low ∨ f.high < n) : f.Misses cs (.outOfBounds f n)

/-- What is wrong with an item. One with a dash is a range up to its first dash, and what is said of the
start goes before what is said of the end, and this before the order of the two. -/
inductive Field.Offends (f : Field) : List Char → Fault → Prop
  | number {cs : List Char} {e : Fault} (hdash : '-' ∉ cs) (h : f.Misses cs e) : f.Offends cs e
  | first {first last : List Char} {e : Fault} (hdash : '-' ∉ first) (h : f.Misses first e) :
      f.Offends (first ++ '-' :: last) e
  | last {first last : List Char} {a : Nat} {e : Fault} (ha : Bounded f.low f.high first a)
      (h : f.Misses last e) : f.Offends (first ++ '-' :: last) e
  | reversed {first last : List Char} {a b : Nat} (ha : Bounded f.low f.high first a)
      (hb : Bounded f.low f.high last b) (hlt : b < a) :
      f.Offends (first ++ '-' :: last) (.reversed f.name a b)

/-- The first of them that is not good, and what is bad about it. -/
def First {α : Type} (good : α → Prop) (bad : α → Fault → Prop) (as : List α) (e : Fault) : Prop :=
  ∃ before a after, as = before ++ a :: after ∧ (∀ b ∈ before, good b) ∧ bad a e

inductive Field.Fails (f : Field) : List Char → Fault → Prop
  | unread {cs : List Char} (h : ∀ n, ¬ Number cs n) :
      f.Fails ('*' :: '/' :: cs) (.stepInvalid f.name cs)
  | zero {cs : List Char} (h : Number cs 0) : f.Fails ('*' :: '/' :: cs) (.stepZero f.name)
  | item {cs : List Char} {items : List (List Char)} {e : Fault} (hlisted : Listed cs)
      (hitems : Text.Pieces ',' cs items) (h : First (Item f.low f.high) f.Offends items e) : f.Fails cs e

section Steps

variable {α β : Type} {e : Fault}

theorem bind_ok_iff {x : Except Fault α} {k : α → Except Fault β} {b : β} :
    x >>= k = .ok b ↔ ∃ a, x = .ok a ∧ k a = .ok b := by
  cases x <;> simp [bind, Except.bind]

theorem bind_error_iff {x : Except Fault α} {k : α → Except Fault β} :
    x >>= k = .error e ↔ x = .error e ∨ ∃ a, x = .ok a ∧ k a = .error e := by
  cases x <;> simp [bind, Except.bind]

theorem first_cons {good : α → Prop} {bad : α → Fault → Prop} {a : α} {as : List α} :
    First good bad (a :: as) e ↔ bad a e ∨ good a ∧ First good bad as e := by
  constructor
  · rintro ⟨before, b, after, heq, hgood, hbad⟩
    cases before with
    | nil =>
      cases heq
      exact Or.inl hbad
    | cons c before =>
      cases heq
      rw [List.forall_mem_cons] at hgood
      exact Or.inr ⟨hgood.1, before, b, after, rfl, hgood.2, hbad⟩
  · rintro (hbad | ⟨ha, before, b, after, rfl, hgood, hbad⟩)
    · exact ⟨[], a, as, rfl, nofun, hbad⟩
    · exact ⟨a :: before, b, after, rfl, List.forall_mem_cons.2 ⟨ha, hgood⟩, hbad⟩

theorem forM_ok_iff {g : α → Except Fault Unit} {as : List α} :
    forM as g = .ok () ↔ ∀ a ∈ as, g a = .ok () := by
  induction as with
  | nil => simp [pure, Except.pure]
  | cons a as ih =>
    rw [List.forM_cons, bind_ok_iff, ih, List.forall_mem_cons]
    exact ⟨fun ⟨_, h⟩ => h, fun h => ⟨(), h⟩⟩

/-- To go through a list comes to an end at the first that fails. -/
theorem forM_error_iff {g : α → Except Fault Unit} {as : List α} :
    forM as g = .error e ↔ First (fun a => g a = .ok ()) (fun a e => g a = .error e) as e := by
  induction as with
  | nil => simp [First, pure, Except.pure]
  | cons a as ih =>
    rw [List.forM_cons, bind_error_iff, first_cons, ih]
    exact or_congr_right ⟨fun ⟨_, h⟩ => h, fun h => ⟨(), h⟩⟩

end Steps

section Numbers

variable {f : Field} {cs : List Char} {n : Nat} {e : Fault}

theorem word?_iff : Text.word? 10 UInt32.size cs = some n ↔ Number cs n := by
  rw [Text.word?_eq_some_iff (by decide)]
  constructor
  · rintro ⟨hfits, sign, digits, rfl, rfl | rfl, h⟩
    · exact .plain h hfits
    · exact .plus h hfits
  · rintro (⟨h, hfits⟩ | ⟨h, hfits⟩)
    · exact ⟨hfits, [], _, rfl, Or.inl rfl, h⟩
    · exact ⟨hfits, ['+'], _, rfl, Or.inr rfl, h⟩

theorem word?_none_iff : Text.word? 10 UInt32.size cs = none ↔ ∀ n, ¬ Number cs n := by
  simp only [Option.eq_none_iff_forall_ne_some, ne_eq, word?_iff]

/-- The marks of the grammar are no characters of a number. -/
theorem Number.unmarked (h : Number cs n) : cs ≠ [] ∧ ∀ c ∈ cs, c ∉ ['*', '?', '-'] := by
  have hmarks : ∀ c ∈ ['*', '?', '-'], Text.weight c = 16 := List.all_iff_forall_prop.1 (by decide)
  have hdigits : ∀ {digits : List Char}, Text.Spells 10 digits n → ∀ c ∈ digits, c ∉ ['*', '?', '-'] := by
    intro digits h c hc hmark
    have hweight := h.digits c hc
    rw [hmarks c hmark] at hweight
    omega
  cases h with
  | plain h => exact ⟨h.some, hdigits h⟩
  | plus h => exact ⟨List.cons_ne_nil _ _, List.forall_mem_cons.2 ⟨by decide, hdigits h⟩⟩

theorem Bounded.no_dash {low high : Nat} (h : Bounded low high cs n) : '-' ∉ cs :=
  fun hdash => h.1.unmarked.2 '-' hdash (by decide)

theorem value_of_number (h : Number cs n) : f.value cs =
    if f.low ≤ n ∧ n ≤ f.high then .ok n else .error (.outOfBounds f n) := by
  rw [Field.value, word?_iff.2 h]
  simp only [Bool.and_eq_true, decide_eq_true_eq]

theorem value_of_none (h : ∀ n, ¬ Number cs n) : f.value cs = .error (.valueInvalid f.name cs) := by
  rw [Field.value, word?_none_iff.2 h]

theorem value_ok_iff : f.value cs = .ok n ↔ Bounded f.low f.high cs n := by
  constructor
  · intro h
    by_cases hnumber : ∃ m, Number cs m
    · obtain ⟨m, hm⟩ := hnumber
      rw [value_of_number hm] at h
      split at h
      case isTrue hin =>
        cases h
        exact ⟨hm, hin⟩
      case isFalse => cases h
    · rw [value_of_none (not_exists.1 hnumber)] at h
      cases h
  · rintro ⟨hn, hin⟩
    rw [value_of_number hn, if_pos hin]

theorem value_error_iff : f.value cs = .error e ↔ f.Misses cs e := by
  constructor
  · intro h
    by_cases hnumber : ∃ n, Number cs n
    · obtain ⟨n, hn⟩ := hnumber
      rw [value_of_number hn] at h
      split at h
      case isTrue => cases h
      case isFalse hout =>
        cases h
        exact .outside hn (by omega)
    · rw [value_of_none (not_exists.1 hnumber)] at h
      cases h
      exact .unread (not_exists.1 hnumber)
  · rintro (h | ⟨h, hout⟩)
    · exact value_of_none h
    · rw [value_of_number h, if_neg (by omega)]

end Numbers

section Items

variable {f : Field} {cs first last : List Char} {a : Nat} {e : Fault}

theorem item_of_number (h : '-' ∉ cs) : f.item cs = f.value cs >>= fun _ => .ok () := by
  rw [Field.item, Text.cut?_absent h]
  rfl

theorem item_of_range (h : '-' ∉ first) : f.item (first ++ '-' :: last) =
    f.value first >>= fun a => f.value last >>= fun b =>
      if b < a then .error (.reversed f.name a b) else .ok () := by
  rw [Field.item, Text.cut?_first h]
  rfl

/-- Once the start of a range is known, the rest is up to its end. -/
theorem item_from (h : Bounded f.low f.high first a) : f.item (first ++ '-' :: last) =
    f.value last >>= fun b => if b < a then .error (.reversed f.name a b) else .ok () := by
  rw [item_of_range h.no_dash, value_ok_iff.2 h]
  rfl

theorem item_ok_iff : f.item cs = .ok () ↔ Item f.low f.high cs := by
  constructor
  · intro h
    -- no number has a dash, so a text with one is a range or nothing, cut where the first dash is
    by_cases hdash : '-' ∈ cs
    · obtain ⟨first, last, rfl, hfirst⟩ := List.eq_append_cons_of_mem hdash
      rw [item_of_range hfirst, bind_ok_iff] at h
      obtain ⟨a, ha, h⟩ := h
      obtain ⟨b, hb, h⟩ := bind_ok_iff.1 h
      split at h
      case isTrue => cases h
      case isFalse hle => exact .range (value_ok_iff.1 ha) (value_ok_iff.1 hb) (Nat.le_of_not_lt hle)
    · rw [item_of_number hdash, bind_ok_iff] at h
      obtain ⟨n, hn, -⟩ := h
      exact .number (value_ok_iff.1 hn)
  · rintro (h | ⟨ha, hb, hle⟩)
    · rw [item_of_number h.no_dash, value_ok_iff.2 h]
      rfl
    · rw [item_from ha, bind_ok_iff]
      exact ⟨_, value_ok_iff.2 hb, if_neg (Nat.not_lt.2 hle)⟩

theorem item_error_iff : f.item cs = .error e ↔ f.Offends cs e := by
  constructor
  · intro h
    by_cases hdash : '-' ∈ cs
    · obtain ⟨first, last, rfl, hfirst⟩ := List.eq_append_cons_of_mem hdash
      rw [item_of_range hfirst, bind_error_iff] at h
      rcases h with hmiss | ⟨a, ha, h⟩
      · exact .first hfirst (value_error_iff.1 hmiss)
      rcases bind_error_iff.1 h with hmiss | ⟨b, hb, h⟩
      · exact .last (value_ok_iff.1 ha) (value_error_iff.1 hmiss)
      split at h
      case isTrue hlt =>
        cases h
        exact .reversed (value_ok_iff.1 ha) (value_ok_iff.1 hb) hlt
      case isFalse => cases h
    · rw [item_of_number hdash, bind_error_iff] at h
      rcases h with hmiss | ⟨-, -, h⟩
      · exact .number hdash (value_error_iff.1 hmiss)
      · cases h
  · intro h
    cases h with
    | number hdash h => exact item_of_number hdash ▸ bind_error_iff.2 (Or.inl (value_error_iff.2 h))
    | first hdash h => exact item_of_range hdash ▸ bind_error_iff.2 (Or.inl (value_error_iff.2 h))
    | last ha h => exact item_from ha ▸ bind_error_iff.2 (Or.inl (value_error_iff.2 h))
    | reversed ha hb hlt =>
      rw [item_from ha, bind_error_iff]
      exact Or.inr ⟨_, value_ok_iff.2 hb, if_pos hlt⟩

/-- An item begins with a digit or a plus. -/
theorem Item.begins {low high : Nat} (h : Item low high cs) : ∃ c rest, cs = c :: rest ∧ c ≠ '*' ∧ c ≠ '?' := by
  have hnumber : ∀ {first : List Char} {n : Nat}, Bounded low high first n →
      ∃ c rest, first = c :: rest ∧ c ≠ '*' ∧ c ≠ '?' := by
    intro first n h
    obtain ⟨hsome, hmarks⟩ := h.1.unmarked
    obtain ⟨c, rest, rfl⟩ := List.exists_cons_of_ne_nil hsome
    have hc := hmarks c List.mem_cons_self
    simp only [List.mem_cons, not_or] at hc
    exact ⟨c, rest, rfl, hc.1, hc.2.1⟩
  cases h with
  | number h => exact hnumber h
  | range ha =>
    obtain ⟨c, rest, rfl, hc⟩ := hnumber ha
    exact ⟨c, _, rfl, hc⟩

end Items

section Entries

variable {f : Field} {cs : List Char} {e : Fault}

theorem check_of_step (f : Field) (cs : List Char) : f.check ('*' :: '/' :: cs) =
    match Text.word? 10 UInt32.size cs with
    | none => .error (.stepInvalid f.name cs)
    | some 0 => .error (.stepZero f.name)
    | some (_ + 1) => .ok () := rfl

theorem items_eq (items : List (List Char)) : f.items items = forM items f.item := by
  induction items with
  | nil => rfl
  | cons i items ih => rw [Field.items, ih, List.forM_cons]

theorem check_of_listed (h : Listed cs) : f.check cs = forM (Text.fields ',' cs) f.item := by
  have hstep : Text.strip? ['*', '/'] cs = none :=
    Option.eq_none_iff_forall_ne_some.2 fun rest hrest => h.step rest (Text.strip?_eq_some hrest)
  rw [Field.check, hstep, if_neg (by simp [h.star, h.any])]
  exact items_eq _

theorem forms (cs : List Char) :
    cs = ['*'] ∨ cs = ['?'] ∨ (∃ rest, cs = '*' :: '/' :: rest) ∨ Listed cs := by
  by_cases hstar : cs = ['*']
  · exact Or.inl hstar
  by_cases hany : cs = ['?']
  · exact Or.inr (Or.inl hany)
  by_cases hstep : ∃ rest, cs = '*' :: '/' :: rest
  · exact Or.inr (Or.inr (Or.inl hstep))
  · exact Or.inr (Or.inr (Or.inr ⟨hstar, hany, not_exists.1 hstep⟩))

/-- Items are never taken for one of the other forms. -/
theorem listed_of_items {low high : Nat} {items : List (List Char)} (hitems : Text.Pieces ',' cs items)
    (h : ∀ i ∈ items, Item low high i) : Listed cs := by
  obtain ⟨hsome, -, rfl⟩ := hitems
  obtain ⟨i, items, rfl⟩ := List.exists_cons_of_ne_nil hsome
  obtain ⟨c, i, rfl, hstar, hany⟩ := (h i List.mem_cons_self).begins
  obtain ⟨rest, hrest⟩ : ∃ rest, [','].intercalate ((c :: i) :: items) = c :: rest := by
    cases items with
    | nil => exact ⟨i, by simp⟩
    | cons j items => exact ⟨i ++ ',' :: [','].intercalate (j :: items), by simp⟩
  rw [hrest]
  exact ⟨fun heq => hstar (List.cons.inj heq).1, fun heq => hany (List.cons.inj heq).1,
    fun _ heq => hstar (List.cons.inj heq).1⟩

theorem check_ok_iff : f.check cs = .ok () ↔ Entry f.low f.high cs := by
  constructor
  · intro h
    rcases forms cs with rfl | rfl | ⟨cs, rfl⟩ | hlisted
    · exact .star
    · exact .any
    · rw [check_of_step] at h
      split at h
      · cases h
      · cases h
      · next n hword => exact .step (word?_iff.1 hword) (Nat.le_add_left 1 n)
    · rw [check_of_listed hlisted, forM_ok_iff] at h
      exact .list (Text.fields_pieces ',' cs) fun i hi => item_ok_iff.1 (h i hi)
  · intro h
    cases h with
    | star => rfl
    | any => rfl
    | step h hsome =>
      obtain ⟨n, rfl⟩ := Nat.exists_eq_add_of_le' hsome
      rw [check_of_step, word?_iff.2 h]
    | list hitems h =>
      -- the other forms are tried before the list, and none of them is a list of items
      rw [check_of_listed (listed_of_items hitems h), hitems.fields_eq, forM_ok_iff]
      exact fun i hi => item_ok_iff.2 (h i hi)

theorem check_error_iff : f.check cs = .error e ↔ f.Fails cs e := by
  have hfirst : ∀ items : List (List Char), forM items f.item = .error e ↔
      First (Item f.low f.high) f.Offends items e := by
    intro items
    simp only [forM_error_iff, item_ok_iff, item_error_iff]
  constructor
  · intro h
    rcases forms cs with rfl | rfl | ⟨cs, rfl⟩ | hlisted
    · cases h
    · cases h
    · rw [check_of_step] at h
      split at h
      · next hword =>
        cases h
        exact .unread (word?_none_iff.1 hword)
      · next hword =>
        cases h
        exact .zero (word?_iff.1 hword)
      · cases h
    · rw [check_of_listed hlisted, hfirst] at h
      exact .item hlisted (Text.fields_pieces ',' cs) h
  · intro h
    cases h with
    | unread h => rw [check_of_step, word?_none_iff.2 h]
    | zero h => rw [check_of_step, word?_iff.2 h]
    | item hlisted hitems h =>
      rw [check_of_listed hlisted, hitems.fields_eq, hfirst]
      exact h

end Entries

section Schedules

variable {schedule : String} {fs : List Field} {ws : List (List Char)} {e : Fault}

theorem checkAll_eq (fs : List Field) (ws : List (List Char)) :
    checkAll fs ws = forM (fs.zip ws) fun p => p.1.check p.2 := by
  induction fs generalizing ws with
  | nil => rfl
  | cons f fs ih =>
    cases ws with
    | nil => rfl
    | cons w ws => rw [checkAll, ih, List.zip_cons_cons, List.forM_cons]

theorem checkAll_ok_iff : checkAll fs ws = .ok () ↔ ∀ p ∈ fs.zip ws, Entry p.1.low p.1.high p.2 := by
  simp only [checkAll_eq, forM_ok_iff, check_ok_iff]

theorem checkAll_error_iff : checkAll fs ws = .error e ↔
    First (fun p => Entry p.1.low p.1.high p.2) (fun p => p.1.Fails p.2) (fs.zip ws) e := by
  simp only [checkAll_eq, forM_error_iff, check_ok_iff, check_error_iff]

theorem validate_of_words (h : Text.Words schedule.toList ws) : validate schedule =
    if ws.length = 6 then checkAll fields ws else .error (.fieldCount ws.length schedule) := by
  rw [validate, h.words_eq]
  rfl

theorem checkAll_fields {second minute hour day month weekday : List Char} :
    checkAll fields [second, minute, hour, day, month, weekday] = .ok () ↔
      Entry 0 59 second ∧ Entry 0 59 minute ∧ Entry 0 23 hour ∧ Entry 1 31 day ∧ Entry 1 12 month ∧
        Entry 0 7 weekday := by
  simp [checkAll_ok_iff, fields]

end Schedules

/-- A schedule is accepted just if it falls into six words between blanks and these are entries of the six
fields. If it is not, the error tells how many words there are instead, or what is wrong with the first of
the six that is no entry, the items in it taken in their order as well. -/
theorem grammar_exact (schedule : String) :
    (validate schedule = .ok () ↔ ∃ second minute hour day month weekday,
      Text.Words schedule.toList [second, minute, hour, day, month, weekday] ∧
        Entry 0 59 second ∧ Entry 0 59 minute ∧ Entry 0 23 hour ∧ Entry 1 31 day ∧ Entry 1 12 month ∧
        Entry 0 7 weekday) ∧
    ∀ e, validate schedule = .error e ↔ ∃ ws, Text.Words schedule.toList ws ∧
      (ws.length ≠ 6 ∧ e = .fieldCount ws.length schedule ∨
        ws.length = 6 ∧ First (fun p => Entry p.1.low p.1.high p.2) (fun p => p.1.Fails p.2)
          (fields.zip ws) e) := by
  have hwords := Text.words_sound schedule.toList
  refine ⟨⟨fun h => ?_, ?_⟩, fun e => ⟨fun h => ⟨_, hwords, ?_⟩, ?_⟩⟩
  · rw [validate_of_words hwords] at h
    split at h
    case isTrue hlength =>
      match Text.words schedule.toList, hlength, hwords, h with
      | [_, _, _, _, _, _], _, hwords, h => exact ⟨_, _, _, _, _, _, hwords, checkAll_fields.1 h⟩
    case isFalse => cases h
  · rintro ⟨second, minute, hour, day, month, weekday, hwords, h⟩
    rw [validate_of_words hwords]
    exact checkAll_fields.2 h
  · rw [validate_of_words hwords] at h
    split at h
    case isTrue hlength => exact Or.inr ⟨hlength, checkAll_error_iff.1 h⟩
    case isFalse hlength =>
      cases h
      exact Or.inl ⟨hlength, rfl⟩
  · rintro ⟨ws, hwords, ⟨hlength, rfl⟩ | ⟨hlength, h⟩⟩
    · rw [validate_of_words hwords, if_neg hlength]
    · rw [validate_of_words hwords, if_pos hlength]
      exact checkAll_error_iff.2 h

/-- The hours are the first wrong field, and the second of their items is the first wrong one. -/
example : validate "0 15,45 1-5,9-7,24 0 * *" = .error (.reversed "hour" 9 7) := by
  decide +kernel

end FleetSnapshot.Cron
