import FleetSnapshot.Proofs.ChainIds

/-! Quantities as nodes write them. Their numbers are read by the grammar for words, behind `0x` and within
blanks and quotes, so that a sign in front of the digits is let go; but a quantity has no sign. -/

namespace FleetSnapshot

namespace Quantity

/-- What counts of a text: what stands between the quotes, once the blanks around these are let go. -/
def Body (s : String) (body : List Char) : Prop :=
  ∃ inner, Text.Stripped Text.isBlank s.toList inner ∧ Text.Stripped (· == '"') inner body

/-- A quantity as it should be written: `0x`, and then digits that stand for it. -/
def Writes (body : List Char) (n : Nat) : Prop :=
  ∃ x digits, body = '0' :: x :: digits ∧ (x = 'x' ∨ x = 'X') ∧ Text.Spells 16 digits n

/-- One that has a sign in front of its digits. -/
def Signs (body : List Char) (n : Nat) : Prop :=
  ∃ x digits, body = '0' :: x :: '+' :: digits ∧ (x = 'x' ∨ x = 'X') ∧ Text.Spells 16 digits n

section Reading

variable {s : String} {body : List Char} {n : Nat} {v : UInt64}

theorem body_iff : Body s body ↔ Text.peel (· == '"') (Text.peel Text.isBlank s.toList) = body := by
  simp only [Body, ← Text.peel_eq_iff, exists_eq_left']

theorem Body.unique {body' : List Char} (h : Body s body) (h' : Body s body') : body = body' :=
  (body_iff.1 h).symm.trans (body_iff.1 h')

/-- No sign is a digit. -/
theorem not_writes_of_signs {m : Nat} (h : Signs body n) : ¬ Writes body m := by
  obtain ⟨x, digits, rfl, -, -⟩ := h
  rintro ⟨x', digits', heq, -, hdigits⟩
  obtain rfl := (List.cons.inj (List.cons.inj heq).2).2
  have hplus : Text.weight '+' = 16 := by decide
  exact absurd (hdigits.digits '+' List.mem_cons_self) (by omega)

theorem writes_or_signs : Writes body n ∨ Signs body n ↔
    ∃ x sign digits, body = '0' :: x :: (sign ++ digits) ∧ (x = 'x' ∨ x = 'X') ∧
      (sign = [] ∨ sign = ['+']) ∧ Text.Spells 16 digits n := by
  constructor
  · rintro (⟨x, digits, rfl, hx, h⟩ | ⟨x, digits, rfl, hx, h⟩)
    · exact ⟨x, [], digits, rfl, hx, Or.inl rfl, h⟩
    · exact ⟨x, ['+'], digits, rfl, hx, Or.inr rfl, h⟩
  · rintro ⟨x, sign, digits, rfl, hx, rfl | rfl, h⟩
    · exact Or.inl ⟨x, digits, rfl, hx, h⟩
    · exact Or.inr ⟨x, digits, rfl, hx, h⟩

theorem word_eq_iff (rest : List Char) :
    (Text.word? 16 UInt64.size rest).map UInt64.ofNat = some v ↔
      Text.word? 16 UInt64.size rest = some v.toNat := by
  rw [Option.map_eq_some_iff]
  constructor
  · rintro ⟨n, hn, rfl⟩
    rw [UInt64.toNat_ofNat_of_lt' ((Text.word?_eq_some_iff (by decide)).1 hn).1, hn]
  · exact fun h => ⟨_, h, UInt64.ofNat_toNat⟩

theorem read?_iff_body : read? s = some v ↔
    ∃ body, Body s body ∧ (Writes body v.toNat ∨ Signs body v.toNat) := by
  rw [ChainId.read?_eq_some_iff]
  simp only [body_iff, exists_eq_left', writes_or_signs]
  constructor
  · rintro ⟨x, rest, hbody, hx, -, hvalue⟩
    rw [word_eq_iff, Text.word?_eq_some_iff (by decide)] at hvalue
    obtain ⟨-, sign, digits, rfl, hsign, hdigits⟩ := hvalue
    exact ⟨x, sign, digits, hbody, hx, hsign, hdigits⟩
  · rintro ⟨x, sign, digits, hbody, hx, hsign, hdigits⟩
    refine ⟨x, sign ++ digits, hbody, hx, fun hnil => hdigits.some (List.append_eq_nil_iff.1 hnil).2, ?_⟩
    rw [word_eq_iff, Text.word?_eq_some_iff (by decide)]
    exact ⟨v.toNat_lt, sign, digits, rfl, hsign, hdigits⟩

end Reading

/-- Digits that are those of the number behind zeros, in letters of either case. -/
theorem spells_of_lower {n zeros : Nat} {digits : List Char}
    (h : digits.map Char.toLower = List.replicate zeros '0' ++ Nat.toDigits 16 n) :
    Text.Spells 16 digits n := by
  have hletter : ∀ d < 16, Text.digit? 16 d.digitChar = some d := by decide
  obtain ⟨ds, hds, hvalue⟩ := Text.digits?_toDigits hletter (by decide) n
  obtain ⟨ds', hds', hsame⟩ := Text.digits?_zeros (by decide) zeros hds
  rw [← h, Text.digits?_map] at hds'
  rw [← Text.numeral?_eq_some_iff (by decide)]
  cases digits with
  | nil => simp [Nat.toDigits_ne_nil] at h
  | cons c digits =>
    change (Text.digits? 16 (c :: digits)).map (Text.ofDigits 16) = some n
    rw [hds', Option.map_some, hsame, hvalue]

/-- A quantity with nothing around it is all that counts. -/
theorem body_of_writes {body : List Char} {n : Nat} (h : Writes body n) :
    Body (String.ofList body) body := by
  obtain ⟨x, digits, rfl, hx, hdigits⟩ := h
  have hmarks : ∀ c ∈ '0' :: x :: digits, Text.isBlank c = false ∧ (c == '"') = false := by
    intro c hc
    rcases List.mem_cons.1 hc with rfl | hc
    · decide
    rcases List.mem_cons.1 hc with rfl | hc
    · rcases hx with rfl | rfl <;> decide
    · have hdigit : Text.digit? 16 c = some (Text.weight c) :=
        (Text.digit?_eq_some_iff (by decide)).2 ⟨hdigits.digits c hc, rfl⟩
      obtain ⟨hblank, hmark⟩ := Text.digit?_mark (by rw [hdigit]; rfl : (Text.digit? 16 c).isSome)
      exact ⟨hblank, beq_false_of_ne fun heq => hmark (by simp [heq])⟩
  rw [body_iff, String.toList_ofList, Text.peel_self fun c hc => (hmarks c hc).1,
    Text.peel_self fun c hc => (hmarks c hc).2]

/-- A text is read as a number just if what counts of it writes that number behind `0x`, or does so but
for a sign in front of the digits. So it is only for such a sign that anything else than a quantity is
read, and every way to write a number that fits is read as the number. -/
theorem read_iff_written (s : String) :
    (∀ v, read? s = some v ↔ ∃ body, Body s body ∧ (Writes body v.toNat ∨ Signs body v.toNat)) ∧
      ((∀ v, read? s = some v ↔ ∃ body, Body s body ∧ Writes body v.toNat) ↔
        ∀ body n, Body s body → Signs body n → UInt64.size ≤ n) ∧
      ∀ n x zeros digits, n < UInt64.size → (x = 'x' ∨ x = 'X') →
        digits.map Char.toLower = List.replicate zeros '0' ++ Nat.toDigits 16 n →
        s = String.ofList ('0' :: x :: digits) → read? s = some (UInt64.ofNat n) := by
  refine ⟨fun v => read?_iff_body, ⟨fun h body n hbody hsigns => ?_, fun h v => ?_⟩, ?_⟩
  · by_contra hfits
    have hvalue : (UInt64.ofNat n).toNat = n := UInt64.toNat_ofNat_of_lt' (Nat.lt_of_not_le hfits)
    have hread : read? s = some (UInt64.ofNat n) :=
      read?_iff_body.2 ⟨body, hbody, Or.inr (hvalue.symm ▸ hsigns)⟩
    obtain ⟨body', hbody', hwrites⟩ := (h _).1 hread
    exact not_writes_of_signs hsigns (hbody.unique hbody' ▸ hwrites)
  · rw [read?_iff_body]
    refine exists_congr fun body => and_congr_right fun hbody => or_iff_left fun hsigns => ?_
    exact absurd v.toNat_lt (Nat.not_lt.2 (h body _ hbody hsigns))
  · rintro n x zeros digits hn hx hdigits rfl
    have hwrites : Writes ('0' :: x :: digits) n := ⟨x, digits, rfl, hx, spells_of_lower hdigits⟩
    exact read?_iff_body.2 ⟨_, body_of_writes hwrites, Or.inl (by rwa [UInt64.toNat_ofNat_of_lt' hn])⟩

theorem read_iff_written_capitals :
    171 < UInt64.size ∧ ['0', '0', 'a', 'B'].map Char.toLower =
        List.replicate 2 '0' ++ Nat.toDigits 16 171 ∧
      read? "0X00aB" = some 171 := by
  have hdigits : ['0', '0', 'a', 'B'].map Char.toLower = List.replicate 2 '0' ++ Nat.toDigits 16 171 := by
    decide
  have hrendered : "0X00aB" = String.ofList ['0', 'X', '0', '0', 'a', 'B'] := by decide
  exact ⟨by decide, hdigits,
    (read_iff_written "0X00aB").2.2 171 'X' 2 _ (by decide) (Or.inr rfl) hdigits hrendered⟩

/-- A sign is read as if it were not there. -/
theorem signed_quantity_read :
    read? "0x+3e8" = some 1000 ∧ ∀ body n, Body "0x+3e8" body → ¬ Writes body n := by
  refine ⟨by decide +kernel, fun body n hbody => ?_⟩
  have hsigns : Signs "0x+3e8".toList 1000 :=
    ⟨'x', ['3', 'e', '8'], by decide, Or.inl rfl, by decide, List.all_iff_forall_prop.1 (by decide),
      by decide⟩
  have hsame : Body "0x+3e8" "0x+3e8".toList := body_iff.2 (by decide +kernel)
  exact hbody.unique hsame ▸ not_writes_of_signs hsigns

end Quantity

end FleetSnapshot
