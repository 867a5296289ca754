import Osmium.Sanity.Decimal

/-! Decimal text is read without losing anything, and every decimal has one text of its own. -/

namespace Osmium
open Machine Result Calendar Numeral

/-- The number a decimal stands for. -/
def Decimal.value (d : Decimal) : ℚ := d.atoms.val / 10 ^ 18

/-- A text is accepted exactly when it is a literal whose exponent the parser can hold and which
stands for a whole number of atoms in range; the decimal is that number, with nothing cut off or
rounded. -/
theorem decimal_parse_exact (bytes : List UInt8) :
    (∀ d, Decimal.parse bytes = .ok d ↔
      ∃ l : DecimalLiteral, l.text = bytes ∧ l.Admitted ∧ l.value * 10 ^ 18 = d.atoms.val) ∧
    ∀ (l : DecimalLiteral) (d : Decimal), l.text = bytes → Decimal.parse bytes = .ok d →
    d.value = l.value := by
  refine ⟨fun d => ⟨fun h => ?_, ?_⟩, ?_⟩
  · obtain ⟨l, rfl⟩ := literal_of_parse h
    exact ⟨l, rfl, (parse_text l d).1 h⟩
  · rintro ⟨l, rfl, hl⟩
    exact (parse_text l d).2 hl
  · rintro l d rfl h
    rw [Decimal.value, ← ((parse_text l d).1 h).2, mul_div_cancel_right₀ _ (by norm_num)]

section Display

/-- No plus sign, no sign of a zero, no zero before another digit, no empty fraction or one that
ends with a zero, and no exponent. -/
structure DecimalLiteral.Canonical (l : DecimalLiteral) : Prop where
  sign : l.sign ≠ some .plus
  negative : l.sign = some .minus → l.value ≠ 0
  integer : l.integer = [48] ∨ l.integer ≠ [] ∧ l.integer.head? ≠ some 48
  fraction : ∀ digits, l.fraction = some digits → digits ≠ [] ∧ digits.getLast? ≠ some 48
  exponent : l.exponent = none

def Decimal.integerPart (d : Decimal) : ℕ := d.atoms.val.natAbs / Decimal.scaleFactor

def Decimal.fractionPart (d : Decimal) : ℕ := d.atoms.val.natAbs % Decimal.scaleFactor

theorem decimalText_ne_nil (n : ℕ) : decimalText n ≠ [] := by
  rw [← List.length_pos_iff, decimalText, length_padded]
  omega

/-- The digits after the point, none for a whole number. -/
def Decimal.fractionDigits (d : Decimal) : Option (List UInt8) :=
  if d.fractionPart ≠ 0 then some (trimZeros (padded 18 d.fractionPart)) else none

theorem Decimal.all_fractionDigits (d : Decimal) :
    (d.fractionDigits.getD []).all isDigit = true := by
  rw [Decimal.fractionDigits]
  split_ifs
  · rw [Option.getD_some]
    exact all_isDigit_trimZeros (all_isDigit_padded _ _)
  · rfl

/-- The literal that is displayed. -/
def Decimal.literal (d : Decimal) : DecimalLiteral where
  sign := if d.atoms.val < 0 then some .minus else none
  integer := decimalText d.integerPart
  fraction := d.fractionDigits
  exponent := none
  integerDigits := all_isDigit_decimalText _
  fractionDigits := d.all_fractionDigits
  someDigit := .inl (decimalText_ne_nil _)

theorem Decimal.literal_text (d : Decimal) : d.literal.text = d.display := by
  simp only [DecimalLiteral.text, Decimal.literal, Decimal.display, exponentText, List.append_nil,
    List.append_assoc]
  congr 1
  · split_ifs <;> rfl
  · congr 1
    rw [Decimal.fractionDigits, Decimal.fractionPart]
    by_cases hfraction : d.atoms.val.natAbs % Decimal.scaleFactor ≠ 0
    · rw [if_pos hfraction, if_pos hfraction, fractionText, List.singleton_append]
    · rw [if_neg hfraction, if_neg hfraction, fractionText]

theorem Decimal.fractionPart_lt (d : Decimal) : d.fractionPart < 10 ^ 18 := Nat.mod_lt _ (by decide)

/-- The zeros that are left out are those the scale puts back. -/
theorem Decimal.literal_digits (d : Decimal) : (d.literal.fraction.getD []).length ≤ 18 ∧
    digitsValue d.literal.digits * 10 ^ (18 - (d.literal.fraction.getD []).length) =
      d.atoms.val.natAbs := by
  have hsplit : d.integerPart * 10 ^ 18 + d.fractionPart = d.atoms.val.natAbs :=
    Nat.div_add_mod' _ _
  obtain ⟨hlength, hvalue⟩ := digitsValue_trimZeros (padded 18 d.fractionPart)
  rw [length_padded, digitsValue_padded _ _ d.fractionPart_lt] at hvalue
  rw [length_padded] at hlength
  simp only [DecimalLiteral.digits, Decimal.literal, Decimal.fractionDigits]
  by_cases hfraction : d.fractionPart ≠ 0
  · rw [if_pos hfraction, Option.getD_some, digitsValue_append, digitsValue_decimalText]
    refine ⟨hlength, ?_⟩
    rw [add_mul, mul_assoc, ← pow_add, Nat.add_sub_cancel' hlength, ← hvalue, hsplit]
  · rw [if_neg hfraction, Option.getD_none, List.append_nil, digitsValue_decimalText]
    rw [not_not] at hfraction
    exact ⟨by simp, by simpa [hfraction] using hsplit⟩

theorem Decimal.literal_value (d : Decimal) : d.literal.value * 10 ^ 18 = d.atoms.val := by
  obtain ⟨hlength, hdigits⟩ := d.literal_digits
  have hshift : d.literal.shift = ((18 - (d.literal.fraction.getD []).length : ℕ) : ℤ) := by
    rw [DecimalLiteral.shift]
    change 18 + 0 - _ = _
    omega
  have hmagnitude : (digitsValue d.literal.digits : ℚ) * 10 ^ d.literal.shift =
      (d.atoms.val.natAbs : ℕ) := by
    rw [hshift, zpow_natCast, ← hdigits]
    push_cast
    rfl
  rw [d.literal.value_mul_scale, hmagnitude, Nat.cast_natAbs]
  change (if (if d.atoms.val < 0 then some Sign.minus else none) = some Sign.minus then
      (-1 : ℚ) else 1) * _ = _
  by_cases hneg : d.atoms.val < 0
  · rw [if_pos hneg, if_pos rfl, abs_of_neg hneg]
    push_cast
    ring
  · rw [if_neg hneg, if_neg (by simp), abs_of_nonneg (by omega), one_mul]

theorem Decimal.parse_display (d : Decimal) : Decimal.parse d.display = .ok d := by
  rw [← d.literal_text, parse_text]
  obtain ⟨hlength, -⟩ := d.literal_digits
  have hexponent : exponentValue d.literal.exponent = 0 := rfl
  refine ⟨?_, d.literal_value⟩
  simp only [DecimalLiteral.Admitted, FitsI64, hexponent]
  omega

theorem Decimal.literal_canonical (d : Decimal) : d.literal.Canonical where
  sign := by
    change (if d.atoms.val < 0 then some Sign.minus else none) ≠ some .plus
    split_ifs <;> simp
  negative := by
    intro hsign hzero
    have hneg : d.atoms.val < 0 := by
      by_contra hneg
      have : (if d.atoms.val < 0 then some Sign.minus else none) = some .minus := hsign
      simp [hneg] at this
    have hvalue := d.literal_value
    rw [hzero, zero_mul, eq_comm, Int.cast_eq_zero] at hvalue
    omega
  integer := by
    by_cases hzero : d.integerPart = 0
    · left
      change decimalText d.integerPart = [48]
      rw [hzero, decimalText_zero]
    · exact .inr ⟨decimalText_ne_nil _, decimalText_head hzero⟩
  fraction := by
    intro digits hdigits
    change d.fractionDigits = some digits at hdigits
    rw [Decimal.fractionDigits] at hdigits
    split_ifs at hdigits with hfraction
    obtain rfl := Option.some_inj.1 hdigits
    refine ⟨fun hnil => hfraction ?_, trimZeros_last _⟩
    have hvalue := (digitsValue_trimZeros (padded 18 d.fractionPart)).2
    rwa [hnil, digitsValue_nil, zero_mul, digitsValue_padded _ _ d.fractionPart_lt] at hvalue
  exponent := rfl

/-- Reading what is displayed gives the decimal back; the text is the decimal's own and has nothing
in it that could be left out. -/
theorem decimal_text_round_trip (d : Decimal) : Decimal.parse d.display = .ok d ∧
    (∀ d' : Decimal, d = d' ↔ d.display = d'.display) ∧ ∃ l : DecimalLiteral, l.text = d.display ∧
    l.Canonical := by
  refine ⟨d.parse_display, fun d' => ⟨fun h => h ▸ rfl, fun h => ?_⟩, d.literal, d.literal_text,
    d.literal_canonical⟩
  have hread := d.parse_display
  rw [h, d'.parse_display, Except.ok.injEq] at hread
  exact hread.symm

example : Decimal.display ⟨⟨-12340000000000000000, by decide, by decide⟩⟩ =
    [45, 49, 50, 46, 51, 52] := by decide +kernel

end Display

end Osmium
