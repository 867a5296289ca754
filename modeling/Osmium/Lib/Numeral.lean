import Mathlib.Data.List.DropRight
import Mathlib.Data.Nat.Log
import Osmium.Lib.Calendar
import Osmium.Lib.Machine

/-! Decimal numerals of any length: what a digit string stands for, how it is read into an integer
of fixed width, and the shortest numeral of a number. -/

namespace Numeral
open Machine Calendar

section Value

theorem digitsValue_nil : digitsValue [] = 0 := rfl

theorem digitsValue_concat (digits : List UInt8) (digit : UInt8) :
    digitsValue (digits ++ [digit]) = digitsValue digits * 10 + (digit.toNat - 48) := by
  simp [digitsValue]

theorem digitsValue_append (before rest : List UInt8) :
    digitsValue (before ++ rest) = digitsValue before * 10 ^ rest.length + digitsValue rest := by
  induction rest using List.reverseRecOn with
  | nil => simp [digitsValue_nil]
  | append_singleton rest digit ih =>
    rw [← List.append_assoc, digitsValue_concat, digitsValue_concat, ih, List.length_append,
      List.length_singleton, pow_succ]
    ring

theorem toNat_of_isDigit {digit : UInt8} (h : isDigit digit = true) :
    48 ≤ digit.toNat ∧ digit.toNat ≤ 57 := by
  simpa [isDigit, UInt8.le_iff_toNat_le] using h

theorem digitsValue_lt {digits : List UInt8} (h : digits.all isDigit = true) :
    digitsValue digits < 10 ^ digits.length := by
  induction digits using List.reverseRecOn with
  | nil => simp [digitsValue_nil]
  | append_singleton digits digit ih =>
    rw [List.all_append, Bool.and_eq_true] at h
    have hdigit := toNat_of_isDigit (by simpa using h.2 : isDigit digit = true)
    have hrest := ih h.1
    rw [digitsValue_concat, List.length_append, List.length_singleton, pow_succ]
    omega

/-- Only zeros stand for zero. -/
theorem digitsValue_eq_zero {digits : List UInt8} (h : digits.all isDigit = true) :
    digitsValue digits = 0 ↔ digits.all (fun digit => digit = 48) = true := by
  induction digits using List.reverseRecOn with
  | nil => simp [digitsValue_nil]
  | append_singleton digits digit ih =>
    rw [List.all_append, Bool.and_eq_true] at h
    have hdigit := toNat_of_isDigit (by simpa using h.2 : isDigit digit = true)
    have hlast : digit.toNat - 48 = 0 ↔ digit = 48 := by
      rw [← UInt8.toNat_inj]
      change _ ↔ digit.toNat = 48
      omega
    rw [digitsValue_concat, List.all_append, Bool.and_eq_true, ← ih h.1, Nat.add_eq_zero_iff, hlast]
    simp

theorem all_isDigit_drop {digits : List UInt8} (h : digits.all isDigit = true) (count : ℕ) :
    (digits.drop count).all isDigit = true :=
  List.all_eq_true.2 fun digit hdigit => List.all_eq_true.1 h digit (List.mem_of_mem_drop hdigit)

/-- Dividing by a power of ten cuts digits off the end; it is exact when these are zeros. -/
theorem digitsValue_eq_mul_pow_iff {digits : List UInt8} (h : digits.all isDigit = true)
    {kept removed : ℕ} (hsum : kept + removed = digits.length) (value : ℕ) :
    digitsValue digits = value * 10 ^ removed ↔
      value = digitsValue (digits.take kept) ∧
      (digits.drop kept).all (fun digit => digit = 48) = true := by
  have hdrop := all_isDigit_drop h kept
  have hlength : (digits.drop kept).length = removed := by
    rw [List.length_drop]
    omega
  have hlow : digitsValue (digits.drop kept) < 10 ^ removed := hlength ▸ digitsValue_lt hdrop
  have hsplit : digitsValue digits =
      digitsValue (digits.take kept) * 10 ^ removed + digitsValue (digits.drop kept) := by
    rw [← hlength, ← digitsValue_append, List.take_append_drop]
  rw [hsplit, ← digitsValue_eq_zero hdrop]
  refine ⟨fun heq => ?_, fun ⟨hvalue, hzero⟩ => by rw [hvalue, hzero, add_zero]⟩
  have hquotient : digitsValue (digits.take kept) = value := by
    have hdiv := congrArg (· / 10 ^ removed) heq
    have htens : 0 < 10 ^ removed := Nat.pow_pos (by norm_num)
    simp only [Nat.mul_div_cancel _ htens, Nat.add_comm _ (digitsValue (List.drop _ _)),
      Nat.add_mul_div_right _ _ htens, Nat.div_eq_of_lt hlow, zero_add] at hdiv
    exact hdiv
  refine ⟨hquotient.symm, ?_⟩
  rw [hquotient] at heq
  omega

end Value

section Reading
variable {w : ℕ}

/-- The value with one more digit, if it still fits. -/
def pushDigit (value : Unsigned w) (digit : UInt8) : Option (Unsigned w) := do
  let tens ← Unsigned.ofNat? w (value.val * 10)
  Unsigned.ofNat? w (tens.val + (digit.toNat - 48))

/-- The digits read one by one into an integer of fixed width. -/
def accumulate (w : ℕ) (digits : List UInt8) : Option (Unsigned w) := digits.foldlM pushDigit 0

/-- Ten times the value, `count` times over. -/
def timesTen : ℕ → Unsigned w → Option (Unsigned w)
  | 0, value => some value
  | count + 1, value => do
    let tens ← Unsigned.ofNat? w (value.val * 10)
    timesTen count tens

theorem pushDigit_eq_some (value c : Unsigned w) (digit : UInt8) :
    pushDigit value digit = some c ↔ c.val = value.val * 10 + (digit.toNat - 48) := by
  simp only [pushDigit, bind, Option.bind_eq_some_iff, Unsigned.ofNat?_eq_some]
  refine ⟨?_, fun h => ?_⟩
  · rintro ⟨tens, htens, h⟩
    rw [h, htens]
  · have hfits : value.val * 10 < 2 ^ w := by
      have := c.lt
      omega
    exact ⟨⟨_, hfits⟩, rfl, h⟩

theorem le_foldl_digits (digits : List UInt8) (value : ℕ) :
    value ≤ digits.foldl (fun value digit => value * 10 + (digit.toNat - 48)) value := by
  induction digits generalizing value with
  | nil => exact le_rfl
  | cons digit digits ih =>
    refine le_trans ?_ (ih _)
    change value ≤ value * 10 + (digit.toNat - 48)
    omega

/-- No prefix of the digits is larger than the whole, so reading fails only for a number that does
not fit. -/
theorem foldlM_pushDigit_eq_some (digits : List UInt8) (value c : Unsigned w) :
    digits.foldlM pushDigit value = some c ↔
    c.val = digits.foldl (fun value digit => value * 10 + (digit.toNat - 48)) value.val := by
  induction digits generalizing value with
  | nil => simp [Unsigned.ext_iff, eq_comm]
  | cons digit digits ih =>
    simp only [List.foldlM_cons, bind, Option.bind_eq_some_iff, pushDigit_eq_some, ih,
      List.foldl_cons]
    refine ⟨?_, fun h => ?_⟩
    · rintro ⟨next, hnext, h⟩
      rw [h, hnext]
    · have hfits : value.val * 10 + (digit.toNat - 48) < 2 ^ w :=
        lt_of_le_of_lt (le_foldl_digits digits _) (h ▸ c.lt)
      exact ⟨⟨_, hfits⟩, rfl, h⟩

theorem accumulate_eq_some (digits : List UInt8) (c : Unsigned w) : accumulate w digits = some c ↔
    c.val = digitsValue digits :=
  foldlM_pushDigit_eq_some digits 0 c

theorem timesTen_eq_some (count : ℕ) (value c : Unsigned w) : timesTen count value = some c ↔
    c.val = value.val * 10 ^ count := by
  induction count generalizing value with
  | zero => simp [timesTen, Unsigned.ext_iff, eq_comm]
  | succ count ih =>
    simp only [timesTen, bind, Option.bind_eq_some_iff, Unsigned.ofNat?_eq_some, ih]
    have hpow : value.val * 10 ^ (count + 1) = value.val * 10 * 10 ^ count := by
      rw [pow_succ]
      ring
    rw [hpow]
    refine ⟨?_, fun h => ?_⟩
    · rintro ⟨tens, htens, h⟩
      rw [h, htens]
    · have hfits : value.val * 10 < 2 ^ w :=
        lt_of_le_of_lt (Nat.le_mul_of_pos_right _ (Nat.pow_pos (by norm_num))) (h ▸ c.lt)
      exact ⟨⟨_, hfits⟩, rfl, h⟩

end Reading

section Text

/-- The numeral of a number without leading zeros. -/
def decimalText (n : ℕ) : List UInt8 := padded (Nat.log 10 n + 1) n

theorem all_isDigit_decimalText (n : ℕ) : (decimalText n).all isDigit = true :=
  all_isDigit_padded _ _

theorem digitsValue_decimalText (n : ℕ) : digitsValue (decimalText n) = n :=
  digitsValue_padded _ _ (Nat.lt_pow_succ_log_self (by norm_num) n)

theorem head?_padded (width n : ℕ) :
    (padded (width + 1) n).head? = some (UInt8.ofNat (48 + n / 10 ^ width % 10)) := by
  induction width generalizing n with
  | zero => simp [padded]
  | succ width ih => rw [padded, List.head?_append, ih, Nat.div_div_eq_div_mul, ← pow_succ']; rfl

/-- A number that is not zero starts with a digit that is not zero. -/
theorem decimalText_head {n : ℕ} (h : n ≠ 0) : (decimalText n).head? ≠ some 48 := by
  rw [decimalText, head?_padded, ne_eq, Option.some_inj, ← UInt8.toNat_inj, toNat_digit]
  have hlow := Nat.pow_log_le_self 10 h
  have hhigh := Nat.lt_pow_succ_log_self (by norm_num : 1 < 10) n
  have hpos : 1 ≤ n / 10 ^ Nat.log 10 n := (Nat.one_le_div_iff (Nat.pow_pos (by norm_num))).2 hlow
  have hlt : n / 10 ^ Nat.log 10 n < 10 := by
    rw [Nat.div_lt_iff_lt_mul (Nat.pow_pos (by norm_num)), ← pow_succ']
    exact hhigh
  change ¬ 48 + _ = 48
  rw [Nat.mod_eq_of_lt hlt]
  omega

theorem decimalText_zero : decimalText 0 = [48] := by simp [decimalText, padded]

/-- What is left of the digits of a fraction without the zeros at their end. -/
def trimZeros (digits : List UInt8) : List UInt8 := digits.rdropWhile fun digit => digit = 48

theorem digitsValue_trimZeros (digits : List UInt8) : (trimZeros digits).length ≤ digits.length ∧
    digitsValue digits = digitsValue (trimZeros digits) *
      10 ^ (digits.length - (trimZeros digits).length) := by
  obtain ⟨zeros, hzeros⟩ : ∃ zeros, zeros = digits.rtakeWhile fun digit => digit = 48 := ⟨_, rfl⟩
  have hsplit : trimZeros digits ++ zeros = digits := by
    rw [hzeros]
    exact List.rdropWhile_append_rtakeWhile
  have hall : ∀ digit ∈ zeros, digit = 48 := fun digit hdigit => by
    rw [hzeros] at hdigit
    simpa using List.mem_rtakeWhile_imp hdigit
  have hlength : digits.length = (trimZeros digits).length + zeros.length := by
    rw [← List.length_append, hsplit]
  have hvalue : digitsValue zeros = 0 := by
    rw [digitsValue_eq_zero (List.all_eq_true.2 fun digit hdigit => by rw [hall digit hdigit]; rfl)]
    simpa using hall
  refine ⟨by omega, ?_⟩
  nth_rewrite 1 [← hsplit]
  rw [digitsValue_append, hvalue, add_zero, hlength, Nat.add_sub_cancel_left]

theorem all_isDigit_trimZeros {digits : List UInt8} (h : digits.all isDigit = true) :
    (trimZeros digits).all isDigit = true :=
  List.all_eq_true.2 fun digit hdigit =>
    List.all_eq_true.1 h digit ((List.rdropWhile_prefix _ _).subset hdigit)

theorem trimZeros_last (digits : List UInt8) : (trimZeros digits).getLast? ≠ some 48 := by
  intro h
  have hne : trimZeros digits ≠ [] := fun hnil => by simp [hnil] at h
  have hnot := List.rdropWhile_last_not _ digits hne
  rw [List.getLast?_eq_some_getLast hne, Option.some_inj] at h
  exact hnot (decide_eq_true h)

end Text

end Numeral
