import Osmium.Spec.Decimal

/-! The parser of decimals, one lemma for each of its steps: when it succeeds and with which value.
Literals are the texts of the grammar by their parts. -/

namespace Osmium
open Machine Result Calendar Numeral

section Magnitude

theorem signedMagnitude_eq_ok {w m : ℕ} (hw : 0 < w) (magnitude : Unsigned m) (negative : Bool)
    (a : Signed w) :
    signedMagnitude w magnitude negative = .ok a ↔
    a.val = if negative then -(magnitude.val : ℤ) else magnitude.val := by
  have hpos := Nat.two_pow_pos (w - 1)
  have hleast : (Signed.wrap w (-(2 ^ (w - 1) : ℕ))).val = -(2 ^ (w - 1) : ℕ) :=
    Signed.wrap_val_of_mem _ hw le_rfl (by omega)
  cases negative with
  | false => simp [signedMagnitude, Signed.ofInt?_eq_some]
  | true =>
    simp only [signedMagnitude, if_true]
    by_cases hlimit : magnitude.val = 2 ^ (w - 1)
    · rw [if_pos hlimit, Except.ok.injEq, Signed.ext_iff, hleast, hlimit, eq_comm]
    · rw [if_neg hlimit]
      simp only [bind_eq_ok, okOr_eq_ok, pure_eq_ok, Signed.ofInt?_eq_some]
      have hwrap : ∀ value : Signed w, value.val = magnitude.val →
          (Signed.wrap w (-value.val)).val = -(magnitude.val : ℤ) := by
        intro value hvalue
        have hupper := value.upper
        rw [hvalue] at hupper ⊢
        exact Signed.wrap_val_of_mem _ hw (by omega) (by omega)
      refine ⟨?_, fun h => ?_⟩
      · rintro ⟨value, hvalue, rfl⟩
        exact hwrap value hvalue
      · have hlower := a.lower
        have hfits : (magnitude.val : ℤ) < (2 ^ (w - 1) : ℕ) := by omega
        refine ⟨⟨magnitude.val, by omega, hfits⟩, rfl, ?_⟩
        exact Signed.ext ((hwrap _ rfl).trans h.symm)

theorem retainedDigits_eq_ok {digits : List UInt8} {atomShift : I64} (h : atomShift.val < 0)
    (retained : ℕ) :
    retainedDigits digits atomShift = .ok retained ↔
    retained + atomShift.val.natAbs = digits.length ∧
      (digits.drop retained).all (fun digit => digit = 48) = true := by
  rw [retainedDigits, if_pos h]
  simp only [bind_eq_ok, ensure_eq_ok, pure_eq_ok, exists_and_left, exists_const]
  refine ⟨?_, ?_⟩
  · rintro ⟨hle, hzeros, rfl⟩
    exact ⟨Nat.sub_add_cancel hle, hzeros⟩
  · rintro ⟨hsum, hzeros⟩
    obtain rfl : retained = digits.length - atomShift.val.natAbs := by omega
    exact ⟨by omega, hzeros, rfl⟩

/-- To the right: only zeros may be cut off. -/
theorem shiftedMagnitude_of_neg {digits : List UInt8} (hdigits : digits.all isDigit = true)
    (hpos : digitsValue digits ≠ 0)
    {atomShift : I64} (hsign : atomShift.val < 0) (magnitude : Unsigned 128) :
    shiftedMagnitude digits atomShift = .ok magnitude ↔
      digitsValue digits = magnitude.val * 10 ^ atomShift.val.natAbs := by
  have hnone : atomShift.val.toNat = 0 := by omega
  simp only [shiftedMagnitude, bind_eq_ok, okOr_eq_ok, ensure_eq_ok, exists_and_left, exists_const,
    accumulate_eq_some, timesTen_eq_some, retainedDigits_eq_ok hsign, hnone, pow_zero, mul_one]
  refine ⟨?_, fun h => ?_⟩
  · rintro ⟨retained, ⟨hsum, hzeros⟩, kept, hkept, -, hmagnitude⟩
    exact (digitsValue_eq_mul_pow_iff hdigits hsum _).2 ⟨hmagnitude.trans hkept, hzeros⟩
  · -- a number with fewer digits than are cut off would be below one
    have hfew : atomShift.val.natAbs ≤ digits.length := by
      by_contra hmany
      have hlt := digitsValue_lt hdigits
      have hle : 10 ^ digits.length ≤ 10 ^ atomShift.val.natAbs :=
        Nat.pow_le_pow_right (by norm_num) (by omega)
      rcases Nat.eq_zero_or_pos magnitude.val with hzero | hone
      · rw [hzero, zero_mul] at h
        exact hpos h
      · have := Nat.le_mul_of_pos_left (10 ^ atomShift.val.natAbs) hone
        omega
    have hsum := Nat.sub_add_cancel hfew
    obtain ⟨hvalue, hzeros⟩ := (digitsValue_eq_mul_pow_iff hdigits hsum _).1 h
    exact ⟨_, ⟨hsum, hzeros⟩, magnitude, hvalue, by omega, rfl⟩

/-- To the left: `10 ^ 39` alone is more than 128 bits hold, so the bound on the shift refuses
nothing else. -/
theorem shiftedMagnitude_of_nonneg {digits : List UInt8} (hpos : digitsValue digits ≠ 0)
    {atomShift : I64} (hsign : ¬ atomShift.val < 0) (magnitude : Unsigned 128) :
    shiftedMagnitude digits atomShift = .ok magnitude ↔
      magnitude.val = digitsValue digits * 10 ^ atomShift.val.toNat := by
  simp only [shiftedMagnitude, retainedDigits, if_neg hsign, bind_eq_ok, okOr_eq_ok, ensure_eq_ok,
    exists_and_left,
    exists_const, accumulate_eq_some, timesTen_eq_some, pure_eq_ok, exists_eq_left',
    List.take_length]
  refine ⟨?_, fun h => ?_⟩
  · rintro ⟨kept, hkept, -, hmagnitude⟩
    rw [hmagnitude, hkept]
  · have hle : digitsValue digits ≤ magnitude.val :=
      h ▸ Nat.le_mul_of_pos_right _ (Nat.pow_pos (by norm_num))
    refine ⟨⟨digitsValue digits, lt_of_le_of_lt hle magnitude.lt⟩, rfl, ?_, h⟩
    by_contra hlarge
    have hpow : 10 ^ 39 ≤ 10 ^ atomShift.val.toNat := Nat.pow_le_pow_right (by norm_num) (by omega)
    have hmul := Nat.le_mul_of_pos_left (10 ^ atomShift.val.toNat) (Nat.pos_of_ne_zero hpos)
    have hlt := magnitude.lt
    rw [h] at hlt
    norm_num at hpow hlt
    omega

/-- A whole number of atoms is found exactly when there is one that fits. -/
theorem shiftedMagnitude_eq_ok {digits : List UInt8} (hdigits : digits.all isDigit = true)
    (hpos : digitsValue digits ≠ 0) (atomShift : I64) (magnitude : Unsigned 128) :
    shiftedMagnitude digits atomShift = .ok magnitude ↔
      (magnitude.val : ℚ) = digitsValue digits * 10 ^ atomShift.val := by
  by_cases hsign : atomShift.val < 0
  · rw [shiftedMagnitude_of_neg hdigits hpos hsign,
      show atomShift.val = -(atomShift.val.natAbs : ℤ) by omega, zpow_neg,
      zpow_natCast, Int.natAbs_neg, Int.natAbs_natCast, eq_mul_inv_iff_mul_eq₀ (by positivity)]
    exact_mod_cast eq_comm
  · rw [shiftedMagnitude_of_nonneg hpos hsign,
      show atomShift.val = (atomShift.val.toNat : ℤ) by omega, zpow_natCast, Int.toNat_natCast]
    exact_mod_cast Iff.rfl

end Magnitude

section Literal

inductive Sign | plus | minus
deriving DecidableEq

def Sign.byte : Sign → UInt8
  | .plus => 43
  | .minus => 45

def signText (sign : Option Sign) : List UInt8 := sign.toList.map Sign.byte

/-- `e` or `E`, an optional sign, and at least one digit. -/
structure ExponentLiteral where
  capital : Bool
  sign : Option Sign
  digits : List UInt8
  allDigits : digits.all isDigit = true
  someDigit : digits ≠ []

/-- An optional sign, digits with an optional fraction, and an optional exponent. -/
structure DecimalLiteral where
  sign : Option Sign
  integer : List UInt8
  fraction : Option (List UInt8)
  exponent : Option ExponentLiteral
  integerDigits : integer.all isDigit = true
  fractionDigits : (fraction.getD []).all isDigit = true
  someDigit : integer ≠ [] ∨ fraction.getD [] ≠ []

def fractionText : Option (List UInt8) → List UInt8
  | none => []
  | some digits => 46 :: digits

def exponentText : Option ExponentLiteral → List UInt8
  | none => []
  | some e => (if e.capital then 69 else 101) :: (signText e.sign ++ e.digits)

def exponentValue : Option ExponentLiteral → ℤ
  | none => 0
  | some e => if e.sign = some .minus then -(digitsValue e.digits : ℤ) else digitsValue e.digits

def DecimalLiteral.text (l : DecimalLiteral) : List UInt8 :=
  signText l.sign ++ (l.integer ++ (fractionText l.fraction ++ exponentText l.exponent))

def DecimalLiteral.digits (l : DecimalLiteral) : List UInt8 := l.integer ++ l.fraction.getD []

/-- The number a literal stands for. -/
def DecimalLiteral.value (l : DecimalLiteral) : ℚ :=
  (if l.sign = some .minus then -1 else 1) * digitsValue l.digits *
    10 ^ (exponentValue l.exponent - (l.fraction.getD []).length)

/-- What a signed 64-bit integer holds. -/
def FitsI64 (z : ℤ) : Prop := -2 ^ 63 ≤ z ∧ z < 2 ^ 63

/-- The exponent, and the number of places by which it moves the digits to make them atoms, are
numbers the parser can hold: the shift is worked out before the digits are looked at, so it must be
in range for zeros as well. -/
def DecimalLiteral.Admitted (l : DecimalLiteral) : Prop :=
  FitsI64 (exponentValue l.exponent) ∧ FitsI64 (18 + exponentValue l.exponent) ∧
  FitsI64 (l.fraction.getD []).length ∧
    FitsI64 (18 + exponentValue l.exponent - (l.fraction.getD []).length)

theorem fitsI64_iff (z : ℤ) : FitsI64 z ↔ ∃ c : I64, c.val = z := by
  refine ⟨fun h => ⟨⟨z, h.1, h.2⟩, rfl⟩, ?_⟩
  rintro ⟨c, rfl⟩
  exact ⟨c.lower, c.upper⟩

end Literal

section Scanning

/-- Neither a digit nor anything else that would be read on. -/
def Stops (p : UInt8 → Bool) (rest : List UInt8) : Prop := ∀ byte ∈ rest.head?, p byte = false

theorem takeWhile_stops {p : UInt8 → Bool} {rest : List UInt8} (h : Stops p rest) :
    rest.takeWhile p = [] ∧ rest.dropWhile p = rest := by
  cases rest with
  | nil => exact ⟨rfl, rfl⟩
  | cons byte rest =>
    have hbyte := h byte rfl
    exact ⟨by rw [List.takeWhile_cons, hbyte]; rfl, by rw [List.dropWhile_cons, hbyte]; rfl⟩

theorem takeWhile_digits {digits rest : List UInt8} (hdigits : digits.all isDigit = true)
    (h : Stops isDigit rest) :
    (digits ++ rest).takeWhile isDigit = digits ∧ (digits ++ rest).dropWhile isDigit = rest := by
  have hall := List.all_eq_true.1 hdigits
  rw [List.takeWhile_append_of_pos hall, List.dropWhile_append_of_pos hall, (takeWhile_stops h).1,
    (takeWhile_stops h).2, List.append_nil]
  exact ⟨rfl, rfl⟩

theorem takeSign_text (sign : Option Sign) {rest : List UInt8}
    (h : Stops (fun byte => byte = 45 || byte = 43) rest) :
    takeSign (signText sign ++ rest) = (decide (sign = some .minus), rest) := by
  rcases sign with - | (- | -)
  · rcases rest with - | ⟨byte, rest⟩
    · rfl
    · have hbyte := h byte rfl
      simp only [Bool.or_eq_false_iff, decide_eq_false_iff_not] at hbyte
      simp only [signText, Option.toList_none, List.map_nil, List.nil_append]
      rw [takeSign]
      · rfl
      · exact fun rest' heq => hbyte.1 (List.cons.inj heq).1
      · exact fun rest' heq => hbyte.2 (List.cons.inj heq).1
  · rfl
  · rfl

theorem takeSign_split (bytes : List UInt8) :
    ∃ sign, bytes = signText sign ++ (takeSign bytes).2 := by
  unfold takeSign
  split
  · exact ⟨some .minus, rfl⟩
  · exact ⟨some .plus, rfl⟩
  · exact ⟨none, rfl⟩

theorem takeFraction_text {fraction : Option (List UInt8)}
    (hdigits : (fraction.getD []).all isDigit = true)
    {rest : List UInt8} (hrest : Stops isDigit rest) (hpoint : Stops (fun byte => byte = 46) rest) :
    takeFraction (fractionText fraction ++ rest) = (fraction.getD [], rest) := by
  cases fraction with
  | some digits =>
    rw [Option.getD_some] at hdigits
    change ((digits ++ rest).takeWhile isDigit, (digits ++ rest).dropWhile isDigit) = _
    rw [(takeWhile_digits hdigits hrest).1, (takeWhile_digits hdigits hrest).2]
    rfl
  | none =>
    change takeFraction rest = _
    rw [takeFraction]
    · rfl
    · intro rest' heq
      have := hpoint 46 (by rw [heq]; rfl)
      simp at this

theorem takeFraction_split (bytes : List UInt8) : ∃ fraction : Option (List UInt8),
    bytes = fractionText fraction ++ (takeFraction bytes).2 ∧
    (takeFraction bytes).1 = fraction.getD [] ∧
      (fraction.getD []).all isDigit = true := by
  unfold takeFraction
  split
  · exact ⟨some _, by simp [fractionText], rfl, List.all_takeWhile⟩
  · exact ⟨none, rfl, rfl, rfl⟩

theorem stops_digit_of_digits {digits : List UInt8} (hdigits : digits.all isDigit = true)
    (hne : digits ≠ [])
    (rest : List UInt8) : Stops (fun byte => byte = 45 || byte = 43) (digits ++ rest) := by
  rcases digits with - | ⟨digit, digits⟩
  · exact absurd rfl hne
  · intro byte hbyte
    obtain rfl : digit = byte := by simpa using hbyte
    have hdigit := toNat_of_isDigit (List.all_eq_true.1 hdigits digit List.mem_cons_self)
    simp only [Bool.or_eq_false_iff, decide_eq_false_iff_not, ← UInt8.toNat_inj]
    refine ⟨fun h => ?_, fun h => ?_⟩
    · change digit.toNat = 45 at h
      omega
    · change digit.toNat = 43 at h
      omega

/-- The exponent is the last part of a text, so only what is read to its end matters. -/
theorem parseExponent_eq_ok (bytes : List UInt8) (e : I64) : parseExponent bytes = .ok (e, []) ↔
    ∃ (sign : Option Sign) (digits : List UInt8), digits.all isDigit = true ∧ digits ≠ [] ∧
    bytes = signText sign ++ digits ∧
      e.val = if sign = some .minus then -(digitsValue digits : ℤ) else digitsValue digits := by
  simp only [parseExponent, bind_eq_ok, okOr_eq_ok, ensure_eq_ok, pure_eq_ok, exists_and_left,
    exists_const, accumulate_eq_some, signedMagnitude_eq_ok (by norm_num : 0 < 64), Prod.mk.injEq]
  refine ⟨?_, ?_⟩
  · rintro ⟨magnitude, hmagnitude, hne, e', he, rfl, hend⟩
    obtain ⟨sign, hsign⟩ := takeSign_split bytes
    have hdigits : (takeSign bytes).2 = (takeSign bytes).2.takeWhile isDigit := by
      have hsplit := List.takeWhile_append_dropWhile (p := isDigit) (l := (takeSign bytes).2)
      rw [hend, List.append_nil] at hsplit
      exact hsplit.symm
    rw [← hdigits] at hne hmagnitude
    have hall : (takeSign bytes).2.all isDigit = true := hdigits ▸ List.all_takeWhile
    refine ⟨sign, _, hall, hne, hsign, ?_⟩
    have hread := takeSign_text sign (stops_digit_of_digits hall hne [])
    rw [List.append_nil, ← hsign] at hread
    rw [he, hmagnitude, hread]
    simp
  · rintro ⟨sign, digits, hall, hne, rfl, he⟩
    have hread := takeSign_text sign (stops_digit_of_digits hall hne [])
    have hscan := @takeWhile_digits _ [] hall (fun byte hbyte => by simp at hbyte)
    rw [List.append_nil] at hread hscan
    rw [hread]
    simp only [hscan.1, hscan.2]
    have hfits : digitsValue digits < 2 ^ 64 := by
      have hlower := e.lower
      have hupper := e.upper
      split_ifs at he <;> omega
    exact ⟨⟨digitsValue digits, hfits⟩, rfl, hne, e, by simpa using he, rfl, trivial⟩

theorem takeExponent_eq_ok (bytes : List UInt8) (e : I64) : takeExponent bytes = .ok (e, []) ↔
    ∃ exponent : Option ExponentLiteral, bytes = exponentText exponent ∧
    e.val = exponentValue exponent := by
  refine ⟨fun h => ?_, ?_⟩
  · unfold takeExponent at h
    split at h
    · obtain ⟨sign, digits, hall, hne, rfl, he⟩ := (parseExponent_eq_ok _ _).1 h
      exact ⟨some ⟨false, sign, digits, hall, hne⟩, rfl, he⟩
    · obtain ⟨sign, digits, hall, hne, rfl, he⟩ := (parseExponent_eq_ok _ _).1 h
      exact ⟨some ⟨true, sign, digits, hall, hne⟩, rfl, he⟩
    · rw [Except.ok.injEq, Prod.mk.injEq] at h
      exact ⟨none, h.2, by rw [← h.1]; rfl⟩
  · rintro ⟨- | ⟨- | -, sign, digits, hall, hne⟩, rfl, he⟩
    · obtain rfl : e = 0 := Signed.ext he
      rfl
    · exact (parseExponent_eq_ok _ _).2 ⟨sign, digits, hall, hne, rfl, he⟩
    · exact (parseExponent_eq_ok _ _).2 ⟨sign, digits, hall, hne, rfl, he⟩

/-- The text of an exponent says which number it is. -/
theorem exponentValue_congr {a b : Option ExponentLiteral} (h : exponentText a = exponentText b) :
    exponentValue a = exponentValue b := by
  rcases a with - | ⟨capital, sign, digits, hall, hne⟩ <;> rcases b with
    - | ⟨capital', sign', digits', hall', hne'⟩
  · rfl
  · exact absurd h (List.cons_ne_nil _ _).symm
  · exact absurd h (List.cons_ne_nil _ _)
  · have hrest : signText sign ++ digits = signText sign' ++ digits' := (List.cons.inj h).2
    have hread := takeSign_text sign (stops_digit_of_digits hall hne [])
    rw [List.append_nil, hrest] at hread
    have hread' := takeSign_text sign' (stops_digit_of_digits hall' hne' [])
    rw [List.append_nil, hread, Prod.mk.injEq, decide_eq_decide] at hread'
    simp only [exponentValue, hread'.1, hread'.2]

theorem stops_exponentText {p : UInt8 → Bool} (hsmall : p 101 = false) (hcapital : p 69 = false)
    (exponent : Option ExponentLiteral) : Stops p (exponentText exponent) := by
  rcases exponent with - | ⟨- | -, sign, digits, hall, hne⟩
  · exact fun byte hbyte => by simp [exponentText] at hbyte
  · intro byte hbyte
    obtain rfl : 101 = byte := by simpa [exponentText] using hbyte
    exact hsmall
  · intro byte hbyte
    obtain rfl : 69 = byte := by simpa [exponentText] using hbyte
    exact hcapital

theorem stops_fractionText {p : UInt8 → Bool} (hpoint : p 46 = false)
    (fraction : Option (List UInt8)) {rest : List UInt8}
    (hrest : Stops p rest) : Stops p (fractionText fraction ++ rest) := by
  cases fraction with
  | none => exact hrest
  | some digits =>
    intro byte hbyte
    obtain rfl : 46 = byte := by simpa [fractionText] using hbyte
    exact hpoint

end Scanning

section Parsing

theorem DecimalLiteral.text_ne_nil (l : DecimalLiteral) : l.text ≠ [] := by
  intro h
  simp only [DecimalLiteral.text, List.append_eq_nil_iff] at h
  rcases l.someDigit with hinteger | hfraction
  · exact hinteger h.2.1
  · refine hfraction ?_
    cases hf : l.fraction with
    | none => rfl
    | some digits => simp [hf, fractionText] at h

theorem takeSign_literal (l : DecimalLiteral) : takeSign l.text =
    (decide (l.sign = some .minus),
      l.integer ++ (fractionText l.fraction ++ exponentText l.exponent)) := by
  refine takeSign_text l.sign ?_
  by_cases hinteger : l.integer = []
  · rw [hinteger]
    exact stops_fractionText rfl _ (stops_exponentText rfl rfl _)
  · exact stops_digit_of_digits l.integerDigits hinteger _

theorem DecimalLiteral.all_digits (l : DecimalLiteral) : l.digits.all isDigit = true := by
  rw [DecimalLiteral.digits, List.all_append, l.integerDigits, l.fractionDigits]
  rfl

/-- The number of places by which the digits are moved. -/
def DecimalLiteral.shift (l : DecimalLiteral) : ℤ :=
  18 + exponentValue l.exponent - (l.fraction.getD []).length

theorem DecimalLiteral.value_mul_scale (l : DecimalLiteral) :
    l.value * 10 ^ 18 = (if l.sign = some .minus then -1 else 1) *
      (digitsValue l.digits * 10 ^ l.shift) := by
  have hpow : (10 : ℚ) ^ l.shift = 10 ^ (exponentValue l.exponent - (l.fraction.getD []).length) *
      10 ^ 18 := by
    rw [DecimalLiteral.shift, ← zpow_natCast, ← zpow_add₀ (by norm_num)]
    congr 1
    push_cast
    ring
  rw [DecimalLiteral.value, hpow]
  ring

/-- The digits of a literal become the atoms it stands for. -/
theorem decimalOfDigits_eq_ok (l : DecimalLiteral) {atomShift : I64} (h : atomShift.val = l.shift)
    (d : Decimal) :
    decimalOfDigits l.digits atomShift (decide (l.sign = some .minus)) = .ok d ↔
    l.value * 10 ^ 18 = d.atoms.val := by
  rw [decimalOfDigits, l.value_mul_scale, ← h]
  by_cases hzero : digitsValue l.digits = 0
  · rw [if_pos ((digitsValue_eq_zero l.all_digits).1 hzero), pure_eq_ok, hzero, Decimal.ext_iff,
      Signed.ext_iff]
    simp [Decimal.zero, eq_comm]
  · rw [if_neg fun hall => hzero ((digitsValue_eq_zero l.all_digits).2 hall)]
    simp only [bind_eq_ok, pure_eq_ok, signedAtoms, signedMagnitude_eq_ok (by norm_num : 0 < 128),
      shiftedMagnitude_eq_ok l.all_digits hzero, decide_eq_true_eq]
    refine ⟨?_, fun hatoms => ?_⟩
    · rintro ⟨magnitude, hmagnitude, atoms, hatoms, rfl⟩
      rw [hatoms, ← hmagnitude]
      split_ifs <;> push_cast <;> ring
    · -- the magnitude of a signed value fits the unsigned type
      have hfits : d.atoms.val.natAbs < 2 ^ 128 := by
        have hlower := d.atoms.lower
        have hupper := d.atoms.upper
        omega
      have hpos : (0 : ℚ) ≤ digitsValue l.digits * 10 ^ atomShift.val := by positivity
      refine ⟨⟨d.atoms.val.natAbs, hfits⟩, ?_, d.atoms, ?_, rfl⟩
      · change ((d.atoms.val.natAbs : ℕ) : ℚ) = _
        rw [Nat.cast_natAbs, Int.cast_abs, ← hatoms, abs_mul, abs_of_nonneg hpos]
        split_ifs <;> simp
      · change d.atoms.val = if l.sign = some .minus then -((d.atoms.val.natAbs : ℕ) : ℤ) else
            (d.atoms.val.natAbs : ℕ)
        split_ifs at hatoms ⊢ with hminus
        · have : (d.atoms.val : ℚ) ≤ 0 := by linarith
          have : d.atoms.val ≤ 0 := by exact_mod_cast this
          omega
        · have : (0 : ℚ) ≤ d.atoms.val := by linarith
          have : 0 ≤ d.atoms.val := by exact_mod_cast this
          omega

/-- Everything a text has to pass. -/
theorem parse_eq_ok (bytes : List UInt8) (d : Decimal) {negative : Bool}
    {integer fraction rest rest' : List UInt8}
    (hsign : takeSign bytes = (negative, rest)) (hinteger : rest.takeWhile isDigit = integer)
    (hfraction : takeFraction (rest.dropWhile isDigit) = (fraction, rest')) :
    Decimal.parse bytes = .ok d ↔
      bytes ≠ [] ∧ (integer ≠ [] ∨ fraction ≠ []) ∧ ∃ e : I64, takeExponent rest' = .ok (e, []) ∧
        FitsI64 fraction.length ∧ FitsI64 (18 + e.val) ∧ ∃ shift :
        I64, shift.val = 18 + e.val - fraction.length ∧
          decimalOfDigits (integer ++ fraction) shift negative = .ok d := by
  rw [Decimal.parse, parseDecimal, hsign]
  simp only [hinteger, hfraction, bind_eq_ok, ensure_eq_ok, exists_and_left,
    exists_const, okOr_eq_ok,
    Option.bind_eq_bind, Option.bind_eq_some_iff, Signed.ofInt?_eq_some, Signed.checkedSub_eq_some,
    fitsI64_iff]
  refine and_congr_right fun _ => and_congr_right fun _ => ⟨?_, ?_⟩
  · rintro ⟨⟨e, rest''⟩, hexponent, rfl, length, hlength, shift, ⟨sum, hsum, hshift⟩, hd⟩
    exact ⟨e, hexponent, ⟨length, hlength⟩, ⟨sum, hsum⟩, shift, by rw [hshift, hsum, hlength], hd⟩
  · rintro ⟨e, hexponent, ⟨length, hlength⟩, ⟨sum, hsum⟩, shift, hshift, hd⟩
    exact ⟨(e, []), hexponent, rfl, length, hlength, shift,
      ⟨sum, hsum, by rw [hshift, hsum, hlength]⟩, hd⟩

/-- What is read is the text of a literal. -/
theorem literal_of_parse {bytes : List UInt8} {d : Decimal} (h : Decimal.parse bytes = .ok d) :
    ∃ l : DecimalLiteral, l.text = bytes := by
  obtain ⟨sign, hsign⟩ := takeSign_split bytes
  obtain ⟨fraction, hfraction, hdigits, hall⟩ :=
    takeFraction_split ((takeSign bytes).2.dropWhile isDigit)
  obtain ⟨-, hsome, e, hexponent, -⟩ :=
    (parse_eq_ok bytes d (Prod.eta _).symm rfl (Prod.eta _).symm).1 h
  obtain ⟨exponent, hrest, -⟩ := (takeExponent_eq_ok _ _).1 hexponent
  rw [hdigits] at hsome
  refine ⟨⟨sign, (takeSign bytes).2.takeWhile isDigit, fraction, exponent, List.all_takeWhile,
    hall, hsome⟩, ?_⟩
  rw [DecimalLiteral.text, ← hrest, ← hfraction, List.takeWhile_append_dropWhile, ← hsign]

/-- A literal is accepted exactly when its exponent is admitted and it stands for a whole number of
atoms that fits. -/
theorem parse_text (l : DecimalLiteral) (d : Decimal) :
    Decimal.parse l.text = .ok d ↔ l.Admitted ∧ l.value * 10 ^ 18 = d.atoms.val := by
  have hinteger := takeWhile_digits l.integerDigits
    (stops_fractionText rfl l.fraction (stops_exponentText rfl rfl l.exponent) : Stops isDigit _)
  have hfraction := takeFraction_text l.fractionDigits (stops_exponentText rfl rfl l.exponent)
    (stops_exponentText rfl rfl l.exponent)
  rw [← hinteger.2] at hfraction
  rw [parse_eq_ok l.text d (takeSign_literal l) hinteger.1 hfraction]
  refine ⟨?_, ?_⟩
  · rintro ⟨-, -, e, hexponent, hlength, hsum, shift, hshift, hd⟩
    obtain ⟨exponent, htext, he⟩ := (takeExponent_eq_ok _ _).1 hexponent
    rw [← exponentValue_congr htext] at he
    rw [he] at hsum hshift
    refine ⟨⟨(fitsI64_iff _).2 ⟨e, he⟩, hsum, hlength, (fitsI64_iff _).2 ⟨shift, hshift⟩⟩, ?_⟩
    exact (decimalOfDigits_eq_ok l hshift d).1 hd
  · rintro ⟨⟨he, hsum, hlength, hshift⟩, hvalue⟩
    obtain ⟨e, he⟩ := (fitsI64_iff _).1 he
    obtain ⟨shift, hshift⟩ := (fitsI64_iff _).1 hshift
    rw [← he] at hsum hshift
    refine ⟨l.text_ne_nil, l.someDigit, e, (takeExponent_eq_ok _ _).2 ⟨l.exponent, rfl, he⟩,
      hlength, hsum, shift, hshift, ?_⟩
    exact (decimalOfDigits_eq_ok l (by rw [hshift, he]; rfl) d).2 hvalue

end Parsing

end Osmium
