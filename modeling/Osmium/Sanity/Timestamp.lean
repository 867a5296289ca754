import Osmium.Sanity.Decimal
import Osmium.Spec.Timestamp

/-! The parser of replay times, piece by piece: what it reads off a text, and the number it makes of
it. Time literals are the texts of the format by their parts. -/

namespace Osmium
open Machine Result Calendar Numeral

section Places

theorem getElem?_eq_some_iff_drop (bytes : List UInt8) (i : ℕ) (byte : UInt8) :
    bytes[i]? = some byte ↔ bytes.drop i = byte :: bytes.drop (i + 1) := by
  refine ⟨fun h => ?_, fun h => ?_⟩
  · obtain ⟨hi, rfl⟩ := List.getElem?_eq_some_iff.1 h
    exact List.drop_eq_getElem_cons hi
  · have := congrArg List.head? h
    rwa [List.head?_drop, List.head?_cons] at this

/-- Digits of known width are the numeral of their value. -/
theorem padded_digitsValue {digits : List UInt8} (h : digits.all isDigit = true) :
    padded digits.length (digitsValue digits) = digits := by
  induction digits using List.reverseRecOn with
  | nil => rfl
  | append_singleton digits digit ih =>
    rw [List.all_append, Bool.and_eq_true] at h
    have hdigit := toNat_of_isDigit (by simpa using h.2 : isDigit digit = true)
    have hquotient : digitsValue (digits ++ [digit]) / 10 = digitsValue digits := by
      rw [digitsValue_concat]
      omega
    have hlast : UInt8.ofNat (48 + digitsValue (digits ++ [digit]) % 10) = digit := by
      rw [← UInt8.toNat_inj, toNat_digit, digitsValue_concat]
      omega
    rw [List.length_append, List.length_singleton, padded, hquotient, hlast, ih h.1]

theorem parseDigits_eq_some_iff (bytes : List UInt8) (start width n : ℕ) :
    parseDigits bytes start width = some n ↔
    n < 10 ^ width ∧ bytes.drop start = padded width n ++ bytes.drop (start + width) := by
  have hsplit : bytes.drop start = (bytes.drop start).take width ++ bytes.drop (start + width) := by
    rw [← List.drop_drop, List.take_append_drop]
  simp only [parseDigits, Option.ite_none_right_eq_some, Option.some.injEq]
  refine ⟨?_, ?_⟩
  · rintro ⟨⟨hlength, hall⟩, rfl⟩
    have hlt := digitsValue_lt hall
    have hpadded := padded_digitsValue hall
    rw [hlength] at hlt hpadded
    refine ⟨hlt, ?_⟩
    rw [hpadded]
    exact hsplit
  · rintro ⟨hlt, hdrop⟩
    have htake : (bytes.drop start).take width = padded width n := by
      rw [hdrop, List.take_left' (length_padded width n)]
    rw [htake, length_padded, all_isDigit_padded, digitsValue_padded _ _ hlt]
    exact ⟨⟨rfl, rfl⟩, rfl⟩

/-- What follows a piece is the rest of the text. -/
theorem rest_eq_drop {bytes piece rest : List UInt8} {start : ℕ}
    (h : bytes.drop start = piece ++ rest) :
    rest = bytes.drop (start + piece.length) := by
  rw [← List.drop_drop, h, List.drop_left]

theorem drop_padded {bytes rest : List UInt8} {start width n : ℕ}
    (h : bytes.drop start = padded width n ++ rest) :
    bytes.drop (start + width) = rest := by
  have hrest := rest_eq_drop h
  rw [length_padded] at hrest
  exact hrest.symm

theorem drop_byte {bytes rest : List UInt8} {start : ℕ} {byte : UInt8}
    (h : bytes.drop start = byte :: rest) :
    bytes.drop (start + 1) = rest := (@rest_eq_drop bytes [byte] rest start h).symm

end Places

section Pieces

/-- `Z`, or a sign with hours and minutes. -/
inductive OffsetLiteral
  | utc
  | shifted (sign : Sign) (hours minutes : ℕ) (inRange : hours ≤ 23 ∧ minutes ≤ 59)

def OffsetLiteral.text : OffsetLiteral → List UInt8
  | .utc => [90]
  | .shifted sign hours minutes _ => sign.byte :: (padded 2 hours ++ 58 :: padded 2 minutes)

def OffsetLiteral.seconds : OffsetLiteral → ℤ
  | .utc => 0
  | .shifted .plus hours minutes _ => hours * 3600 + minutes * 60
  | .shifted .minus hours minutes _ => -(hours * 3600 + minutes * 60)

/-- The bytes with which an offset starts. -/
def isMarker (byte : UInt8) : Bool := byte = 90 || byte = 43 || byte = 45

theorem OffsetLiteral.text_cons (o : OffsetLiteral) : ∃ byte rest, o.text = byte :: rest ∧
    isMarker byte = true := by
  rcases o with - | ⟨- | -, hours, minutes, h⟩
  · exact ⟨_, _, rfl, rfl⟩
  · exact ⟨_, _, rfl, rfl⟩
  · exact ⟨_, _, rfl, rfl⟩

theorem findIdx?_marker {before : List UInt8} (hbefore : ∀ byte ∈ before, isMarker byte = false)
    (o : OffsetLiteral) :
    (before ++ o.text).findIdx? isMarker = some before.length := by
  obtain ⟨byte, rest, htext, hmarker⟩ := o.text_cons
  rw [List.findIdx?_append, List.findIdx?_eq_none_iff.2 hbefore, htext, List.findIdx?_cons, hmarker]
  simp

theorem OffsetLiteral.text_cases {bytes : List UInt8} {start : ℕ} {o : OffsetLiteral}
    (h : bytes.drop start = o.text) :
    (o = .utc ∧ bytes[start]? = some 90 ∧ start + 1 = bytes.length) ∨
    ∃ sign hours minutes inRange, o = .shifted sign hours minutes inRange ∧
    bytes[start]? = some sign.byte ∧
      start + 6 = bytes.length ∧ bytes[start + 3]? = some 58 ∧
      parseDigits bytes (start + 1) 2 = some hours ∧
      parseDigits bytes (start + 4) 2 = some minutes := by
  have hlength : bytes.length - start = o.text.length := by rw [← List.length_drop, h]
  cases o with
  | utc =>
    change bytes.length - start = 1 at hlength
    refine .inl ⟨rfl, ?_, by omega⟩
    rw [← List.head?_drop, h]
    rfl
  | shifted sign hours minutes inRange =>
    simp only [OffsetLiteral.text, List.length_cons, List.length_append, length_padded] at hlength
    have hfirst : bytes[start]? = some sign.byte := by
      rw [← List.head?_drop, h]
      rfl
    have hafter : bytes.drop (start + 1) = padded 2 hours ++ 58 :: padded 2 minutes := by
      rw [← List.drop_drop, h]
      rfl
    have hcolon := rest_eq_drop hafter
    rw [length_padded] at hcolon
    have hlast : bytes.drop (start + 4) = padded 2 minutes ++ bytes.drop (start + 4 + 2) := by
      have hend : bytes.drop (start + 4 + 2) = [] := List.drop_eq_nil_of_le (by omega)
      rw [hend, List.append_nil]
      exact (List.cons.inj (hcolon.trans
        ((getElem?_eq_some_iff_drop _ _ 58).1 (by rw [← List.head?_drop, ← hcolon]; rfl)))).2.symm
    refine .inr ⟨sign, hours, minutes, inRange, rfl, hfirst, by omega, ?_, ?_, ?_⟩
    · change bytes[start + 1 + 2]? = _
      rw [← List.head?_drop, ← hcolon]
      rfl
    · rw [parseDigits_eq_some_iff, ← hcolon]
      exact ⟨by omega, hafter⟩
    · rw [parseDigits_eq_some_iff]
      exact ⟨by omega, hlast⟩

/-- The offset that starts at a marker. -/
def offsetAt (bytes : List UInt8) (start : ℕ) : Except MatchTimeError (ℕ × ℤ) :=
  if bytes[start]? = some 90 then do
    ensure (start + 1 = bytes.length) .invalidFormat
    return (start, 0)
  else do
    ensure (start + 6 = bytes.length ∧ bytes[start + 3]? = some 58) .invalidOffset
    let hours ← okOr .invalidOffset (parseDigits bytes (start + 1) 2)
    let minutes ← okOr .invalidOffset (parseDigits bytes (start + 4) 2)
    ensure (hours ≤ 23 ∧ minutes ≤ 59) .invalidOffset
    let magnitude : ℤ := hours * 3600 + minutes * 60
    return (start, if bytes[start]? = some 45 then -magnitude else magnitude)

theorem parseOffset_eq (bytes : List UInt8) : parseOffset bytes = (do
    let index ← okOr .invalidFormat ((bytes.drop 19).findIdx? isMarker)
    offsetAt bytes (index + 19)) := rfl

theorem offsetAt_text {bytes : List UInt8} {start : ℕ} {o : OffsetLiteral}
    (h : bytes.drop start = o.text) :
    offsetAt bytes start = .ok (start, o.seconds) := by
  rcases OffsetLiteral.text_cases h with
    ⟨rfl, hbyte, hend⟩ | ⟨sign, hours, minutes, inRange, rfl, hbyte, hend, hcolon, hh, hm⟩
  · rw [offsetAt, if_pos hbyte]
    simp [hend, OffsetLiteral.seconds]
  · have hnot : bytes[start]? ≠ some 90 := by
      rw [hbyte]
      cases sign <;> decide
    rw [offsetAt, if_neg hnot]
    simp only [bind_eq_ok, ensure_eq_ok, okOr_eq_ok, pure_eq_ok, exists_and_left, exists_const, hh,
      hm, Option.some.injEq, exists_eq_left', hbyte]
    refine ⟨⟨hend, hcolon⟩, inRange, ?_⟩
    cases sign <;> rfl

theorem text_of_offsetAt {bytes : List UInt8} {start e : ℕ} {byte : UInt8} {seconds : ℤ}
    (hbyte : bytes[start]? = some byte)
    (hmarker : isMarker byte = true) (h : offsetAt bytes start = .ok (e, seconds)) :
    ∃ o : OffsetLiteral, bytes.drop start = o.text := by
  have hfirst := (getElem?_eq_some_iff_drop _ _ _).1 hbyte
  rw [offsetAt, hbyte] at h
  by_cases hutc : byte = 90
  · subst hutc
    rw [if_pos rfl] at h
    simp only [bind_eq_ok, ensure_eq_ok, exists_and_left, exists_const] at h
    refine ⟨.utc, ?_⟩
    rw [hfirst, List.drop_eq_nil_of_le (by omega)]
    rfl
  · rw [if_neg (by simpa using hutc)] at h
    simp only [bind_eq_ok, ensure_eq_ok, okOr_eq_ok, exists_and_left, exists_const,
      parseDigits_eq_some_iff, getElem?_eq_some_iff_drop] at h
    obtain ⟨⟨hend, hcolon⟩, hours, ⟨-, hhours⟩, minutes, ⟨-, hminutes⟩, inRange, -⟩ := h
    have hsign : byte = 43 ∨ byte = 45 := by
      simpa [isMarker, hutc] using hmarker
    have htext : bytes.drop start = byte :: (padded 2 hours ++ 58 :: padded 2 minutes) := by
      rw [hfirst, hhours, hcolon, hminutes, List.drop_eq_nil_of_le (by omega), List.append_nil]
    rcases hsign with rfl | rfl
    · exact ⟨.shifted .plus hours minutes inRange, htext⟩
    · exact ⟨.shifted .minus hours minutes inRange, htext⟩

theorem parseOffset_eq_ok (bytes : List UInt8) (e : ℕ) (seconds : ℤ) :
    parseOffset bytes = .ok (e, seconds) ↔
    ∃ (before : List UInt8) (o : OffsetLiteral), bytes.drop 19 = before ++ o.text ∧
    (∀ byte ∈ before, isMarker byte = false) ∧
      e = 19 + before.length ∧ seconds = o.seconds := by
  simp only [parseOffset_eq, bind_eq_ok, okOr_eq_ok]
  refine ⟨?_, ?_⟩
  · rintro ⟨index, hindex, h⟩
    obtain ⟨hlt, hmarker, hfirst⟩ := List.findIdx?_eq_some_iff_getElem.1 hindex
    have hbyte : bytes[index + 19]? = some ((bytes.drop 19).get ⟨index, hlt⟩) := by
      rw [Nat.add_comm, ← List.getElem?_drop]
      exact List.getElem?_eq_getElem hlt
    obtain ⟨o, htext⟩ := text_of_offsetAt hbyte hmarker h
    rw [offsetAt_text htext, Except.ok.injEq, Prod.mk.injEq] at h
    refine ⟨(bytes.drop 19).take index, o, ?_, ?_, ?_, h.2.symm⟩
    · rw [← htext, Nat.add_comm, ← List.drop_drop, List.take_append_drop]
    · intro byte hmem
      obtain ⟨j, hj, rfl⟩ := List.mem_take_iff_getElem.1 hmem
      simpa using hfirst j (by omega)
    · rw [List.length_take]
      omega
  · rintro ⟨before, o, hdrop, hbefore, rfl, rfl⟩
    have htext := rest_eq_drop hdrop
    rw [Nat.add_comm] at htext ⊢
    exact ⟨before.length, by rw [hdrop]; exact findIdx?_marker hbefore o, offsetAt_text htext.symm⟩

/-- A fraction that is left out, or a point with at least one digit. -/
def ValidFraction (fraction : Option (List UInt8)) : Prop :=
  ∀ digits, fraction = some digits → digits ≠ [] ∧ digits.all isDigit = true

/-- The microseconds of a fraction of a second. -/
def fractionMicroseconds (fraction : Option (List UInt8)) : ℚ :=
  digitsValue (fraction.getD []) * 10 ^ (6 - (fraction.getD []).length : ℤ)

/-- Six digits are kept, and the others must be zeros. -/
theorem microseconds_eq_iff {digits : List UInt8} (hall : digits.all isDigit = true) (value : ℤ) :
    ((digits.drop 6).all (fun digit => digit = 48) = true ∧
      ((digitsValue (digits.take 6) * 10 ^ (6 - digits.length) : ℕ) : ℤ) =
      value) ↔ (value : ℚ) = digitsValue digits * 10 ^ (6 - digits.length : ℤ) := by
  by_cases hshort : digits.length ≤ 6
  · rw [List.drop_eq_nil_of_le hshort, List.take_of_length_le hshort,
      show (6 - digits.length : ℤ) = ((6 - digits.length : ℕ) : ℤ) by omega, zpow_natCast]
    simp only [List.all_nil, true_and]
    rw [eq_comm]
    exact_mod_cast Iff.rfl
  · have hsum : 6 + (digits.length - 6) = digits.length := by omega
    have hcut := digitsValue_eq_mul_pow_iff hall hsum
    rw [show 6 - digits.length = 0 by omega, pow_zero, mul_one,
      show (6 - digits.length : ℤ) = -((digits.length - 6 : ℕ) : ℤ) by
        omega, zpow_neg, zpow_natCast,
      eq_mul_inv_iff_mul_eq₀ (by positivity)]
    refine ⟨?_, fun h => ?_⟩
    · rintro ⟨hzeros, rfl⟩
      exact_mod_cast ((hcut _).2 ⟨rfl, hzeros⟩).symm
    · have hnonneg : 0 ≤ value := by
        by_contra hneg
        have hlt : (value : ℚ) * 10 ^ (digits.length - 6) < 0 :=
          mul_neg_of_neg_of_pos (by exact_mod_cast not_le.1 hneg) (by positivity)
        rw [h] at hlt
        exact absurd hlt (not_lt.2 (Nat.cast_nonneg _))
      obtain ⟨n, rfl⟩ := Int.eq_ofNat_of_zero_le hnonneg
      obtain ⟨rfl, hzeros⟩ := (hcut n).1 (by exact_mod_cast h.symm)
      exact ⟨hzeros, rfl⟩

theorem parseFraction_eq_ok {bytes before rest : List UInt8} (h : bytes.drop 19 = before ++ rest)
    (value : ℤ) :
    parseFraction bytes (19 + before.length) = .ok value ↔
    ∃ fraction, before = fractionText fraction ∧
      ValidFraction fraction ∧ (value : ℚ) = fractionMicroseconds fraction := by
  rcases before with - | ⟨byte, digits⟩
  · have hnone : parseFraction bytes (19 + ([] : List UInt8).length) = .ok 0 := rfl
    rw [hnone, Except.ok.injEq]
    refine ⟨?_, ?_⟩
    · rintro rfl
      exact ⟨none, rfl, fun _ hsome =>
        (nomatch hsome), by simp [fractionMicroseconds, digitsValue_nil]⟩
    · rintro ⟨- | digits, hbefore, -, hvalue⟩
      · rw [fractionMicroseconds, Option.getD_none, digitsValue_nil, Nat.cast_zero, zero_mul]
          at hvalue
        exact_mod_cast hvalue.symm
      · cases hbefore
  · have hfirst : bytes[19]? = some byte := by
      rw [← List.head?_drop, h]
      rfl
    have hslice : (bytes.drop 20).take (19 + (byte :: digits).length - 20) = digits := by
      have hdrop : bytes.drop 20 = digits ++ rest := by
        rw [show 20 = 19 + 1 from rfl, ← List.drop_drop, h]
        rfl
      rw [hdrop, List.take_left']
      simp
      omega
    rw [parseFraction, if_neg (by simp), hslice, hfirst]
    simp only [bind_eq_ok, ensure_eq_ok, pure_eq_ok, exists_and_left, exists_const,
      Option.some.injEq]
    refine ⟨?_, ?_⟩
    · rintro ⟨⟨rfl, hsome⟩, hall, hvalue⟩
      refine ⟨some digits, rfl, fun _ hsome' => ?_, (microseconds_eq_iff hall value).1 hvalue⟩
      obtain rfl := Option.some_inj.1 hsome'
      refine ⟨?_, hall⟩
      rintro rfl
      exact hsome rfl
    · rintro ⟨- | digits', hbefore, hvalid, hvalue⟩
      · cases hbefore
      · obtain ⟨rfl, rfl⟩ := List.cons.inj hbefore
        obtain ⟨hne, hall⟩ := hvalid digits rfl
        have hpos := List.length_pos_iff.2 hne
        refine ⟨⟨rfl, ?_⟩, hall, (microseconds_eq_iff hall value).2 hvalue⟩
        rw [List.length_cons]
        omega

end Pieces

section Literal

/-- A date of the calendar, a time of day, an optional fraction of a second and an offset. -/
structure TimeLiteral where
  year : ℕ
  month : ℕ
  day : ℕ
  hour : ℕ
  minute : ℕ
  second : ℕ
  fraction : Option (List UInt8)
  offset : OffsetLiteral
  yearInRange : year ≤ 9999
  date : ∃ limit, daysInMonth year month = some limit ∧ 1 ≤ day ∧ day ≤ limit
  clock : hour ≤ 23 ∧ minute ≤ 59 ∧ second ≤ 59
  validFraction : ValidFraction fraction

def clockAndDate (year month day hour minute second : ℕ) (rest : List UInt8) : List UInt8 :=
  padded 4 year ++ 45 ::
    (padded 2 month ++ 45 :: (padded 2 day ++ 84 :: (padded 2 hour ++ 58 :: (padded 2 minute ++
    58 :: (padded 2 second ++ rest)))))

def TimeLiteral.text (l : TimeLiteral) : List UInt8 :=
  clockAndDate l.year l.month l.day l.hour l.minute l.second
    (fractionText l.fraction ++ l.offset.text)

/-- The instant in microseconds: the days since 1970-01-01 as the calendar counts them, the time of
day, and the offset taken off. -/
def TimeLiteral.microseconds (l : TimeLiteral) : ℚ :=
  (dayNumber l.year l.month l.day * 86400 + l.hour * 3600 + l.minute * 60 + l.second -
    l.offset.seconds : ℤ) * 1000000 +
    fractionMicroseconds l.fraction

/-- The first nineteen bytes, by their places. -/
theorem clockAndDate_iff (bytes : List UInt8) (year month day hour minute second : ℕ) :
    (year < 10 ^ 4 ∧ month < 10 ^ 2 ∧ day < 10 ^ 2 ∧ hour < 10 ^ 2 ∧ minute < 10 ^ 2 ∧
      second < 10 ^ 2) ∧
      bytes = clockAndDate year month day hour minute second (bytes.drop 19) ↔
    (parseDigits bytes 0 4 = some year ∧ parseDigits bytes 5 2 = some month ∧
      parseDigits bytes 8 2 = some day ∧
      parseDigits bytes 11 2 = some hour ∧ parseDigits bytes 14 2 = some minute ∧
      parseDigits bytes 17 2 = some second) ∧
      bytes[4]? = some 45 ∧ bytes[7]? = some 45 ∧ bytes[10]? = some 84 ∧ bytes[13]? = some 58 ∧
      bytes[16]? = some 58 := by
  simp only [parseDigits_eq_some_iff, getElem?_eq_some_iff_drop, List.drop_zero]
  refine ⟨?_, ?_⟩
  · rintro ⟨⟨hy, hm, hd, hh, hi, hs⟩, h⟩
    have h₀ : bytes.drop 0 = _ := h
    have h₄ : bytes.drop 4 = _ := drop_padded h₀
    have h₅ : bytes.drop 5 = _ := drop_byte h₄
    have h₇ : bytes.drop 7 = _ := drop_padded h₅
    have h₈ : bytes.drop 8 = _ := drop_byte h₇
    have h₁₀ : bytes.drop 10 = _ := drop_padded h₈
    have h₁₁ : bytes.drop 11 = _ := drop_byte h₁₀
    have h₁₃ : bytes.drop 13 = _ := drop_padded h₁₁
    have h₁₄ : bytes.drop 14 = _ := drop_byte h₁₃
    have h₁₆ : bytes.drop 16 = _ := drop_padded h₁₄
    have h₁₇ : bytes.drop 17 = _ := drop_byte h₁₆
    exact ⟨⟨⟨hy, h₀.trans (congrArg (padded 4 year ++ ·) h₄.symm)⟩,
      ⟨hm, h₅.trans (congrArg (padded 2 month ++ ·) h₇.symm)⟩,
      ⟨hd, h₈.trans (congrArg (padded 2 day ++ ·) h₁₀.symm)⟩,
      ⟨hh, h₁₁.trans (congrArg (padded 2 hour ++ ·) h₁₃.symm)⟩,
      ⟨hi, h₁₄.trans (congrArg (padded 2 minute ++ ·) h₁₆.symm)⟩, hs, h₁₇⟩,
      h₄.trans (congrArg (45 :: ·) h₅.symm),
      h₇.trans (congrArg (45 :: ·) h₈.symm), h₁₀.trans (congrArg (84 :: ·) h₁₁.symm),
      h₁₃.trans (congrArg (58 :: ·) h₁₄.symm), h₁₆.trans (congrArg (58 :: ·) h₁₇.symm)⟩
  · rintro ⟨⟨⟨hy, h₀⟩, ⟨hm, h₅⟩, ⟨hd, h₈⟩, ⟨hh, h₁₁⟩, ⟨hi, h₁₄⟩, hs, h₁₇⟩, h₄, h₇, h₁₀, h₁₃, h₁₆⟩
    refine ⟨⟨hy, hm, hd, hh, hi, hs⟩, ?_⟩
    rw [clockAndDate]
    nth_rewrite 1 [h₀]
    rw [h₄, h₅, h₇, h₈, h₁₀, h₁₁, h₁₃, h₁₄, h₁₆, h₁₇]

end Literal

section Parsing

theorem daysFromCivil_bounds {year month day : ℕ} (hyear : year ≤ 9999)
    (hmonth : 1 ≤ month ∧ month ≤ 12) (hday : day ≤ 31) :
    -1000000 ≤ daysFromCivil year month day ∧ daysFromCivil year month day ≤ 4000000 := by
  simp only [daysFromCivil]
  split_ifs <;> omega

theorem validateDate_eq_ok (year month day : ℕ) (u : Unit) :
    validateDate year month day = .ok u ↔ ∃ limit, daysInMonth year month = some limit ∧ 1 ≤ day ∧
    day ≤ limit := by
  unfold validateDate
  split
  · rename_i h
    simp [h]
  · rename_i limit h
    simp only [ensure_eq_ok, h, Option.some.injEq, exists_eq_left']
    omega

theorem OffsetLiteral.seconds_bounds (o : OffsetLiteral) :
    -86340 ≤ o.seconds ∧ o.seconds ≤ 86340 := by
  rcases o with - | ⟨- | -, hours, minutes, h⟩ <;> simp only [OffsetLiteral.seconds] <;> omega

/-- What is read is the text of a literal. -/
theorem timeLiteral_of_parse {bytes : List UInt8} {t : MatchTime}
    (h : MatchTime.parse bytes = .ok t) :
    ∃ l : TimeLiteral, l.text = bytes := by
  simp only [MatchTime.parse, bind_eq_ok, okOr_eq_ok, ensure_eq_ok, exists_and_left, exists_const,
    validateDate_eq_ok] at h
  obtain ⟨⟨-, hbytes⟩, year, hy, month, hm, day, hd, hdate, hour, hh, minute, hi, second, hs,
      hclock, ⟨e, seconds⟩, hoffset, micros, hfraction, -⟩ := h
  obtain ⟨⟨hyear, -⟩, hlayout⟩ := (clockAndDate_iff bytes year month day hour minute second).2
    ⟨⟨hy, hm, hd, hh, hi, hs⟩, hbytes⟩
  obtain ⟨before, o, hdrop, -, rfl, rfl⟩ := (parseOffset_eq_ok _ _ _).1 hoffset
  obtain ⟨fraction, rfl, hvalid, -⟩ := (parseFraction_eq_ok hdrop _).1 hfraction
  refine ⟨⟨year, month, day, hour, minute, second, fraction, o, by omega, hdate, hclock, hvalid⟩,
    ?_⟩
  rw [TimeLiteral.text, ← hdrop, ← hlayout]

theorem fractionText_injective {a b : Option (List UInt8)}
    (h : fractionText a = fractionText b) : a = b := by
  cases a <;> cases b <;> simp_all [fractionText]

theorem fractionText_no_marker {fraction : Option (List UInt8)} (h : ValidFraction fraction) :
    ∀ byte ∈ fractionText fraction, isMarker byte = false := by
  intro byte hbyte
  cases fraction with
  | none => simp [fractionText] at hbyte
  | some digits =>
    rcases List.mem_cons.1 hbyte with rfl | hdigit
    · rfl
    · have hrange := toNat_of_isDigit (List.all_eq_true.1 (h digits rfl).2 byte hdigit)
      simp only [isMarker, Bool.or_eq_false_iff, decide_eq_false_iff_not, ← UInt8.toNat_inj]
      change (¬ byte.toNat = 90 ∧ ¬ byte.toNat = 43) ∧ ¬ byte.toNat = 45
      omega

theorem TimeLiteral.drop_text (l : TimeLiteral) :
    l.text.drop 19 = fractionText l.fraction ++ l.offset.text := by
  have hhead : ∀ rest, clockAndDate l.year l.month l.day l.hour l.minute l.second rest =
      (padded 4 l.year ++ [45] ++ padded 2 l.month ++ [45] ++ padded 2 l.day ++ [84] ++
        padded 2 l.hour ++ [58] ++
        padded 2 l.minute ++ [58] ++ padded 2 l.second) ++ rest := by
    intro rest
    simp [clockAndDate]
  rw [TimeLiteral.text, hhead, List.drop_left']
  simp [length_padded]

/-- The instant of the days and the time of day, if no sum on the way is too large. -/
theorem instant_eq_some {days hour minute second offset micros : ℤ}
    (hdays : -1000000 ≤ days ∧ days ≤ 4000000)
    (hhour : 0 ≤ hour ∧ hour ≤ 23) (hminute : 0 ≤ minute ∧ minute ≤ 59)
    (hsecond : 0 ≤ second ∧ second ≤ 59)
    (hoffset : -86340 ≤ offset ∧ offset ≤ 86340) (value : I64) :
    (∃ localSeconds :
      I64, (∃ a : I64, a.val = days * 86400 ∧ ∃ b : I64, b.val = a.val + hour * 3600 ∧ ∃ c : I64,
      c.val = b.val + minute * 60 ∧ localSeconds.val = c.val + second) ∧ ∃ utc :
      I64, utc.val = localSeconds.val - offset ∧
        ∃ scaled : I64, scaled.val = utc.val * 1000000 ∧ value.val = scaled.val + micros) ↔
    value.val = (days * 86400 + hour * 3600 + minute * 60 + second - offset) * 1000000 +
      micros := by
  refine ⟨?_, fun h => ?_⟩
  · rintro ⟨localSeconds, ⟨a, ha, b, hb, c, hc, hlocal⟩, utc, hutc, scaled, hscaled, hvalue⟩
    rw [hvalue, hscaled, hutc, hlocal, hc, hb, ha]
  · have hfits : ∀ z : ℤ, -10 ^ 18 ≤ z ∧ z ≤ 10 ^ 18 → ∃ c : I64, c.val = z := fun z hz =>
      (fitsI64_iff z).1 ⟨by omega, by omega⟩
    obtain ⟨a, ha⟩ := hfits (days * 86400) (by omega)
    obtain ⟨b, hb⟩ := hfits (a.val + hour * 3600) (by omega)
    obtain ⟨c, hc⟩ := hfits (b.val + minute * 60) (by omega)
    obtain ⟨localSeconds, hlocal⟩ := hfits (c.val + second) (by omega)
    obtain ⟨utc, hutc⟩ := hfits (localSeconds.val - offset) (by omega)
    obtain ⟨scaled, hscaled⟩ := hfits (utc.val * 1000000) (by omega)
    exact ⟨localSeconds, ⟨a, ha, b, hb, c, hc, hlocal⟩, utc, hutc, scaled, hscaled, by omega⟩

/-- A literal is read as the instant it stands for, if that is a whole number of microseconds. -/
theorem parse_timeText (l : TimeLiteral) (t : MatchTime) : MatchTime.parse l.text = .ok t ↔
    (t.key : ℚ) = l.microseconds := by
  obtain ⟨limit, hlimit, hday⟩ := l.date
  obtain ⟨hmonth, hmonth', hlimit'⟩ := daysInMonth_bounds hlimit
  have hyear := l.yearInRange
  have hclock := l.clock
  have hlayout :
      l.text = clockAndDate l.year l.month l.day l.hour l.minute l.second (l.text.drop 19) := by
    rw [l.drop_text]
    rfl
  obtain ⟨⟨hy, hm, hd, hh, hi, hs⟩, hbytes⟩ := (clockAndDate_iff l.text _ _ _ _ _ _).1
    ⟨⟨by omega, by omega, by omega, by omega, by omega, by omega⟩, hlayout⟩
  have hlength : 20 ≤ l.text.length := by
    have hdrop := congrArg List.length l.drop_text
    obtain ⟨byte, rest, htext, -⟩ := l.offset.text_cons
    rw [List.length_drop, List.length_append, htext, List.length_cons] at hdrop
    omega
  have hoffset := (parseOffset_eq_ok l.text _ _).2
    ⟨fractionText l.fraction, l.offset, l.drop_text,
      fractionText_no_marker l.validFraction, rfl, rfl⟩
  have hfraction : ∀ micros : ℤ, parseFraction l.text (19 + (fractionText l.fraction).length) =
      .ok micros ↔
      (micros : ℚ) = fractionMicroseconds l.fraction := by
    intro micros
    rw [parseFraction_eq_ok l.drop_text]
    refine ⟨?_, fun h => ⟨l.fraction, rfl, l.validFraction, h⟩⟩
    rintro ⟨fraction, htext, -, h⟩
    rwa [fractionText_injective htext]
  have hbounds := @daysFromCivil_bounds _ _ l.day hyear ⟨hmonth, hmonth'⟩ (by omega)
  rw [MatchTime.parse]
  simp only [hy, hm, hd, hh, hi, hs, hoffset, hfraction, bind_eq_ok, okOr_eq_ok, ensure_eq_ok,
    pure_eq_ok, exists_and_left,
    exists_const, Option.bind_eq_some_iff, Option.bind_eq_bind, Signed.ofInt?_eq_some,
    validateDate_eq_ok, Option.some.injEq, exists_eq_left', Except.ok.injEq]
  have hinstant : ∀ micros : ℤ, _ :=
    fun micros => @instant_eq_some _ l.hour l.minute l.second _ micros hbounds (by omega)
    (by omega) (by omega) l.offset.seconds_bounds
  rw [daysFromCivil_eq_dayNumber l.day hlimit] at hinstant ⊢
  refine ⟨?_, fun h => ?_⟩
  · rintro ⟨-, -, -, micros, hmicros, localSeconds, hlocal, utc, hutc, value,
      ⟨scaled, hscaled, hvalue⟩, rfl⟩
    have hkey :=
      (hinstant micros value).1 ⟨localSeconds, hlocal, utc, hutc, scaled, hscaled, hvalue⟩
    rw [TimeLiteral.microseconds, ← hmicros]
    exact_mod_cast hkey
  · -- the fraction is what is left of a whole number
    obtain ⟨micros, hmicros⟩ : ∃ micros :
        ℤ, (micros : ℚ) = fractionMicroseconds l.fraction ∧ t.key =
        (dayNumber l.year l.month l.day * 86400 + l.hour * 3600 + l.minute * 60 + l.second -
          l.offset.seconds) * 1000000 +
          micros := by
      refine ⟨t.key -
        (dayNumber l.year l.month l.day * 86400 + l.hour * 3600 + l.minute * 60 + l.second -
        l.offset.seconds) * 1000000, ?_, by omega⟩
      rw [Int.cast_sub, h, TimeLiteral.microseconds]
      push_cast
      ring
    obtain ⟨localSeconds, hlocal, utc, hutc, scaled, hscaled, hvalue⟩ :=
      (hinstant micros t.unixMicroseconds).2 hmicros.2
    exact ⟨⟨hlength, hbytes⟩, ⟨limit, hlimit, hday⟩, hclock, micros, hmicros.1, localSeconds,
      hlocal, utc, hutc, t.unixMicroseconds, ⟨scaled, hscaled, hvalue⟩, rfl⟩

end Parsing

end Osmium
