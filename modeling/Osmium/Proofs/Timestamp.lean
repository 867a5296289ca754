import Osmium.Sanity.Timestamp
import Osmium.Spec.Accounting

/-! Replay times and their texts stand for the same instants, and the date in a text is the date the
accounts use. -/

namespace Osmium
open Machine Result Calendar Numeral

section Dates

/-- Both divisions are of numbers that are not negative, so the conversion is the one of the
calendar. -/
theorem MatchTime.civilFromDays_eq (days : ℤ) :
    MatchTime.civilFromDays days = Calendar.civilFromDays days := by
  obtain ⟨dayOfEra, hdayOfEra⟩ :
      ∃ dayOfEra, dayOfEra = days + 719468 - (days + 719468) / 146097 * 146097 := ⟨_, rfl⟩
  have hrange : 0 ≤ dayOfEra ∧ dayOfEra ≤ 146096 := by omega
  have hyear := (era_bounds dayOfEra hrange).1
  simp only [MatchTime.civilFromDays, Calendar.civilFromDays, ← hdayOfEra,
    Int.tdiv_eq_ediv_of_nonneg hrange.1]
  rw [Int.tdiv_eq_ediv_of_nonneg hyear, Int.tdiv_eq_ediv_of_nonneg hyear]

/-- Years of four digits are those of trading dates. -/
theorem civil_year_iff (days : ℤ) : 0 ≤ (Calendar.civilFromDays days).1 ∧
    (Calendar.civilFromDays days).1 ≤ 9999 ↔
    minEpochDays ≤ days ∧ days ≤ maxEpochDays := by
  refine ⟨?_, fun h => ?_⟩
  · obtain ⟨era, year, dayOfYear, month, hdays, hlow, hhigh, hday, hlast, -, hmonth, hcivil⟩ :=
      civilFromDays_parts days
    rw [hcivil, minEpochDays, maxEpochDays]
    rintro ⟨hyear, hyear'⟩
    dsimp only at hyear hyear'
    have hera : -1 ≤ era ∧ era ≤ 24 := by split_ifs at hyear hyear' <;> omega
    rcases (by omega : era = -1 ∨ 0 ≤ era) with rfl | hpos
    · -- the two months of year zero that belong to the era before
      have hfirst : year = 399 ∧ 10 ≤ month := by split_ifs at hyear hyear' <;> omega
      obtain ⟨rfl, hfirst⟩ := hfirst
      omega
    · rcases (by omega : era = 24 ∨ era ≤ 23) with rfl | hsmall
      · have hlastYear : year ≤ 398 ∨ month < 10 := by split_ifs at hyear hyear' <;> omega
        omega
      · omega
  · obtain ⟨year, month, day, limit, hcivil, hyear, -⟩ := civilFromDays_valid h
    rw [hcivil]
    exact ⟨Int.natCast_nonneg _, Int.ofNat_le.2 hyear⟩

/-- The accounts take the day of the shifted time. -/
theorem tradingDate_eq_ok {t : MatchTime} {minutes : I32} {shifted : I64}
    (h : shifted.val = t.key + minutes.val * 60000000)
    (date : TradingDate) : tradingDate t minutes = .ok date ↔
    date.epochDays.val = shifted.val / 86400000000 := by
  have hlower := minutes.lower
  have hupper := minutes.upper
  have hminutes : (Signed.wrap 64 minutes.val).val = minutes.val :=
    Signed.wrap_val_of_mem _ (by norm_num) (by omega) (by omega)
  have hmicros : (Signed.wrap 64 60000000).val = 60000000 := rfl
  obtain ⟨offset, hoffset⟩ := (fitsI64_iff (minutes.val * 60000000)).1 ⟨by omega, by omega⟩
  simp only [tradingDate, bind_eq_ok, okOr_eq_ok, mapError_eq_ok, Signed.checkedMul_eq_some,
    Signed.checkedAdd_eq_some,
    Signed.ofInt?_eq_some, TradingDate.fromEpochDays_eq_ok, hminutes, hmicros]
  refine ⟨?_, fun hdate => ?_⟩
  · rintro ⟨offset', hoffset', shifted', hshifted', epochDays, hdays, rfl⟩
    rw [hdays, h, hshifted', hoffset']
    rfl
  · exact ⟨offset, hoffset, shifted, by rw [hoffset]; exact h, date.epochDays, hdate, rfl⟩

theorem TradingDate.validateDate_eq_ok (year month day : ℕ) (u : Unit) :
    TradingDate.validateDate year month day = .ok u ↔
      ∃ limit, daysInMonth year month = some limit ∧ 1 ≤ day ∧ day ≤ limit := by
  unfold TradingDate.validateDate
  split
  · rename_i h
    simp [h]
  · rename_i limit h
    simp only [ensure_eq_ok, h, Option.some.injEq, exists_eq_left']
    omega

/-- A date is read back from its text. -/
theorem TradingDate.parse_display (date : TradingDate) :
    TradingDate.parse date.display = .ok date := by
  obtain ⟨year, month, day, limit, hcivil, hyear, hmonth, hlimit, hfirst, hlast, hbound⟩ :=
    civilFromDays_valid date.inRange
  have hback := daysFromCivil_civilFromDays date.epochDays.val
  rw [hcivil] at hback
  have htext : date.display.drop 0 =
      padded 4 year ++ 45 :: (padded 2 month ++ 45 :: (padded 2 day ++ [])) := by
    rw [TradingDate.display, hcivil]
    simp
  have h₄ : date.display.drop 4 = _ := drop_padded htext
  have h₅ : date.display.drop 5 = _ := drop_byte h₄
  have h₇ : date.display.drop 7 = _ := drop_padded h₅
  have h₈ : date.display.drop 8 = _ := drop_byte h₇
  have h₁₀ : date.display.drop 10 = _ := drop_padded h₈
  have hlength : date.display.length = 10 := by
    rw [← List.drop_zero (l := date.display), htext]
    simp [length_padded]
  have hy : parseDigits date.display 0 4 = some year :=
    (parseDigits_eq_some_iff _ _ _ _).2
      ⟨by omega, htext.trans (congrArg (padded 4 year ++ ·) h₄.symm)⟩
  have hm : parseDigits date.display 5 2 = some month :=
    (parseDigits_eq_some_iff _ _ _ _).2
      ⟨by omega, h₅.trans (congrArg (padded 2 month ++ ·) h₇.symm)⟩
  have hd : parseDigits date.display 8 2 = some day :=
    (parseDigits_eq_some_iff _ _ _ _).2 ⟨by omega, h₈.trans (congrArg (padded 2 day ++ ·) h₁₀.symm)⟩
  have hdash : date.display[4]? = some 45 :=
    (getElem?_eq_some_iff_drop _ _ _).2 (h₄.trans (congrArg (45 :: ·) h₅.symm))
  have hdash' : date.display[7]? = some 45 :=
    (getElem?_eq_some_iff_drop _ _ _).2 (h₇.trans (congrArg (45 :: ·) h₈.symm))
  simp only [TradingDate.parse, hy, hm, hd, bind_eq_ok, okOr_eq_ok, ensure_eq_ok, exists_and_left,
    exists_const,
    Option.some.injEq, exists_eq_left', TradingDate.validateDate_eq_ok,
    TradingDate.fromEpochDays_eq_ok]
  refine ⟨⟨hlength, hdash, hdash'⟩, ⟨limit, hlimit, hfirst, hlast⟩, ?_⟩
  rw [hback]
  exact Signed.ext
    (Signed.wrap_val_of_mem _ (by norm_num) date.epochDays.lower date.epochDays.upper)

end Dates

section Iso

/-- The offset as it is written. -/
def UtcOffsetMinutes.literal (offset : UtcOffsetMinutes) : OffsetLiteral :=
  .shifted (if offset.asMinutes < 0 then .minus else .plus) (offset.asMinutes.natAbs / 60)
    (offset.asMinutes.natAbs % 60)
    (by have := offset.inRange; omega)

theorem UtcOffsetMinutes.literal_seconds (offset : UtcOffsetMinutes) :
    offset.literal.seconds = offset.asMinutes * 60 := by
  rw [UtcOffsetMinutes.literal]
  split_ifs with h
  · change -((offset.asMinutes.natAbs / 60 : ℕ) * 3600 +
        (offset.asMinutes.natAbs % 60 : ℕ) * 60 : ℤ) = _
    omega
  · change ((offset.asMinutes.natAbs / 60 : ℕ) * 3600 +
        (offset.asMinutes.natAbs % 60 : ℕ) * 60 : ℤ) = _
    omega

theorem fractionMicroseconds_padded {micros : ℕ} (h : micros < 10 ^ 6) :
    fractionMicroseconds (some (padded 6 micros)) = micros := by
  rw [fractionMicroseconds, Option.getD_some, digitsValue_padded _ _ h, length_padded]
  norm_num

theorem validFraction_padded (micros : ℕ) : ValidFraction (some (padded 6 micros)) := by
  intro digits hdigits
  obtain rfl := Option.some_inj.1 hdigits
  refine ⟨?_, all_isDigit_padded _ _⟩
  rw [← List.length_pos_iff, length_padded]
  norm_num

/-- What is written is a literal of the instant, and its date is the one of the shifted time. -/
theorem literal_of_toIso8601 {t : MatchTime} {offset : UtcOffsetMinutes} {text : List UInt8}
    (h : t.toIso8601 offset = .ok text) : ∃ (l : TimeLiteral) (date : TradingDate) (shifted : I64),
      l.text = text ∧ l.microseconds = t.key ∧ shifted.val = t.key + offset.asMinutes * 60000000 ∧
      date.epochDays.val = shifted.val / 86400000000 ∧ text.take 10 = date.display := by
  simp only [MatchTime.toIso8601, bind_eq_ok, okOr_eq_ok, ensure_eq_ok, pure_eq_ok, exists_and_left,
    exists_const, Signed.ofInt?_eq_some] at h
  obtain ⟨shifted, hshifted, hyear, htext⟩ := h
  have hdays : shifted.val / 1000000 / 86400 = shifted.val / 86400000000 := by
    rw [Int.ediv_ediv_of_nonneg (by norm_num)]
    norm_num
  rw [MatchTime.civilFromDays_eq] at hyear htext
  have hrange := (civil_year_iff _).1 hyear
  obtain ⟨year, month, day, limit, hcivil, hyear', hmonth, hlimit, hfirst, hlast, hbound⟩ :=
    civilFromDays_valid hrange
  have hback := daysFromCivil_civilFromDays (shifted.val / 1000000 / 86400)
  rw [hcivil] at hback htext
  rw [daysFromCivil_eq_dayNumber day hlimit] at hback
  obtain ⟨seconds, hseconds⟩ : ∃ seconds, seconds = shifted.val / 1000000 % 86400 := ⟨_, rfl⟩
  obtain ⟨micros, hmicros⟩ : ∃ micros, micros = shifted.val % 1000000 := ⟨_, rfl⟩
  simp only [← hseconds, ← hmicros, Int.toNat_natCast] at htext
  have hepoch : minEpochDays ≤ shifted.val / 86400000000 ∧
      shifted.val / 86400000000 ≤ maxEpochDays := hdays ▸ hrange
  obtain ⟨epochDays, hepochDays⟩ : ∃ c : I32, c.val = shifted.val / 86400000000 := by
    rw [minEpochDays, maxEpochDays] at hepoch
    exact ⟨⟨_, by omega, by omega⟩, rfl⟩
  refine ⟨⟨year, month, day, (seconds / 3600).toNat, (seconds % 3600 / 60).toNat,
    (seconds % 60).toNat,
    some (padded 6 micros.toNat), offset.literal, hyear', ⟨limit, hlimit, hfirst, hlast⟩, by
      omega, validFraction_padded _⟩,
    ⟨epochDays, hepochDays ▸ hepoch⟩, shifted, ?_, ?_, by rw [hshifted]; ring, hepochDays, ?_⟩
  · rw [← htext]
    simp only [TimeLiteral.text, clockAndDate, fractionText, UtcOffsetMinutes.literal,
      OffsetLiteral.text, List.append_assoc, List.cons_append, List.nil_append]
    split_ifs <;> rfl
  · rw [TimeLiteral.microseconds, fractionMicroseconds_padded (by omega),
      UtcOffsetMinutes.literal_seconds]
    dsimp only
    rw [hback]
    have hkey :
        (shifted.val / 1000000 / 86400 * 86400 + (seconds / 3600).toNat * 3600 +
          (seconds % 3600 / 60).toNat * 60 +
        (seconds % 60).toNat - offset.asMinutes * 60) * 1000000 + micros.toNat = t.key := by
      omega
    exact_mod_cast hkey
  · rw [← htext, TradingDate.display]
    dsimp only
    rw [hepochDays, ← hdays, hcivil]
    simp only [List.append_assoc, Int.toNat_natCast]
    rw [← List.append_assoc, ← List.append_assoc, ← List.append_assoc, ← List.append_assoc,
      List.take_left']
    · simp
    · simp [length_padded]

/-- Reading a written time gives it back; every accepted text is a literal, read as the very instant
it stands for; and the date in a written time is the one the accounts derive from the time and the
offset. -/
theorem timestamps_agree :
    (∀ (t : MatchTime) (offset : UtcOffsetMinutes) (text : List UInt8),
      t.toIso8601 offset = .ok text →
      MatchTime.parse text = .ok t) ∧
    (∀ (text : List UInt8) (t : MatchTime), MatchTime.parse text = .ok t →
      (∃ l : TimeLiteral, l.text = text) ∧ ∀ l :
      TimeLiteral, l.text = text → (t.key : ℚ) = l.microseconds) ∧
    ∀ (t : MatchTime) (offset : UtcOffsetMinutes) (text : List UInt8) (minutes : I32),
      minutes.val = offset.asMinutes →
      t.toIso8601 offset = .ok text → ∃ date, tradingDate t minutes = .ok date ∧
      text.take 10 = date.display ∧
        TradingDate.parse (text.take 10) = .ok date := by
  refine ⟨fun t offset text h => ?_, fun text t h =>
    ⟨timeLiteral_of_parse h, ?_⟩, fun t offset text minutes hminutes h => ?_⟩
  · obtain ⟨l, -, -, rfl, hl, -⟩ := literal_of_toIso8601 h
    exact (parse_timeText l t).2 hl.symm
  · rintro l rfl
    exact (parse_timeText l t).1 h
  · obtain ⟨-, date, shifted, -, -, hshifted, hdate, htake⟩ := literal_of_toIso8601 h
    rw [← hminutes] at hshifted
    exact ⟨date, (tradingDate_eq_ok hshifted date).2 hdate,
      htake, by rw [htake]; exact date.parse_display⟩

end Iso

end Osmium
