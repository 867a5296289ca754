import Osmium.Lib.Calendar
import Osmium.Spec.Values

/-! Timestamps as text: the display and the parser of trading dates and of offset-aware ISO-8601
times. -/

namespace Osmium
open Machine Bytes Result Calendar

/-- `YYYY-MM-DD`. The year of a trading date has four digits. -/
def TradingDate.display (self : TradingDate) : List UInt8 :=
  let (year, month, day) := civilFromDays self.epochDays.val
  padded 4 year.toNat ++ [45] ++ padded 2 month.toNat ++ [45] ++ padded 2 day.toNat

def TradingDate.validateDate (year month day : ℕ) : Except TradingDateError Unit :=
  match daysInMonth year month with
  | none => .error .invalidDate
  | some limit => ensure (day ≠ 0 ∧ day ≤ limit) .invalidDate

/-- An exact Gregorian `YYYY-MM-DD` date. Four digits of a year leave the day number far inside its
type. -/
def TradingDate.parse (bytes : List UInt8) : Except TradingDateError TradingDate := do
  ensure (bytes.length = 10 ∧ bytes[4]? = some 45 ∧ bytes[7]? = some 45) .invalidFormat
  let year ← okOr .invalidFormat (parseDigits bytes 0 4)
  let month ← okOr .invalidFormat (parseDigits bytes 5 2)
  let day ← okOr .invalidFormat (parseDigits bytes 8 2)
  TradingDate.validateDate year month day
  TradingDate.fromEpochDays (Signed.wrap 32 (daysFromCivil year month day))

inductive MatchTimeError
  | invalidFormat
  | invalidDate
  | invalidTime
  | invalidOffset
  | precisionLoss
  | outOfRange
deriving DecidableEq

def validateDate (year month day : ℕ) : Except MatchTimeError Unit :=
  match daysInMonth year month with
  | none => .error .invalidDate
  | some limit => ensure (day ≠ 0 ∧ day ≤ limit) .invalidDate

/-- Where the offset starts and how many seconds it is. -/
def parseOffset (bytes : List UInt8) : Except MatchTimeError (ℕ × ℤ) := do
  let index ← okOr .invalidFormat
      ((bytes.drop 19).findIdx? fun byte => byte = 90 || byte = 43 || byte = 45)
  let start := index + 19
  if bytes[start]? = some 90 then
    ensure (start + 1 = bytes.length) .invalidFormat
    return (start, 0)
  else
    ensure (start + 6 = bytes.length ∧ bytes[start + 3]? = some 58) .invalidOffset
    let hours ← okOr .invalidOffset (parseDigits bytes (start + 1) 2)
    let minutes ← okOr .invalidOffset (parseDigits bytes (start + 4) 2)
    ensure (hours ≤ 23 ∧ minutes ≤ 59) .invalidOffset
    let magnitude : ℤ := hours * 3600 + minutes * 60
    return (start, if bytes[start]? = some 45 then -magnitude else magnitude)

/-- The fraction of a second in microseconds, with no digit lost. -/
def parseFraction (bytes : List UInt8) (fractionEnd : ℕ) : Except MatchTimeError ℤ :=
  if fractionEnd = 19 then .ok 0
  else do
    ensure (bytes[19]? = some 46 ∧ fractionEnd ≠ 20) .invalidFormat
    let digits := (bytes.drop 20).take (fractionEnd - 20)
    ensure (digits.all isDigit = true) .invalidFormat
    ensure ((digits.drop 6).all (fun digit => digit = 48) = true) .precisionLoss
    return digitsValue (digits.take 6) * 10 ^ (6 - digits.length)

/-- `YYYY-MM-DDTHH:MM:SS[.fraction](Z|±HH:MM)`. -/
def MatchTime.parse (bytes : List UInt8) : Except MatchTimeError MatchTime := do
  ensure (20 ≤ bytes.length ∧ bytes[4]? = some 45 ∧ bytes[7]? = some 45 ∧ bytes[10]? = some 84 ∧
    bytes[13]? = some 58 ∧
    bytes[16]? = some 58) .invalidFormat
  let year ← okOr .invalidFormat (parseDigits bytes 0 4)
  let month ← okOr .invalidFormat (parseDigits bytes 5 2)
  let day ← okOr .invalidFormat (parseDigits bytes 8 2)
  validateDate year month day
  let hour ← okOr .invalidFormat (parseDigits bytes 11 2)
  let minute ← okOr .invalidFormat (parseDigits bytes 14 2)
  let second ← okOr .invalidFormat (parseDigits bytes 17 2)
  ensure (hour ≤ 23 ∧ minute ≤ 59 ∧ second ≤ 59) .invalidTime
  let (fractionEnd, offsetSeconds) ← parseOffset bytes
  let microseconds ← parseFraction bytes fractionEnd
  let localSeconds ← okOr .outOfRange (do
    let value ← Signed.ofInt? 64 (daysFromCivil year month day * 86400)
    let value ← Signed.ofInt? 64 (value.val + hour * 3600)
    let value ← Signed.ofInt? 64 (value.val + minute * 60)
    Signed.ofInt? 64 (value.val + second))
  let utcSeconds ← okOr .outOfRange (Signed.ofInt? 64 (localSeconds.val - offsetSeconds))
  let unixMicroseconds ← okOr .outOfRange (do
    let value ← Signed.ofInt? 64 (utcSeconds.val * 1000000)
    Signed.ofInt? 64 (value.val + microseconds))
  return ⟨unixMicroseconds⟩

inductive UtcOffsetMinutesError | outOfRange
deriving DecidableEq

/-- A validated ISO-8601 UTC offset in whole minutes. -/
structure UtcOffsetMinutes where
  asMinutes : ℤ
  inRange : -1439 ≤ asMinutes ∧ asMinutes ≤ 1439

def UtcOffsetMinutes.new (minutes : I32) : Except UtcOffsetMinutesError UtcOffsetMinutes :=
  if h : -1439 ≤ minutes.val ∧ minutes.val ≤ 1439 then .ok ⟨minutes.val, h⟩ else .error .outOfRange

/-- The date of a day number as the module of replay times computes it, with the two divisions it
mixes: by `div_euclid`, and truncating. -/
def MatchTime.civilFromDays (days : ℤ) : ℤ × ℤ × ℤ :=
  let shifted := days + 719468
  let era := shifted / 146097
  let dayOfEra := shifted - era * 146097
  let yearOfEra :=
    (dayOfEra - dayOfEra.tdiv 1460 + dayOfEra.tdiv 36524 - dayOfEra.tdiv 146096) / 365
  let year := yearOfEra + era * 400
  let dayOfYear := dayOfEra - (365 * yearOfEra + yearOfEra.tdiv 4 - yearOfEra.tdiv 100)
  let monthPart := (5 * dayOfYear + 2) / 153
  let day := dayOfYear - (153 * monthPart + 2) / 5 + 1
  let month := monthPart + if monthPart < 10 then 3 else -9
  (year + (if month ≤ 2 then 1 else 0), month, day)

inductive MatchTimeFormatError | outOfRange
deriving DecidableEq

/-- `YYYY-MM-DDTHH:MM:SS.ffffff±HH:MM`. -/
def MatchTime.toIso8601 (self : MatchTime) (offset : UtcOffsetMinutes) :
    Except MatchTimeFormatError (List UInt8) := do
  let offsetMicroseconds := offset.asMinutes * 60 * 1000000
  let localMicroseconds ← okOr .outOfRange (Signed.ofInt? 64 (self.key + offsetMicroseconds))
  let localSeconds := localMicroseconds.val / 1000000
  let microseconds := localMicroseconds.val % 1000000
  let days := localSeconds / 86400
  let seconds := localSeconds % 86400
  let (year, month, day) := MatchTime.civilFromDays days
  ensure (0 ≤ year ∧ year ≤ 9999) .outOfRange
  let hour := seconds / 3600
  let minute := seconds % 3600 / 60
  let second := seconds % 60
  let sign : UInt8 := if offset.asMinutes < 0 then 45 else 43
  let absoluteOffset := offset.asMinutes.natAbs
  return padded 4 year.toNat ++ [45] ++ padded 2 month.toNat ++ [45] ++ padded 2 day.toNat ++
    [84] ++ padded 2 hour.toNat ++
    [58] ++ padded 2 minute.toNat ++ [58] ++ padded 2 second.toNat ++ [46] ++
      padded 6 microseconds.toNat ++ [sign] ++
    padded 2 (absoluteOffset / 60) ++ [58] ++ padded 2 (absoluteOffset % 60)

end Osmium
