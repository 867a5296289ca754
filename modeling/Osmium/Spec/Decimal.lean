import Osmium.Lib.Numeral
import Osmium.Spec.Values

/-! Decimals as text. The parser moves a cursor over the bytes; here each of its steps takes what it
reads off the front and hands on the rest. A slice is no longer than a signed 64-bit length, so the
sum of the digit counts cannot overflow. -/

namespace Osmium
open Machine Result Calendar Numeral

/-- An optional sign: whether it was a minus, and what follows. -/
def takeSign : List UInt8 → Bool × List UInt8
  | 45 :: rest => (true, rest)
  | 43 :: rest => (false, rest)
  | rest => (false, rest)

/-- The digits after a point, none if there is no point. -/
def takeFraction : List UInt8 → List UInt8 × List UInt8
  | 46 :: rest => (rest.takeWhile isDigit, rest.dropWhile isDigit)
  | rest => ([], rest)

/-- The magnitude with its sign. The least value has no magnitude of its own type and is a case of
its own. -/
def signedMagnitude (w : ℕ) {m : ℕ} (magnitude : Unsigned m) (negative : Bool) :
    Except DecimalError (Signed w) :=
  if negative then
    if magnitude.val = 2 ^ (w - 1) then .ok (Signed.wrap w (-(2 ^ (w - 1) : ℕ)))
    else do
      let magnitude ← okOr .outOfRange (Signed.ofInt? w magnitude.val)
      return Signed.wrap w (-magnitude.val)
  else okOr .outOfRange (Signed.ofInt? w magnitude.val)

def parseExponent (bytes : List UInt8) : Except DecimalError (I64 × List UInt8) := do
  let (negative, bytes) := takeSign bytes
  let digits := bytes.takeWhile isDigit
  let magnitude ← okOr .outOfRange (accumulate 64 digits)
  ensure (digits ≠ []) .invalidFormat
  let exponent ← signedMagnitude 64 magnitude negative
  return (exponent, bytes.dropWhile isDigit)

def takeExponent : List UInt8 → Except DecimalError (I64 × List UInt8)
  | 101 :: rest => parseExponent rest
  | 69 :: rest => parseExponent rest
  | rest => .ok (0, rest)

def signedAtoms (magnitude : Unsigned 128) (negative : Bool) : Except DecimalError I128 :=
  signedMagnitude 128 magnitude negative

/-- How many of the digits are kept: the others must be zeros. -/
def retainedDigits (digits : List UInt8) (atomShift : I64) : Except DecimalError ℕ :=
  if atomShift.val < 0 then do
    let removedDigits := atomShift.val.natAbs
    ensure (removedDigits ≤ digits.length) .precisionLoss
    let retainedDigits := digits.length - removedDigits
    ensure ((digits.drop retainedDigits).all (fun digit => digit = 48) = true) .precisionLoss
    return retainedDigits
  else return digits.length

/-- The digits, moved by `atomShift` places, as a whole number. -/
def shiftedMagnitude (digits : List UInt8) (atomShift : I64) :
    Except DecimalError (Unsigned 128) := do
  let retained ← retainedDigits digits atomShift
  let magnitude ← okOr .outOfRange (accumulate 128 (digits.take retained))
  ensure (atomShift.val ≤ 38) .outOfRange
  okOr .outOfRange (timesTen atomShift.val.toNat magnitude)

/-- The digits, moved by `atomShift` places, with their sign. Zeros are zero wherever the point is.
-/
def decimalOfDigits (digits : List UInt8) (atomShift : I64) (negative : Bool) :
    Except DecimalError Decimal :=
  if digits.all (fun digit => digit = 48) = true then return Decimal.zero
  else do
    let magnitude ← shiftedMagnitude digits atomShift
    let atoms ← signedAtoms magnitude negative
    return ⟨atoms⟩

def parseDecimal (bytes : List UInt8) : Except DecimalError Decimal := do
  ensure (bytes ≠ []) .invalidFormat
  let (negative, rest) := takeSign bytes
  let integerDigits := rest.takeWhile isDigit
  let (fractionDigits, rest) := takeFraction (rest.dropWhile isDigit)
  ensure (integerDigits ≠ [] ∨ fractionDigits ≠ []) .invalidFormat
  let (exponent, rest) ← takeExponent rest
  ensure (rest = []) .invalidFormat
  let fractionLength ← okOr .outOfRange (Signed.ofInt? 64 fractionDigits.length)
  let atomShift ← okOr .outOfRange (do
    let value ← Signed.ofInt? 64 (18 + exponent.val)
    value.checkedSub fractionLength)
  decimalOfDigits (integerDigits ++ fractionDigits) atomShift negative

def Decimal.parse (bytes : List UInt8) : Except DecimalError Decimal := parseDecimal bytes

/-- The shortest text: no exponent, and no zeros at the end of a fraction. -/
def Decimal.display (self : Decimal) : List UInt8 :=
  let magnitude := self.atoms.val.natAbs
  let integer := magnitude / Decimal.scaleFactor
  let fraction := magnitude % Decimal.scaleFactor
  (if self.atoms.val < 0 then [45] else []) ++ decimalText integer ++
    if fraction ≠ 0 then [46] ++ trimZeros (padded 18 fraction) else []

end Osmium
