import Osmium.Lib.Order
import Osmium.Lib.Bytes
import Osmium.Lib.Result

/-! The scalar vocabulary of the market-types crate: exact decimals and prices, replay time, trading
dates, quantities with their unit, and instrument identity. -/

namespace Osmium
open Machine Bytes Result

/-- Signed `10 ^ -18` atoms. -/
@[ext] structure Decimal where
  atoms : I128
deriving DecidableEq

/-- An exact signed market price. Instrument rules decide which values are valid. -/
@[ext] structure Price where
  value : Decimal
deriving DecidableEq

def Price.atoms (p : Price) : I128 := p.value.atoms

/-- The sole replay-time value: Unix microseconds in UTC. -/
@[ext] structure MatchTime where
  unixMicroseconds : I64
deriving DecidableEq

def Price.key (p : Price) : ℤ := p.atoms.val

def MatchTime.key (t : MatchTime) : ℤ := t.unixMicroseconds.val

theorem Price.key_injective : Function.Injective Price.key :=
  fun _ _ h => Price.ext (Decimal.ext (Signed.ext h))

theorem MatchTime.key_injective : Function.Injective MatchTime.key :=
  fun _ _ h => MatchTime.ext (Signed.ext h)

instance : LinearOrder Price := LinearOrder.lift' Price.key Price.key_injective

instance : LinearOrder MatchTime := LinearOrder.lift' MatchTime.key MatchTime.key_injective

theorem MatchTime.le_iff (a b : MatchTime) : a ≤ b ↔ a.key ≤ b.key := Iff.rfl

theorem MatchTime.lt_iff (a b : MatchTime) : a < b ↔ a.key < b.key := Iff.rfl

theorem Price.le_iff (a b : Price) : a ≤ b ↔ a.key ≤ b.key := Iff.rfl

inductive DecimalError | invalidFormat | precisionLoss | outOfRange
deriving DecidableEq

def Decimal.zero : Decimal := ⟨0⟩

def Decimal.scaleFactor : ℕ := 1000000000000000000

def Decimal.checkedAdd (a b : Decimal) : Except DecimalError Decimal :=
  okOr .outOfRange ((a.atoms.checkedAdd b.atoms).map Decimal.mk)

def Decimal.checkedSub (a b : Decimal) : Except DecimalError Decimal :=
  okOr .outOfRange ((a.atoms.checkedSub b.atoms).map Decimal.mk)

def Decimal.checkedNeg (a : Decimal) : Except DecimalError Decimal :=
  okOr .outOfRange (a.atoms.checkedNeg.map Decimal.mk)

theorem Decimal.checkedAdd_eq_ok (a b c : Decimal) :
    a.checkedAdd b = .ok c ↔ c.atoms.val = a.atoms.val + b.atoms.val := by
  simp [Decimal.checkedAdd, Signed.checkedAdd_eq_some, Decimal.ext_iff]

theorem Decimal.checkedSub_eq_ok (a b c : Decimal) :
    a.checkedSub b = .ok c ↔ c.atoms.val = a.atoms.val - b.atoms.val := by
  simp [Decimal.checkedSub, Signed.checkedSub_eq_some, Decimal.ext_iff]

theorem Decimal.checkedNeg_eq_ok (a c : Decimal) : a.checkedNeg = .ok c ↔
    c.atoms.val = -a.atoms.val := by
  simp [Decimal.checkedNeg, Signed.checkedNeg_eq_some, Decimal.ext_iff]

/-- Whether an instrument profile accepts only positive prices or signed spread values. -/
inductive PricePolicy | positiveOnly | signed
deriving DecidableEq

def PricePolicy.accepts (policy : PricePolicy) (price : Price) : Bool :=
  policy = .signed || decide (0 < price.atoms.val)

def minSupportedUnixMicroseconds : ℤ := -62167219200000000

def maxSupportedUnixMicroseconds : ℤ := 253402300799999999

def MatchTime.isUtcIso8601Representable (t : MatchTime) : Bool :=
  decide (minSupportedUnixMicroseconds ≤ t.key) && decide (t.key ≤ maxSupportedUnixMicroseconds)

inductive TradingDateError | invalidFormat | invalidDate | outOfRange
deriving DecidableEq

def minEpochDays : ℤ := -719528

def maxEpochDays : ℤ := 2932896

/-- An exchange business date, as signed days from 1970-01-01. -/
@[ext] structure TradingDate where
  epochDays : I32
  inRange : minEpochDays ≤ epochDays.val ∧ epochDays.val ≤ maxEpochDays
deriving DecidableEq

def TradingDate.fromEpochDays (d : I32) : Except TradingDateError TradingDate :=
  if h : minEpochDays ≤ d.val ∧ d.val ≤ maxEpochDays then .ok ⟨d, h⟩ else .error .outOfRange

theorem TradingDate.fromEpochDays_eq_ok (d : I32) (t : TradingDate) :
    TradingDate.fromEpochDays d = .ok t ↔ d = t.epochDays := by
  unfold TradingDate.fromEpochDays
  split_ifs with h
  · rw [Except.ok.injEq]
    exact ⟨fun e => e ▸ rfl, fun e => TradingDate.ext e⟩
  · simp only [false_iff]
    exact fun e => h (e ▸ t.inRange)

inductive QuantityUnit | sourceUnit | share | tradingUnit | contract
deriving DecidableEq

def QuantityUnit.discriminant : QuantityUnit → UInt8
  | .sourceUnit => 0
  | .share => 1
  | .tradingUnit => 2
  | .contract => 3

inductive QuantityUnitError | unknownDiscriminant (value : UInt8)

def QuantityUnit.fromDiscriminant : UInt8 → Except QuantityUnitError QuantityUnit
  | 0 => .ok .sourceUnit
  | 1 => .ok .share
  | 2 => .ok .tradingUnit
  | 3 => .ok .contract
  | value => .error (.unknownDiscriminant value)

inductive QuantityError
  | zero
  | unitMismatch (left right : QuantityUnit)
  | overflow
  | underflow
deriving DecidableEq

/-- A strictly positive market quantity with an explicit unit. -/
@[ext] structure Quantity where
  value : U64
  unit : QuantityUnit
  pos : 0 < value.val
deriving DecidableEq

def Quantity.new (value : U64) (unit : QuantityUnit) : Except QuantityError Quantity :=
  if h : value.val = 0 then .error .zero else .ok ⟨value, unit, Nat.pos_of_ne_zero h⟩

theorem Quantity.new_eq_ok (v : U64) (u : QuantityUnit) (q : Quantity) :
    Quantity.new v u = .ok q ↔ v = q.value ∧ u = q.unit := by
  unfold Quantity.new
  split_ifs with h
  · simp only [false_iff, not_and]
    rintro rfl
    exact absurd h q.pos.ne'
  · rw [Except.ok.injEq]
    exact ⟨fun e => e ▸ ⟨rfl, rfl⟩, fun e => Quantity.ext e.1 e.2⟩

/-- A cumulative market volume, where zero is a valid observation. -/
@[ext] structure Volume where
  value : U64
  unit : QuantityUnit
deriving DecidableEq

inductive MarketId | twse | tpex | taifex
deriving DecidableEq

def MarketId.discriminant : MarketId → UInt8
  | .twse => 1
  | .tpex => 2
  | .taifex => 3

inductive MarketIdError | unknownDiscriminant (value : UInt8)

def MarketId.fromDiscriminant : UInt8 → Except MarketIdError MarketId
  | 1 => .ok .twse
  | 2 => .ok .tpex
  | 3 => .ok .taifex
  | value => .error (.unknownDiscriminant value)

inductive SymbolError | empty

/-- A non-empty, byte-exact instrument symbol. -/
@[ext] structure Symbol where
  text : Text
  nonempty : text.isEmpty = false
deriving DecidableEq

def Symbol.new (value : Text) : Except SymbolError Symbol :=
  if h : value.isEmpty = false then .ok ⟨value, h⟩ else .error .empty

inductive SourceFormatIdError | empty

/-- A non-empty, byte-exact identifier from the normalizer registry. -/
@[ext] structure SourceFormatId where
  text : Text
  nonempty : text.isEmpty = false
deriving DecidableEq

def SourceFormatId.new (value : Text) : Except SourceFormatIdError SourceFormatId :=
  if h : value.isEmpty = false then .ok ⟨value, h⟩ else .error .empty

theorem Symbol.new_eq_ok (t : Text) (s : Symbol) : Symbol.new t = .ok s ↔ t = s.text := by
  unfold Symbol.new
  split_ifs with h
  · rw [Except.ok.injEq]
    exact ⟨fun e => e ▸ rfl, fun e => Symbol.ext e⟩
  · simp only [false_iff]
    rintro rfl
    exact h s.nonempty

theorem SourceFormatId.new_eq_ok (t : Text) (s : SourceFormatId) :
    SourceFormatId.new t = .ok s ↔ t = s.text := by
  unfold SourceFormatId.new
  split_ifs with h
  · rw [Except.ok.injEq]
    exact ⟨fun e => e ▸ rfl, fun e => SourceFormatId.ext e⟩
  · simp only [false_iff]
    rintro rfl
    exact h s.nonempty

/-- Stable instrument identity, independent of metadata and source display labels. -/
@[ext] structure InstrumentId where
  market : MarketId
  symbol : Symbol
deriving DecidableEq

/-- Markets by rank first, then symbols by their bytes. -/
instance : Ord InstrumentId :=
  ⟨fun a b => (compare a.market.discriminant b.market.discriminant).then
    (compare a.symbol.text.bytes b.symbol.text.bytes)⟩

def InstrumentId.key (i : InstrumentId) : List UInt8 := i.market.discriminant :: i.symbol.text.bytes

theorem MarketId.discriminant_injective : Function.Injective MarketId.discriminant := by
  intro a b h; cases a <;> cases b <;> first | rfl | exact absurd h (by decide)

theorem InstrumentId.key_injective : Function.Injective InstrumentId.key := by
  intro a b h
  obtain ⟨hm, hs⟩ := List.cons.inj h
  exact InstrumentId.ext (MarketId.discriminant_injective hm) (Symbol.ext (Text.ext hs))

theorem InstrumentId.compare_eq (a b : InstrumentId) : compare a b = compare a.key b.key := by
  simp only [compare, InstrumentId.key, List.compareLex_cons_cons]

instance : Std.TransOrd InstrumentId :=
  Order.transCmp_of_key _ InstrumentId.key InstrumentId.compare_eq

instance : Std.LawfulEqOrd InstrumentId :=
  Order.lawfulEqCmp_of_key _ InstrumentId.key InstrumentId.compare_eq InstrumentId.key_injective

end Osmium
