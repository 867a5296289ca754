import Osmium.Lib.Stateful
import Osmium.Spec.Orders

/-! The ledger of one instrument: charges with their rounding, the day-trade tax with its queues of
unmatched buys and sells, the position transition with its rounded allocation of cost basis, and the
three settlement conventions. -/

namespace Osmium
open Machine Bytes Result Stateful

structure CashChargeIdentity where
  digest : Digest
deriving DecidableEq

instance : Ord CashChargeIdentity := ⟨fun a b => compare a.digest b.digest⟩

instance : Std.TransOrd CashChargeIdentity :=
  Order.transCmp_of_key _ CashChargeIdentity.digest fun _ _ => rfl

instance : Std.LawfulEqOrd CashChargeIdentity :=
  Order.lawfulEqCmp_of_key _ CashChargeIdentity.digest (fun _ _ => rfl) fun a b h => by
    cases a; cases b; simp_all

inductive AccountingError
  | invalidModel
  | invalidPriceForInstrument
  | overflow
  | precisionLoss
  | missingCostBasis
  | reconciliation
  | emptyUniverse
  | duplicateInstrument (instrument : InstrumentId)
  | unknownInstrument (instrument : InstrumentId)
  | quantityUnitMismatch (expected actual : QuantityUnit)
  | accountingModelMismatch (instrument : InstrumentId)
  | missingFinalMark (instrument : InstrumentId)
  | invalidTradingDate
  | invalidCashCharge
  | duplicateCashCharge (identity : CashChargeIdentity)
deriving DecidableEq

inductive AccountingModel | equityV1 | futuresV1 | optionsV1
deriving DecidableEq

structure InstrumentEconomics where
  unitsPerTradingUnit : U64
  multiplier : Decimal
  provenance : Text
deriving DecidableEq

inductive ChargeSides | buy | sell | both
deriving DecidableEq

inductive RoundingPolicy | down | halfUp | up
deriving DecidableEq

inductive ChargeBasis | notionalRate | fixedPerUnit
deriving DecidableEq

structure ChargeModel where
  basis : ChargeBasis
  rate : Decimal
  sides : ChargeSides
  minimum : Decimal
  precision : ℕ
  rounding : RoundingPolicy
deriving DecidableEq

/-- The rule of `DayTradeTaxModel::new`. -/
def dayTradeTaxValid (ordinary dayTrade : ChargeModel) (timezoneOffsetMinutes : I32)
    (provenance : Text) : Prop :=
  provenance.isEmpty = false ∧
  ordinary.basis = .notionalRate ∧ dayTrade.basis = .notionalRate ∧
  ordinary.sides = .sell ∧ dayTrade.sides = .sell ∧
  dayTrade.rate.atoms ≤ ordinary.rate.atoms ∧
  0 ≤ ordinary.rate.atoms.val ∧ 0 ≤ dayTrade.rate.atoms.val ∧
  0 ≤ ordinary.minimum.atoms.val ∧ 0 ≤ dayTrade.minimum.atoms.val ∧
  ordinary.precision ≤ 18 ∧ dayTrade.precision ≤ 18 ∧
  -1439 ≤ timezoneOffsetMinutes.val ∧ timezoneOffsetMinutes.val ≤ 1439

structure DayTradeTaxModel where
  ordinary : ChargeModel
  dayTrade : ChargeModel
  timezoneOffsetMinutes : I32
  validThrough : TradingDate
  eligible : Bool
  eligibleDates : Option (List TradingDate)
  provenance : Text
  valid : dayTradeTaxValid ordinary dayTrade timezoneOffsetMinutes provenance

def DayTradeTaxModel.isEligible (model : DayTradeTaxModel) (date : TradingDate) : Bool :=
  model.eligible || model.eligibleDates.any fun dates => date ∈ dates

structure FillCostRecord where
  orderId : OrderId
  fee : Decimal
  tax : Decimal
deriving DecidableEq

structure DayTradeBuy where
  date : TradingDate
  remaining : ℕ
deriving DecidableEq

structure DayTradeSell where
  date : TradingDate
  price : Decimal
  quantity : ℕ
  matched : ℕ
  assessedTax : Decimal
deriving DecidableEq

structure Ledger where
  initialCash : Decimal
  cash : Decimal
  position : I128
  costBasisAtoms : I128
  averageCost : Option Decimal
  realizedPnl : Decimal
  totalFee : Decimal
  totalTax : Decimal
  fills : List FillRecord
  fillCosts : List FillCostRecord
  economics : InstrumentEconomics
  fee : ChargeModel
  tax : ChargeModel
  accountingModel : AccountingModel
  dayTradeTax : Option DayTradeTaxModel
  dayTradeBuys : List DayTradeBuy
  dayTradeSells : List DayTradeSell

def Ledger.newWithModel (initialCash : Decimal) (economics : InstrumentEconomics)
    (fee tax : ChargeModel) (accountingModel : AccountingModel) : Ledger where
  initialCash := initialCash
  cash := initialCash
  position := 0
  costBasisAtoms := 0
  averageCost := none
  realizedPnl := Decimal.zero
  totalFee := Decimal.zero
  totalTax := Decimal.zero
  fills := []
  fillCosts := []
  economics := economics
  fee := fee
  tax := tax
  accountingModel := accountingModel
  dayTradeTax := none
  dayTradeBuys := []
  dayTradeSells := []

def Ledger.withDayTradeTax (self : Ledger) (model : DayTradeTaxModel) : Ledger :=
  { self with tax := model.ordinary, dayTradeTax := some model }

def Ledger.withOptionalDayTradeTax (self : Ledger) (model : Option DayTradeTaxModel) : Ledger :=
  { self with dayTradeTax := model }

/-- A 128-bit result, or `Overflow`. -/
def checked (o : Option I128) : Except AccountingError I128 := okOr .overflow o

def checkedAdd (left right : Decimal) : Except AccountingError Decimal :=
  (left.checkedAdd right).mapError fun _ => .overflow

def checkedSub (left right : Decimal) : Except AccountingError Decimal :=
  (left.checkedSub right).mapError fun _ => .overflow

def checkedNeg (value : Decimal) : Except AccountingError Decimal :=
  value.checkedNeg.mapError fun _ => .overflow

def validateModels (economics : InstrumentEconomics) (fee tax : ChargeModel) :
    Except AccountingError Unit :=
  ensure (economics.unitsPerTradingUnit.val ≠ 0 ∧ 0 < economics.multiplier.atoms.val ∧
    economics.provenance.isEmpty = false ∧ 0 ≤ fee.rate.atoms.val ∧ 0 ≤ fee.minimum.atoms.val ∧
    0 ≤ tax.rate.atoms.val ∧ 0 ≤ tax.minimum.atoms.val ∧ fee.precision ≤ 18 ∧ tax.precision ≤ 18)
      .invalidModel

/-- Euclid's loop: each round replaces the pair by the second number and the remainder. -/
def gcd (left right : ℕ) : ℕ := Nat.gcd right left

def scaleFactorAtoms : I128 := Signed.wrap 128 Decimal.scaleFactor

/-- `left * right / 10 ^ 18`, with common factors cancelled before the product is taken. -/
def multiplyDecimalAtoms (left right : I128) : Except AccountingError I128 := do
  let denominator := scaleFactorAtoms
  let first : I128 := Signed.wrap 128 (gcd left.val.natAbs denominator.val.natAbs)
  let left := left.quot first
  let denominator := denominator.quot first
  let second : I128 := Signed.wrap 128 (gcd right.val.natAbs denominator.val.natAbs)
  let right := right.quot second
  let denominator := denominator.quot second
  let product ← checked (left.checkedMul right)
  ensure ((product.rem denominator).val = 0) .precisionLoss
  return product.quot denominator

def scaleByQuantity (value : Decimal) (quantity : ℕ) (economics : InstrumentEconomics) :
    Except AccountingError Decimal := do
  let quantity ← checked (Signed.ofInt? 128 quantity)
  let units : I128 := Signed.ofUnsigned 128 economics.unitsPerTradingUnit
  let scaled ← multiplyDecimalAtoms value.atoms economics.multiplier.atoms
  let product ← checked ((scaled.checkedMul quantity).bind fun value => value.checkedMul units)
  return ⟨product⟩

def notional (fill : FillRecord) (economics : InstrumentEconomics) :
    Except AccountingError Decimal :=
  scaleByQuantity fill.price.value fill.quantity.value.val economics

def divideRound (numerator denominator : I128) (policy : RoundingPolicy) :
    Except AccountingError I128 :=
  let quotient := numerator.quot denominator
  let remainder := numerator.rem denominator
  if remainder.val = 0 then .ok quotient
  else match policy with
    | .down => .ok quotient
    | .up => checked (quotient.checkedAdd (Signed.wrap 128 1))
    | .halfUp =>
      if denominator.abs.val ≤ (remainder.abs.wrappingMul (Signed.wrap 128 2)).val
      then checked (quotient.checkedAdd (Signed.wrap 128 1))
      else .ok quotient

def chargeApplies : ChargeSides → OrderSide → Bool
  | .both, _ => true
  | .buy, .buy => true
  | .sell, .sell => true
  | _, _ => false

def charge (notional : Decimal) (quantity : ℕ) (side : OrderSide) (model : ChargeModel) :
    Except AccountingError Decimal := do
  if chargeApplies model.sides side = false then return Decimal.zero
  let left ← match model.basis with
    | .notionalRate => checked notional.atoms.checkedAbs
    | .fixedPerUnit => checked ((Signed.wrap 128 quantity).checkedMul scaleFactorAtoms)
  let right := model.rate.atoms
  let denominator := scaleFactorAtoms
  let first : I128 := Signed.wrap 128 (gcd left.val.natAbs denominator.val.natAbs)
  let left := left.quot first
  let denominator := denominator.quot first
  let second : I128 := Signed.wrap 128 (gcd right.val.natAbs denominator.val.natAbs)
  let right := right.quot second
  let denominator := denominator.quot second
  let product ← checked (left.checkedMul right)
  let raw ← divideRound product denominator model.rounding
  let quantum ← checked (Signed.ofInt? 128 (10 ^ (18 - model.precision) : ℕ))
  let quotient ← divideRound raw quantum model.rounding
  let rounded ← checked (quotient.checkedMul quantum)
  return ⟨max rounded model.minimum.atoms⟩

def tradingDate (matchTime : MatchTime) (timezoneOffsetMinutes : I32) :
    Except AccountingError TradingDate := do
  let microsPerMinute : I64 := Signed.wrap 64 60000000
  let microsPerDay : ℤ := 86400000000
  let offset ← okOr .invalidTradingDate
      ((Signed.wrap 64 timezoneOffsetMinutes.val).checkedMul microsPerMinute)
  let shifted ← okOr .invalidTradingDate (matchTime.unixMicroseconds.checkedAdd offset)
  let epochDays ← okOr .invalidTradingDate (Signed.ofInt? 32 (shifted.val / microsPerDay))
  (TradingDate.fromEpochDays epochDays).mapError fun _ => .invalidTradingDate

/-- The charge on a part of a sell; nothing is charged on no quantity. -/
def partTax (price : Decimal) (quantity : ℕ) (economics : InstrumentEconomics)
    (model : ChargeModel) :
    Except AccountingError Decimal :=
  if quantity = 0 then .ok Decimal.zero
  else do charge (← scaleByQuantity price quantity economics) quantity .sell model

def splitSellTax (price : Decimal) (quantity dayTradeQuantity : ℕ) (economics : InstrumentEconomics)
    (model : DayTradeTaxModel) : Except AccountingError Decimal := do
  ensure (dayTradeQuantity ≤ quantity) .overflow
  let ordinaryQuantity := quantity - dayTradeQuantity
  let dayTradeTax ← partTax price dayTradeQuantity economics model.dayTrade
  let ordinaryTax ← partTax price ordinaryQuantity economics model.ordinary
  checkedAdd dayTradeTax ordinaryTax

/-- A buy matches the sells of its date that are still open, oldest first, until nothing remains. -/
def matchSells (date : TradingDate) (economics : InstrumentEconomics) (model : DayTradeTaxModel) :
    List DayTradeSell → ℕ → Decimal → Except AccountingError (List DayTradeSell × ℕ × Decimal)
  | [], remaining, adjustment => .ok ([], remaining, adjustment)
  | sell :: rest, remaining, adjustment =>
    if sell.date = date ∧ sell.matched < sell.quantity then
      if remaining = 0 then .ok (sell :: rest, remaining, adjustment)
      else do
        let matched := min remaining (sell.quantity - sell.matched)
        let assessedTax ← splitSellTax sell.price sell.quantity
            (sell.matched + matched) economics model
        let adjustment ← checkedAdd adjustment (← checkedSub assessedTax sell.assessedTax)
        let (rest, remaining, adjustment) ← matchSells date economics model rest
            (remaining - matched) adjustment
        return ({ sell with matched := sell.matched + matched, assessedTax := assessedTax } ::
          rest, remaining, adjustment)
    else do
      let (rest, remaining, adjustment) ← matchSells date economics model rest remaining adjustment
      return (sell :: rest, remaining, adjustment)

def matchBuys (date : TradingDate) : List DayTradeBuy → ℕ → List DayTradeBuy × ℕ
  | [], remaining => ([], remaining)
  | buy :: rest, remaining =>
    if buy.date = date ∧ 0 < buy.remaining then
      if remaining = 0 then (buy :: rest, remaining)
      else
        let matched := min remaining buy.remaining
        let (rest, remaining) := matchBuys date rest (remaining - matched)
        ({ buy with remaining := buy.remaining - matched } :: rest, remaining)
    else
      let (rest, remaining) := matchBuys date rest remaining
      (buy :: rest, remaining)

/-- The tax on a fill, with the two day-trade queues after it. -/
def Ledger.taxForFill (self : Ledger) (fill : FillRecord) (notional : Decimal) :
    Except AccountingError (Decimal × List DayTradeBuy × List DayTradeSell) :=
  let buys := self.dayTradeBuys
  let sells := self.dayTradeSells
  let quantity := fill.quantity.value.val
  match self.dayTradeTax with
  | none => do return (← charge notional quantity fill.side self.tax, buys, sells)
  | some model => do
    let date ← tradingDate fill.matchTime model.timezoneOffsetMinutes
    if model.isEligible date = false ∨ model.validThrough.epochDays < date.epochDays then
      return (← charge notional quantity fill.side model.ordinary, buys, sells)
    match fill.side with
    | .buy =>
      let (sells, remaining, adjustment) ← matchSells date self.economics model sells quantity
          Decimal.zero
      return (adjustment, if 0 < remaining then buys ++ [⟨date, remaining⟩] else buys, sells)
    | .sell =>
      let (buys, remaining) := matchBuys date buys quantity
      let matched := quantity - remaining
      let assessedTax ← splitSellTax fill.price.value quantity matched self.economics model
      return (assessedTax, buys,
        if 0 < remaining then sells ++
          [⟨date, fill.price.value, quantity, matched, assessedTax⟩] else sells)

def averageCostOf (costBasisAtoms position : I128) : Except AccountingError (Option Decimal) := do
  if position.val = 0 then return none
  let divisor ← checked (Signed.ofInt? 128 |position.val|)
  return some ⟨← divideRound costBasisAtoms divisor .halfUp⟩

structure PositionTransition where
  position : I128
  costBasisAtoms : I128
  averageCost : Option Decimal
  realized : Decimal

/-- The part of the cost basis that leaves with the closed quantity: all of it when the position is
closed, else the proportional part rounded half up. -/
def allocatedBasis (costBasisAtoms closed positionSize : I128) : Except AccountingError I128 :=
  if closed = positionSize then .ok costBasisAtoms
  else do divideRound (← checked (costBasisAtoms.checkedMul closed)) positionSize .halfUp

/-- The basis after a fill against the position: none when it is flat, the fill price when it flips.
-/
def remainingBasis (position costBasisAtoms allocated next : I128) (price : Decimal) :
    Except AccountingError I128 :=
  if next.val = 0 then .ok 0
  else if next.val.sign ≠ position.val.sign then checked (price.atoms.checkedMul next.abs)
  else checked (costBasisAtoms.checkedSub allocated)

def transitionPosition (position costBasisAtoms delta : I128) (price : Decimal)
    (economics : InstrumentEconomics) :
    Except AccountingError PositionTransition := do
  let next ← checked (position.checkedAdd delta)
  if position.val = 0 ∨ position.val.sign = delta.val.sign then
    let addedValue ← checked (price.atoms.checkedMul delta.abs)
    let nextCostBasisAtoms ← checked (costBasisAtoms.checkedAdd addedValue)
    return ⟨next, nextCostBasisAtoms, ← averageCostOf nextCostBasisAtoms next, Decimal.zero⟩
  else
    let positionSize ← checked (Signed.ofInt? 128 |position.val|)
    let closed ← checked (Signed.ofInt? 128 (min |position.val| |delta.val|))
    let allocated ← allocatedBasis costBasisAtoms closed positionSize
    let closedValue ← checked (price.atoms.checkedMul closed)
    let differenceAtoms ← checked
      (if 0 < position.val then closedValue.checkedSub allocated else
        allocated.checkedSub closedValue)
    let realized ← scaleByQuantity (Decimal.mk differenceAtoms) 1 economics
    let nextCostBasisAtoms ← remainingBasis position costBasisAtoms allocated next price
    return ⟨next, nextCostBasisAtoms, ← averageCostOf nextCostBasisAtoms next, realized⟩

def signedQuantity (fill : FillRecord) : I128 :=
  match fill.side with
  | .buy => Signed.ofUnsigned 128 fill.quantity.value
  | .sell => Signed.wrap 128 (-(fill.quantity.value.val : ℤ))

def cashDelta (model : AccountingModel) (side : OrderSide)
    (notional fee tax realizedDelta : Decimal) :
    Except AccountingError Decimal :=
  match model with
  | .equityV1 | .optionsV1 =>
    match side with
    | .buy => do checkedNeg (← checkedAdd (← checkedAdd notional fee) tax)
    | .sell => do checkedSub (← checkedSub notional fee) tax
  | .futuresV1 => do checkedSub (← checkedSub realizedDelta fee) tax

/-- The day-trade model is validated too, and belongs to equity settlement only. -/
def Ledger.validateDayTrade (self : Ledger) : Except AccountingError Unit :=
  match self.dayTradeTax with
  | none => .ok ()
  | some model => do
    validateModels self.economics self.fee model.dayTrade
    ensure (self.accountingModel = .equityV1) .invalidModel

def Ledger.applyFill (fill : FillRecord) : EStateM AccountingError Ledger Unit := do
  let self ← get
  lift (validateModels self.economics self.fee self.tax)
  lift self.validateDayTrade
  let notional ← lift (notional fill self.economics)
  let fee ← lift (charge notional fill.quantity.value.val fill.side self.fee)
  let (tax, dayTradeBuys, dayTradeSells) ← lift (self.taxForFill fill notional)
  let transition ← lift (transitionPosition self.position self.costBasisAtoms (signedQuantity fill)
    fill.price.value self.economics)
  let cashDelta ← lift
      (cashDelta self.accountingModel fill.side notional fee tax transition.realized)
  let nextCash ← lift (checkedAdd self.cash cashDelta)
  let nextFee ← lift (checkedAdd self.totalFee fee)
  let nextTax ← lift (checkedAdd self.totalTax tax)
  let nextRealized ← lift (checkedAdd self.realizedPnl transition.realized)
  set { self with
    cash := nextCash
    position := transition.position
    costBasisAtoms := transition.costBasisAtoms
    averageCost := transition.averageCost
    realizedPnl := nextRealized
    totalFee := nextFee
    totalTax := nextTax
    dayTradeBuys := dayTradeBuys
    dayTradeSells := dayTradeSells
    fillCosts := self.fillCosts ++ [FillCostRecord.mk fill.orderId fee tax]
    fills := self.fills ++ [fill] }

/-- Applies fills in order and stops at the first that fails. -/
def applyFills : List FillRecord → EStateM AccountingError Ledger Unit
  | [] => pure ()
  | fill :: rest => do
    Ledger.applyFill fill
    applyFills rest

def Ledger.rebuilt (self : Ledger) : Ledger :=
  (Ledger.newWithModel self.initialCash self.economics self.fee self.tax
    self.accountingModel).withOptionalDayTradeTax
    self.dayTradeTax

def Ledger.reconcile (self : Ledger) : Except AccountingError Unit := do
  let ((), rebuilt) ← runOn (applyFills self.fills) self.rebuilt
  ensure (rebuilt.cash = self.cash ∧ rebuilt.position = self.position ∧
    rebuilt.costBasisAtoms = self.costBasisAtoms ∧ rebuilt.averageCost = self.averageCost ∧
    rebuilt.realizedPnl = self.realizedPnl ∧ rebuilt.totalFee = self.totalFee ∧
    rebuilt.totalTax = self.totalTax ∧
    rebuilt.dayTradeBuys = self.dayTradeBuys ∧ rebuilt.dayTradeSells = self.dayTradeSells ∧
    rebuilt.fillCosts = self.fillCosts) .reconciliation

structure PerformanceSummary where
  initialCash : Decimal
  finalCash : Decimal
  position : I128
  realizedPnl : Decimal
  unrealizedPnl : Option Decimal
  totalFee : Decimal
  totalTax : Decimal
  fillCount : U64

def Ledger.unrealizedPnl (self : Ledger) (finalMark : Option Decimal) :
    Except AccountingError (Option Decimal) :=
  if self.position.val = 0 then .ok (some Decimal.zero)
  else match finalMark with
    | none => .ok none
    | some mark => do
      let markedValue ← checked (mark.atoms.checkedMul self.position.abs)
      let differenceAtoms ← checked
        (if 0 < self.position.val then markedValue.checkedSub self.costBasisAtoms
          else self.costBasisAtoms.checkedSub markedValue)
      return some (← scaleByQuantity (Decimal.mk differenceAtoms) 1 self.economics)

def Ledger.performance (self : Ledger) (finalMark : Option Decimal) :
    Except AccountingError PerformanceSummary := do
  let unrealizedPnl ← self.unrealizedPnl finalMark
  return {
    initialCash := self.initialCash
    finalCash := self.cash
    position := self.position
    realizedPnl := self.realizedPnl
    unrealizedPnl := unrealizedPnl
    totalFee := self.totalFee
    totalTax := self.totalTax
    fillCount := Unsigned.wrap 64 self.fills.length }

end Osmium
