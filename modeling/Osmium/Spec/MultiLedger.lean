import Osmium.Spec.Accounting

/-! The account: one ledger for each instrument, shared cash, and cash charges that are identified
so that none is recorded twice. -/

namespace Osmium
open Machine Bytes Result Stateful

structure InstrumentLedgerConfig where
  instrument : InstrumentId
  quantityUnit : QuantityUnit
  model : AccountingModel
  pricePolicy : PricePolicy
  economics : InstrumentEconomics
  fee : ChargeModel
  tax : ChargeModel
  dayTradeTax : Option DayTradeTaxModel

structure InstrumentLedger where
  quantityUnit : QuantityUnit
  model : AccountingModel
  pricePolicy : PricePolicy
  ledger : Ledger

/-- What `CashChargeRecord::new` asks, and `apply_cash_charges` asks again. -/
def cashChargeValid (amount : Decimal) (category reference : Text) : Prop :=
  0 ≤ amount.atoms.val ∧ category.isBlank = false ∧ reference.isBlank = false

instance (amount : Decimal) (category reference : Text) :
    Decidable (cashChargeValid amount category reference) :=
  inferInstanceAs (Decidable (_ ∧ _ ∧ _))

structure CashChargeRecord where
  identity : CashChargeIdentity
  chargedAt : MatchTime
  amount : Decimal
  category : Text
  reference : Text
  valid : cashChargeValid amount category reference

def CashChargeRecord.new (identity : CashChargeIdentity) (chargedAt : MatchTime) (amount : Decimal)
    (category reference : Text) : Except AccountingError CashChargeRecord :=
  if valid : cashChargeValid amount category reference then
    .ok ⟨identity, chargedAt, amount, category, reference, valid⟩
  else .error .invalidCashCharge

structure MultiLedger where
  initialCash : Decimal
  cash : Decimal
  ledgers : Std.ExtTreeMap InstrumentId InstrumentLedger
  cashCharges : List CashChargeRecord
  cashChargeIdentities : Std.ExtTreeSet CashChargeIdentity

def modelMatchesMarket (instrument : InstrumentId) (model : AccountingModel) : Bool :=
  match instrument.market with
  | .taifex => model = .futuresV1 || model = .optionsV1
  | .twse | .tpex => model = .equityV1

def InstrumentLedgerConfig.validateDayTrade (config : InstrumentLedgerConfig) :
    Except AccountingError Unit :=
  match config.dayTradeTax with
  | none => .ok ()
  | some dayTrade => validateModels config.economics config.fee dayTrade.dayTrade

def InstrumentLedgerConfig.entry (config : InstrumentLedgerConfig) : InstrumentLedger where
  quantityUnit := config.quantityUnit
  model := config.model
  pricePolicy := config.pricePolicy
  ledger :=
    (Ledger.newWithModel Decimal.zero config.economics config.fee config.tax
      config.model).withOptionalDayTradeTax
    config.dayTradeTax

def addConfigs : List InstrumentLedgerConfig → Std.ExtTreeMap InstrumentId InstrumentLedger →
    Except AccountingError (Std.ExtTreeMap InstrumentId InstrumentLedger)
  | [], ledgers => .ok ledgers
  | config :: rest, ledgers => do
    ensure (modelMatchesMarket config.instrument config.model = true ∧
      config.quantityUnit ≠ .sourceUnit ∧
      (config.dayTradeTax.isSome = true → config.model = .equityV1))
        (.accountingModelMismatch config.instrument)
    validateModels config.economics config.fee config.tax
    config.validateDayTrade
    ensure (config.instrument ∉ ledgers) (.duplicateInstrument config.instrument)
    addConfigs rest (ledgers.insert config.instrument config.entry)

def MultiLedger.new (initialCash : Decimal) (configs : List InstrumentLedgerConfig) :
    Except AccountingError MultiLedger := do
  ensure (0 ≤ initialCash.atoms.val) .invalidModel
  let ledgers ← addConfigs configs ∅
  ensure (ledgers.isEmpty = false) .emptyUniverse
  return {
    initialCash := initialCash
    cash := initialCash
    ledgers := ledgers
    cashCharges := []
    cashChargeIdentities := ∅ }

/-- Checks the charges of one call against the identities recorded so far and takes their amounts.
-/
def takeCharges : List CashChargeRecord → Std.ExtTreeSet CashChargeIdentity → Decimal →
    Except AccountingError (Std.ExtTreeSet CashChargeIdentity × Decimal)
  | [], identities, cash => .ok (identities, cash)
  | charge :: rest, identities, cash => do
    ensure (cashChargeValid charge.amount charge.category charge.reference) .invalidCashCharge
    ensure (charge.identity ∉ identities) (.duplicateCashCharge charge.identity)
    takeCharges rest (identities.insert charge.identity) (← checkedSub cash charge.amount)

def MultiLedger.applyCashCharges (charges : List CashChargeRecord) :
    EStateM AccountingError MultiLedger Unit := do
  let self ← get
  let (identities, nextCash) ← lift (takeCharges charges self.cashChargeIdentities self.cash)
  set { self with
    cash := nextCash
    cashChargeIdentities := identities
    cashCharges := self.cashCharges ++ charges }

def MultiLedger.applyFill (instrument : InstrumentId) (fill : FillRecord) :
    EStateM AccountingError MultiLedger Unit := do
  let self ← get
  let entry ← lift (okOr (.unknownInstrument instrument) self.ledgers[instrument]?)
  lift (ensure (fill.quantity.unit = entry.quantityUnit)
    (.quantityUnitMismatch entry.quantityUnit fill.quantity.unit))
  lift (ensure (entry.pricePolicy.accepts fill.price = true) .invalidPriceForInstrument)
  let ((), next) ← lift (runOn (Ledger.applyFill fill) entry.ledger)
  let cashDelta ← lift (checkedSub next.cash entry.ledger.cash)
  let nextCash ← lift (checkedAdd self.cash cashDelta)
  set { self with
    ledgers := self.ledgers.insert instrument { entry with ledger := next }
    cash := nextCash }

def reconcileLedgers : List (InstrumentId × InstrumentLedger) → Decimal →
    Except AccountingError Decimal
  | [], rebuiltCash => .ok rebuiltCash
  | (_, entry) :: rest, rebuiltCash => do
    ensure (entry.ledger.accountingModel = entry.model) .reconciliation
    entry.ledger.reconcile
    reconcileLedgers rest (← checkedAdd rebuiltCash entry.ledger.cash)

def reconcileCharges : List CashChargeRecord → Std.ExtTreeSet CashChargeIdentity → Decimal →
    Except AccountingError (Std.ExtTreeSet CashChargeIdentity × Decimal)
  | [], identities, rebuiltCash => .ok (identities, rebuiltCash)
  | charge :: rest, identities, rebuiltCash => do
    ensure (charge.identity ∉ identities) .reconciliation
    reconcileCharges rest (identities.insert charge.identity)
      (← checkedSub rebuiltCash charge.amount)

def MultiLedger.reconcile (self : MultiLedger) : Except AccountingError Unit := do
  let rebuiltCash ← reconcileLedgers self.ledgers.toList self.initialCash
  let (identities, rebuiltCash) ← reconcileCharges self.cashCharges ∅ rebuiltCash
  ensure (identities = self.cashChargeIdentities) .reconciliation
  ensure (rebuiltCash = self.cash) .reconciliation

structure InstrumentPerformance where
  instrument : InstrumentId
  quantityUnit : QuantityUnit
  accountingModel : AccountingModel
  economics : InstrumentEconomics
  averageCost : Option Decimal
  summary : PerformanceSummary

structure MultiPerformanceSummary where
  initialCash : Decimal
  finalCash : Decimal
  realizedPnl : Decimal
  unrealizedPnl : Decimal
  totalFee : Decimal
  totalTax : Decimal
  totalCashCharges : Decimal
  fillCount : U64
  instruments : List InstrumentPerformance

def totalCharges : List CashChargeRecord → Decimal → Except AccountingError Decimal
  | [], total => .ok total
  | charge :: rest, total => do totalCharges rest (← checkedAdd total charge.amount)

def addPerformance (finalMarks : Std.ExtTreeMap InstrumentId (Option Decimal))
    (self : MultiPerformanceSummary) (instrument : InstrumentId) (entry : InstrumentLedger) :
    Except AccountingError MultiPerformanceSummary := do
  let mark := (finalMarks[instrument]?).join
  let summary ← entry.ledger.performance mark
  ensure (entry.ledger.position.val = 0 ∨ summary.unrealizedPnl.isSome = true)
    (.missingFinalMark instrument)
  let realizedPnl ← checkedAdd self.realizedPnl summary.realizedPnl
  let unrealizedPnl ← checkedAdd self.unrealizedPnl (summary.unrealizedPnl.getD Decimal.zero)
  let totalFee ← checkedAdd self.totalFee summary.totalFee
  let totalTax ← checkedAdd self.totalTax summary.totalTax
  let fillCount ← okOr .overflow (self.fillCount.checkedAdd summary.fillCount)
  return { self with
    realizedPnl := realizedPnl
    unrealizedPnl := unrealizedPnl
    totalFee := totalFee
    totalTax := totalTax
    fillCount := fillCount
    instruments :=
      self.instruments ++ [InstrumentPerformance.mk instrument entry.quantityUnit entry.model
      entry.ledger.economics entry.ledger.averageCost summary] }

def addPerformances (finalMarks : Std.ExtTreeMap InstrumentId (Option Decimal)) :
    List (InstrumentId × InstrumentLedger) → MultiPerformanceSummary →
    Except AccountingError MultiPerformanceSummary
  | [], total => .ok total
  | (instrument, entry) :: rest, total => do
    addPerformances finalMarks rest (← addPerformance finalMarks total instrument entry)

def MultiLedger.performance (self : MultiLedger)
    (finalMarks : Std.ExtTreeMap InstrumentId (Option Decimal)) :
    Except AccountingError MultiPerformanceSummary := do
  let totalCashCharges ← totalCharges self.cashCharges Decimal.zero
  addPerformances finalMarks self.ledgers.toList {
    initialCash := self.initialCash
    finalCash := self.cash
    realizedPnl := Decimal.zero
    unrealizedPnl := Decimal.zero
    totalFee := Decimal.zero
    totalTax := Decimal.zero
    totalCashCharges := totalCashCharges
    fillCount := 0
    instruments := [] }

/-- The amount added to shared cash to mark one open position to market. -/
def MultiLedger.markToMarketAdjustment (self : MultiLedger) (instrument : InstrumentId)
    (mark : Decimal) :
    Except AccountingError Decimal := do
  let entry ← okOr (.unknownInstrument instrument) self.ledgers[instrument]?
  let position := entry.ledger.position
  ensure (entry.pricePolicy.accepts ⟨mark⟩ = true) .invalidPriceForInstrument
  if position.val = 0 then return Decimal.zero
  else if entry.model = .futuresV1 then
    let summary ← entry.ledger.performance (some mark)
    okOr (.missingFinalMark instrument) summary.unrealizedPnl
  else
    let markedAtoms ← checked (mark.atoms.checkedMul position.abs)
    let markedValue ← scaleByQuantity (Decimal.mk markedAtoms) 1 entry.ledger.economics
    if 0 < position.val then return markedValue else checkedNeg markedValue

end Osmium
