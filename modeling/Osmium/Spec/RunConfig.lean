import Osmium.Lib.Keyed
import Osmium.Spec.Artifacts
import Osmium.Spec.Partition

/-! Run configurations: what a run is asked for, and its effective form, validated and in one order,
with the bytes that its checksum is hashed from. -/

namespace Osmium
open Machine Bytes Codec Result

def TradingDate.key (date : TradingDate) : ℤ := date.epochDays.val

theorem TradingDate.key_injective : Function.Injective TradingDate.key :=
  fun _ _ h => TradingDate.ext (Signed.ext h)

instance : Ord TradingDate := ⟨fun a b => compare a.key b.key⟩

instance : Std.TransOrd TradingDate := Order.transCmp_of_key _ TradingDate.key fun _ _ => rfl

instance : Std.LawfulEqOrd TradingDate :=
  Order.lawfulEqCmp_of_key _ TradingDate.key (fun _ _ => rfl) TradingDate.key_injective

namespace RunPlanner

def configSchemaVersion : U16 := ⟨2, Unsigned.two_fits⟩

def effectiveConfigVersion : U16 := Unsigned.wrap 16 7

def sourcePolicyVersion : U16 := ⟨1, Unsigned.one_fits⟩

def cachePolicyVersion : U16 := ⟨1, Unsigned.one_fits⟩

def replayDataPolicyVersion : U16 := ⟨1, Unsigned.one_fits⟩

section Choices

inductive SourcePolicy | strict | explicitDegraded
deriving DecidableEq

def SourcePolicy.discriminant : SourcePolicy → UInt8
  | .strict => 1
  | .explicitDegraded => 2

inductive CachePolicy | reuseOrRebuild
deriving DecidableEq

def CachePolicy.discriminant : CachePolicy → UInt8
  | .reuseOrRebuild => 1

inductive ReplayDataPolicy | strict | explicitDegraded
deriving DecidableEq

def ReplayDataPolicy.discriminant : ReplayDataPolicy → UInt8
  | .strict => 1
  | .explicitDegraded => 2

inductive OutputPolicy | createNew
deriving DecidableEq

def OutputPolicy.discriminant : OutputPolicy → UInt8
  | .createNew => 1

inductive Currency | twd
deriving DecidableEq

def Currency.discriminant : Currency → UInt8
  | .twd => 1

inductive FillEvidence | topOfBook | tradePrint
deriving DecidableEq

def FillEvidence.discriminant : FillEvidence → UInt8
  | .topOfBook => 1
  | .tradePrint => 2

inductive QuantityEvidence | unlimited | observed
deriving DecidableEq

def QuantityEvidence.discriminant : QuantityEvidence → UInt8
  | .unlimited => 1
  | .observed => 2

inductive QuantityAllocationConfig | acceptanceSequence
deriving DecidableEq

def QuantityAllocationConfig.discriminant : QuantityAllocationConfig → UInt8
  | .acceptanceSequence => 1

inductive ExecutionPolicyConfig | subsequentEventV1 | scheduledVisibleDepthV1
deriving DecidableEq

def ExecutionPolicyConfig.discriminant : ExecutionPolicyConfig → UInt8
  | .subsequentEventV1 => 1
  | .scheduledVisibleDepthV1 => 2

inductive ChargeSides | buy | sell | buyAndSell
deriving DecidableEq

def ChargeSides.discriminant : ChargeSides → UInt8
  | .buy => 1
  | .sell => 2
  | .buyAndSell => 3

inductive RoundingPolicy | down | halfUp | up
deriving DecidableEq

def RoundingPolicy.discriminant : RoundingPolicy → UInt8
  | .down => 1
  | .halfUp => 2
  | .up => 3

inductive ChargeBasis | notionalRate | fixedPerUnit
deriving DecidableEq

def ChargeBasis.discriminant : ChargeBasis → UInt8
  | .notionalRate => 1
  | .fixedPerUnit => 2

inductive DayTradeMatchingConfig | sameAccountInstrumentTradingDateFifo
deriving DecidableEq

def DayTradeMatchingConfig.discriminant : DayTradeMatchingConfig → UInt8
  | .sameAccountInstrumentTradingDateFifo => 1

inductive PositionAccountingConfig | averageCostV1
deriving DecidableEq

def PositionAccountingConfig.discriminant : PositionAccountingConfig → UInt8
  | .averageCostV1 => 1

inductive InstrumentClass | equity | warrant | future | option
deriving DecidableEq

def InstrumentClass.discriminant : InstrumentClass → UInt8
  | .equity => 1
  | .warrant => 2
  | .future => 3
  | .option => 4

/-- What a future is a contract on: one delivery, or the difference of two. -/
inductive ContractShape | outright | calendarSpread
deriving DecidableEq

def ContractShape.discriminant : ContractShape → UInt8
  | .outright => 1
  | .calendarSpread => 2

inductive OptionSide | call | put
deriving DecidableEq

def OptionSide.discriminant : OptionSide → UInt8
  | .call => 1
  | .put => 2

def pricePolicyDiscriminant : PricePolicy → UInt8
  | .positiveOnly => 1
  | .signed => 2

end Choices

section Parts

@[ext] structure CurrencyAmount where
  currency : Currency
  amount : Decimal
deriving DecidableEq

@[ext] structure FillModelConfig where
  evidence : FillEvidence
  quantity : QuantityEvidence
deriving DecidableEq

@[ext] structure LatencyConfig where
  marketDataLatencyMs : U64
  orderLatencyMs : U64
deriving DecidableEq

inductive SlippageModelConfig
  | adverseFixedDelta (delta : Decimal)
deriving DecidableEq

@[ext] structure ScheduledExecutionConfig where
  depthLevels : UInt8
  maxStaleMs : U64
deriving DecidableEq

@[ext] structure ChargeConfig where
  basis : ChargeBasis
  rate : Decimal
  applicableSides : ChargeSides
  minimum : Decimal
  precision : UInt8
  rounding : RoundingPolicy
  provenance : Text
deriving DecidableEq

/-- The eligible dates are in order and without repetition. -/
@[ext] structure DayTradeTaxConfig where
  charge : ChargeConfig
  matching : DayTradeMatchingConfig
  timezoneOffsetMinutes : I32
  eligibleDates : List TradingDate
  eligibilityRequired : Bool
  validThrough : TradingDate
  provenance : Text
  sorted : eligibleDates.Pairwise fun a b => compare a b = .lt

def DayTradeTaxConfig.isEligible (self : DayTradeTaxConfig) (date : TradingDate) : Bool :=
  date ∈ self.eligibleDates

@[ext] structure InstrumentChargeConfig where
  instrument : InstrumentId
  fee : ChargeConfig
  tax : ChargeConfig
  dayTradeTax : Option DayTradeTaxConfig

inductive MarkingPolicyConfig
  | lastObservableV1 (allowMidpointFallback : Bool)
deriving DecidableEq

@[ext] structure SimulationConfig where
  executionPolicy : ExecutionPolicyConfig
  scheduledExecution : Option ScheduledExecutionConfig
  fillModel : FillModelConfig
  latency : LatencyConfig
  quantityAllocation : QuantityAllocationConfig
  slippageModel : SlippageModelConfig
  feeModel : ChargeConfig
  taxModel : ChargeConfig
  initialCash : CurrencyAmount
  positionAccounting : PositionAccountingConfig
  markingPolicy : MarkingPolicyConfig
  instrumentCharges : List InstrumentChargeConfig

def SimulationConfig.chargesFor (self : SimulationConfig) (instrument : InstrumentId) :
    Option InstrumentChargeConfig :=
  self.instrumentCharges.find? fun charges => charges.instrument = instrument

@[ext] structure InstrumentEconomicsConfig where
  instrument : InstrumentId
  quantityUnit : QuantityUnit
  unitsPerTradingUnit : U64
  currency : Currency
  multiplier : Decimal
  provenance : Text
deriving DecidableEq

@[ext] structure InstrumentReferenceConfig where
  underlying : Text
  expiry : TradingDate
  strike : Decimal
  optionSide : OptionSide
  currency : Currency
  multiplier : Decimal
  quantityUnit : QuantityUnit
  unitsPerTradingUnit : U64
  provenance : Text
deriving DecidableEq

@[ext] structure InstrumentContractConfig where
  instrument : InstrumentId
  instrumentClass : InstrumentClass
  shape : Option ContractShape
  sessionProfile : SessionProfileId
  reference : Option InstrumentReferenceConfig
deriving DecidableEq

def InstrumentContractConfig.pricePolicy (self : InstrumentContractConfig) : PricePolicy :=
  match self.shape with
  | some .calendarSpread => .signed
  | some .outright | none => .positiveOnly

structure StrategyBinding where
  identity : StrategyIdentity
  paramsChecksum : Digest
  declaration : StrategyDeclaration
deriving DecidableEq

/-- The data root is a path as it was written. -/
structure RunConfig where
  configVersion : U16
  source : SourceId
  tradingDates : List TradingDate
  universeInstruments : List InstrumentId
  instrumentContracts : List InstrumentContractConfig
  sessionKinds : List SessionKind
  strategy : StrategyBinding
  dataRoot : List UInt8
  sourcePolicy : Option SourcePolicy
  cachePolicy : Option CachePolicy
  replayDataPolicy : Option ReplayDataPolicy
  simulation : SimulationConfig
  instrumentEconomics : List InstrumentEconomicsConfig
  outputPolicy : Option OutputPolicy

end Parts

inductive ConfigError
  | unsupportedConfigVersion (actual : U16)
  | emptyDates
  | emptyUniverse
  | missingInstrumentContract
  | invalidInstrumentContract (instrument : InstrumentId)
  | emptySessions
  | emptyDataRoot
  | strategyUniverseMismatch
  | strategySessionsMismatch
  | degradedPolicyMismatch
  | invalidLatency
  | negativeSlippage
  | invalidFee
  | invalidTax
  | invalidInitialCash
  | invalidScheduledExecution
  | economicsOutsideUniverse (instrument : InstrumentId)
  | duplicateInstrumentEconomics (instrument : InstrumentId)
  | missingInstrumentEconomics (instrument : InstrumentId)
  | invalidInstrumentEconomics (instrument : InstrumentId)
  | chargesOutsideUniverse (instrument : InstrumentId)
  | duplicateInstrumentCharges (instrument : InstrumentId)
  | invalidDayTradeTax (instrument : InstrumentId)
  | missingDayTradeEligibility (instrument : InstrumentId)
  | canonicalLengthOverflow
deriving DecidableEq

section Validation

/-- The values once each, in order. -/
def canonicalNonEmpty {α : Type} [Ord α] [Std.TransOrd α] (values : List α) (error : ConfigError) :
    Except ConfigError (List α) := do
  let values := Std.ExtTreeSet.ofList values
  ensure (values.isEmpty = false) error
  return values.toList

def DayTradeTaxConfig.new (charge : ChargeConfig) (matching : DayTradeMatchingConfig)
    (timezoneOffsetMinutes : I32)
    (eligibleDates : List TradingDate) (eligibilityRequired : Bool) (validThrough : TradingDate)
    (provenance : Text) :
    DayTradeTaxConfig where
  charge := charge
  matching := matching
  timezoneOffsetMinutes := timezoneOffsetMinutes
  eligibleDates := (Std.ExtTreeSet.ofList eligibleDates).toList
  eligibilityRequired := eligibilityRequired
  validThrough := validThrough
  provenance := provenance
  sorted := Std.ExtTreeSet.ordered_toList

/-- The contracts that a profile's sessions are of. -/
def supportsContract (profile : SessionProfileId) (market : MarketId)
    (instrumentClass : InstrumentClass) (shape : Option ContractShape) : Bool :=
  match profile, market, instrumentClass, shape with
  | .twseRegular, .twse, .equity, none | .twseRegular, .twse, .warrant, none => true
  | .tpexRegular, .tpex, .equity, none | .tpexRegular, .tpex, .warrant, none => true
  | .taifexIndexFutures, .taifex, .future, some .outright
  | .taifexStockFutures, .taifex, .future, some .outright
  | .taifexStockFuturesRegularOnly, .taifex, .future, some .outright => true
  | .taifexCalendarSpreadRegularOnly, .taifex, .future, some .calendarSpread => true
  | .taifexIndexOptions, .taifex, .option, none => true
  | _, _, _, _ => false

def contractShapeMatchesClass (instrumentClass : InstrumentClass)
    (shape : Option ContractShape) : Bool :=
  match instrumentClass, shape with
  | .future, some _ => true
  | .equity, none | .warrant, none | .option, none => true
  | _, _ => false

def validEconomicsTerms (quantityUnit : QuantityUnit) (unitsPerTradingUnit : U64)
    (multiplier : Decimal) (provenance : Text) :
    Bool :=
  quantityUnit ≠ .sourceUnit && unitsPerTradingUnit.val ≠ 0 && 0 < multiplier.atoms.val &&
    !provenance.isBlank

def InstrumentReferenceConfig.isValid (self : InstrumentReferenceConfig) : Bool :=
  !self.underlying.isBlank && 0 < self.strike.atoms.val &&
    validEconomicsTerms self.quantityUnit self.unitsPerTradingUnit self.multiplier self.provenance

/-- Two contracts of one instrument that differ. -/
def differs (a b : InstrumentContractConfig) : Bool := a.instrument = b.instrument && a ≠ b

def needsReference : InstrumentClass → Bool
  | .warrant | .option => true
  | .equity | .future => false

def contractInvalid (instruments : List InstrumentId) (previous : Option InstrumentContractConfig)
    (contract : InstrumentContractConfig) : Bool :=
  contract.instrument ∉ instruments ||
    (previous.any fun previous => previous.instrument = contract.instrument) ||
    !supportsContract contract.sessionProfile contract.instrument.market contract.instrumentClass
      contract.shape ||
    !contractShapeMatchesClass contract.instrumentClass contract.shape ||
    (needsReference contract.instrumentClass && contract.reference.isNone) ||
    contract.reference.any fun reference => !reference.isValid

def validateContracts (instruments : List InstrumentId) :
    Option InstrumentContractConfig → List InstrumentContractConfig → Except ConfigError Unit
  | _, [] => .ok ()
  | previous, contract :: rest => do
    ensure (contractInvalid instruments previous contract = false)
      (.invalidInstrumentContract contract.instrument)
    validateContracts instruments (some contract) rest

def validateInstrumentContracts (contracts : List InstrumentContractConfig)
    (instruments : List InstrumentId) :
    Except ConfigError (List InstrumentContractConfig) := do
  let contracts := Keyed.sort InstrumentContractConfig.instrument contracts
  match Keyed.firstClash InstrumentContractConfig.instrument differs contracts with
  | some instrument => throw (.invalidInstrumentContract instrument)
  | none =>
    let contracts := Keyed.firsts InstrumentContractConfig.instrument contracts
    ensure (contracts.length = instruments.length) .missingInstrumentContract
    validateContracts instruments none contracts
    ensure (∀ instrument ∈ instruments, ∃ contract ∈ contracts, contract.instrument = instrument)
      .missingInstrumentContract
    return contracts

def validateCharge (config : ChargeConfig) (error : ConfigError) : Except ConfigError Unit :=
  ensure
    (¬ (config.rate.atoms.val < 0 ∨ config.minimum.atoms.val < 0 ∨ 18 < config.precision ∨
      config.provenance.isEmpty = true))
    error

/-- The latency in milliseconds that still fits into a time. -/
def maxLatencyMs : ℕ := (2 ^ 63 - 1) / 1000

def scheduledExecutionValid (config : SimulationConfig) : Bool :=
  match config.executionPolicy, config.scheduledExecution with
  | .subsequentEventV1, none => true
  | .scheduledVisibleDepthV1, some scheduled => 1 ≤ scheduled.depthLevels &&
      scheduled.depthLevels ≤ 5 && 0 < scheduled.maxStaleMs.val
  | _, _ => false

def validateSimulation (config : SimulationConfig) : Except ConfigError Unit := do
  let total := config.latency.marketDataLatencyMs.checkedAdd config.latency.orderLatencyMs
  ensure (config.latency.marketDataLatencyMs.val ≤ maxLatencyMs ∧
    config.latency.orderLatencyMs.val ≤ maxLatencyMs ∧
    (total.any fun value => value.val ≤ maxLatencyMs) = true) .invalidLatency
  match config.slippageModel with
  | .adverseFixedDelta delta => ensure (0 ≤ delta.atoms.val) .negativeSlippage
  validateCharge config.feeModel .invalidFee
  validateCharge config.taxModel .invalidTax
  ensure (scheduledExecutionValid config = true) .invalidScheduledExecution
  ensure (config.initialCash.currency = .twd ∧ 0 < config.initialCash.amount.atoms.val)
    .invalidInitialCash

def dayTradeInvalid (charges : InstrumentChargeConfig) (dayTrade : DayTradeTaxConfig) : Prop :=
  (charges.instrument.market ≠ .twse ∧ charges.instrument.market ≠ .tpex) ∨
  charges.tax.basis ≠ .notionalRate ∨
    dayTrade.charge.basis ≠ .notionalRate ∨ charges.tax.applicableSides ≠ .sell ∨
    dayTrade.charge.applicableSides ≠ .sell ∨
    charges.tax.rate.atoms.val < dayTrade.charge.rate.atoms.val ∨
    dayTrade.provenance.isEmpty = true ∨
    ¬ (-1439 ≤ dayTrade.timezoneOffsetMinutes.val ∧ dayTrade.timezoneOffsetMinutes.val ≤ 1439)

instance (charges : InstrumentChargeConfig) (dayTrade : DayTradeTaxConfig) :
    Decidable (dayTradeInvalid charges dayTrade) :=
  inferInstanceAs (Decidable (_ ∨ _))

def validateChargesOf (instruments : List InstrumentId) (tradingDates : List TradingDate)
    (charges : InstrumentChargeConfig) :
    Except ConfigError Unit := do
  ensure (charges.instrument ∈ instruments) (.chargesOutsideUniverse charges.instrument)
  validateCharge charges.fee .invalidFee
  validateCharge charges.tax .invalidTax
  match charges.dayTradeTax with
  | none => return ()
  | some dayTrade =>
    ensure (¬ dayTradeInvalid charges dayTrade) (.invalidDayTradeTax charges.instrument)
    validateCharge dayTrade.charge .invalidTax
    ensure
      (dayTrade.eligibilityRequired = true → ∀ date ∈ tradingDates, dayTrade.isEligible date = true)
      (.missingDayTradeEligibility charges.instrument)

/-- Two charges of one instrument. -/
def repeats (a b : InstrumentChargeConfig) : Bool := a.instrument = b.instrument

/-- Puts the charges in order. -/
def validateInstrumentCharges (simulation : SimulationConfig) (instruments : List InstrumentId)
    (tradingDates : List TradingDate) : Except ConfigError SimulationConfig := do
  let charges := Keyed.sort InstrumentChargeConfig.instrument simulation.instrumentCharges
  match Keyed.firstClash InstrumentChargeConfig.instrument repeats charges with
  | some instrument => throw (.duplicateInstrumentCharges instrument)
  | none =>
    charges.forM (validateChargesOf instruments tradingDates)
    return { simulation with instrumentCharges := charges }

def indexEconomics (instruments : List InstrumentId) :
    List InstrumentEconomicsConfig → Std.ExtTreeMap InstrumentId InstrumentEconomicsConfig →
      Except ConfigError (Std.ExtTreeMap InstrumentId InstrumentEconomicsConfig)
  | [], byInstrument => .ok byInstrument
  | value :: rest, byInstrument => do
    ensure (value.instrument ∈ instruments) (.economicsOutsideUniverse value.instrument)
    ensure (validEconomicsTerms value.quantityUnit value.unitsPerTradingUnit value.multiplier
      value.provenance = true)
      (.invalidInstrumentEconomics value.instrument)
    ensure (value.instrument ∉ byInstrument) (.duplicateInstrumentEconomics value.instrument)
    indexEconomics instruments rest (byInstrument.insert value.instrument value)

def validateEconomics (values : List InstrumentEconomicsConfig) (instruments : List InstrumentId) :
    Except ConfigError (List InstrumentEconomicsConfig) := do
  let byInstrument ← indexEconomics instruments values ∅
  instruments.forM fun instrument =>
    ensure (instrument ∈ byInstrument) (.missingInstrumentEconomics instrument)
  return byInstrument.values

def referenceAgrees (economics : InstrumentEconomicsConfig)
    (reference : InstrumentReferenceConfig) : Bool :=
  economics.quantityUnit = reference.quantityUnit &&
    economics.unitsPerTradingUnit = reference.unitsPerTradingUnit &&
    economics.currency = reference.currency && economics.multiplier = reference.multiplier

def validateReferenceEconomics (contracts : List InstrumentContractConfig)
    (economics : List InstrumentEconomicsConfig) :
    Except ConfigError Unit :=
  contracts.forM fun contract =>
    match contract.reference with
    | none => .ok ()
    | some reference =>
      ensure ((economics.find? fun value => value.instrument = contract.instrument).any
        (referenceAgrees · reference) = true)
        (.invalidInstrumentContract contract.instrument)

end Validation

/-- The configuration as a run follows it, with its canonical bytes and their hash. -/
@[ext] structure EffectiveRunConfig where
  source : SourceId
  tradingDates : List TradingDate
  universeInstruments : List InstrumentId
  instrumentContracts : List InstrumentContractConfig
  sessionKinds : List SessionKind
  strategy : StrategyBinding
  dataRoot : List UInt8
  sourcePolicy : SourcePolicy
  cachePolicy : CachePolicy
  replayDataPolicy : ReplayDataPolicy
  simulation : SimulationConfig
  instrumentEconomics : List InstrumentEconomicsConfig
  outputPolicy : OutputPolicy
  canonicalSemantics : List UInt8
  checksum : Digest

section Encoding

/-- A length and the values it counts. -/
def appendCounted {α : Type} (enc : α → Encoding) (values : List α) : Encoding :=
  appendLength values.length ++ encodeAll enc values

def appendText (value : Text) : Encoding := appendBytes value.bytes

def appendDate (date : TradingDate) : Encoding := .ok date.toCanonicalBytes

def appendSession (session : SessionKind) : Encoding := .ok [session.discriminant]

def appendStrategyIdentity (identity : StrategyIdentity) (params : Digest) : Encoding :=
  appendText identity.strategyId ++ appendText identity.strategyVersion ++
    appendText identity.binaryIdentity.algorithm ++
    appendBytes identity.binaryIdentity.digest ++ .ok params.bytes

def appendCharge (includeBasis : Bool) (config : ChargeConfig) : Encoding :=
  .ok (if includeBasis = true then [config.basis.discriminant] else []) ++
    .ok (config.rate.toCanonicalBytes ++ [config.applicableSides.discriminant] ++
      config.minimum.toCanonicalBytes ++
      [config.precision, config.rounding.discriminant]) ++
    appendText config.provenance

def appendDayTradeTax (dayTrade : DayTradeTaxConfig) : Encoding :=
  appendCharge true dayTrade.charge ++
    .ok ([dayTrade.matching.discriminant] ++ ofSigned 4 dayTrade.timezoneOffsetMinutes) ++
    appendCounted appendDate dayTrade.eligibleDates ++
    .ok ([dayTrade.eligibilityRequired.toUInt8] ++ dayTrade.validThrough.toCanonicalBytes) ++
    appendText dayTrade.provenance

def appendInstrumentCharges (charges : InstrumentChargeConfig) : Encoding :=
  appendInstrument charges.instrument ++ appendCharge true charges.fee ++
    appendCharge true charges.tax ++
    appendPresent appendDayTradeTax charges.dayTradeTax

def appendScheduledExecution (scheduled : ScheduledExecutionConfig) : Encoding :=
  .ok ([scheduled.depthLevels] ++ ofUnsigned 8 scheduled.maxStaleMs)

def appendSlippage : SlippageModelConfig → Encoding
  | .adverseFixedDelta delta => .ok (1 :: delta.toCanonicalBytes)

def appendMarking : MarkingPolicyConfig → Encoding
  | .lastObservableV1 allowMidpointFallback => .ok [1, allowMidpointFallback.toUInt8]

/-- What only the extended form of a simulation has. -/
def appendExtended (config : SimulationConfig) : Encoding :=
  .ok [config.executionPolicy.discriminant] ++
    appendPresent appendScheduledExecution config.scheduledExecution ++
    appendCounted appendInstrumentCharges config.instrumentCharges

def appendSimulation (config : SimulationConfig) (extended : Bool) : Encoding :=
  .ok ([config.fillModel.evidence.discriminant, config.fillModel.quantity.discriminant] ++
      ofUnsigned 8 config.latency.marketDataLatencyMs ++
        ofUnsigned 8 config.latency.orderLatencyMs ++
      [config.quantityAllocation.discriminant]) ++
    appendSlippage config.slippageModel ++ appendCharge extended config.feeModel ++
      appendCharge extended config.taxModel ++
    (if extended = true then appendExtended config else .ok []) ++
    .ok ([config.initialCash.currency.discriminant] ++ config.initialCash.amount.toCanonicalBytes ++
      [config.positionAccounting.discriminant]) ++
    appendMarking config.markingPolicy

def appendEconomics (config : InstrumentEconomicsConfig) : Encoding :=
  appendInstrument config.instrument ++
    .ok ([config.quantityUnit.discriminant] ++ ofUnsigned 8 config.unitsPerTradingUnit ++
      [config.currency.discriminant] ++
      config.multiplier.toCanonicalBytes) ++
    appendText config.provenance

def appendReference (reference : InstrumentReferenceConfig) : Encoding :=
  appendText reference.underlying ++
    .ok (reference.expiry.toCanonicalBytes ++ reference.strike.toCanonicalBytes ++
      [reference.optionSide.discriminant, reference.currency.discriminant] ++
        reference.multiplier.toCanonicalBytes ++
      [reference.quantityUnit.discriminant] ++ ofUnsigned 8 reference.unitsPerTradingUnit) ++
    appendText reference.provenance

def appendInstrumentContract (contract : InstrumentContractConfig) : Encoding :=
  appendInstrument contract.instrument ++
    .ok [contract.instrumentClass.discriminant, contract.shape.elim 0 ContractShape.discriminant,
      contract.sessionProfile.discriminant, pricePolicyDiscriminant contract.pricePolicy] ++
    appendPresent appendReference contract.reference

/-- OSECFG01 -/
def configMagic : List UInt8 := [79, 83, 69, 67, 70, 71, 48, 49]

namespace EffectiveRunConfig

def canonicalVersion (_self : EffectiveRunConfig) : U16 := effectiveConfigVersion

def encodeSemantics (self : EffectiveRunConfig) : Encoding :=
  .ok (configMagic ++ ofUnsigned 2 self.canonicalVersion ++ ofUnsigned 2 configSchemaVersion ++
      ofUnsigned 2 sourcePolicyVersion ++ ofUnsigned 2 cachePolicyVersion ++
        ofUnsigned 2 replayDataPolicyVersion) ++
    appendBytes self.source.text.bytes ++
    appendCounted appendDate self.tradingDates ++
    appendCounted appendInstrument self.universeInstruments ++
    appendCounted appendInstrumentContract self.instrumentContracts ++
    appendCounted appendSession self.sessionKinds ++
    appendStrategyIdentity self.strategy.identity self.strategy.paramsChecksum ++
    .ok [self.sourcePolicy.discriminant, self.cachePolicy.discriminant,
      self.replayDataPolicy.discriminant] ++
    appendSimulation self.simulation true ++
    appendCounted appendEconomics self.instrumentEconomics ++
    .ok [self.outputPolicy.discriminant]

end EffectiveRunConfig

end Encoding

namespace EffectiveRunConfig

def zeroDigest : Digest := ⟨List.replicate 32 0, List.length_replicate⟩

def resolve (hash : List UInt8 → Digest) (config : RunConfig) :
    Except ConfigError EffectiveRunConfig := do
  ensure (config.configVersion = configSchemaVersion)
    (.unsupportedConfigVersion config.configVersion)
  ensure (config.dataRoot ≠ []) .emptyDataRoot
  let tradingDates ← canonicalNonEmpty config.tradingDates .emptyDates
  let instruments ← canonicalNonEmpty config.universeInstruments .emptyUniverse
  let instrumentContracts ← validateInstrumentContracts config.instrumentContracts instruments
  let sessionKinds ← canonicalNonEmpty config.sessionKinds .emptySessions
  ensure (config.strategy.declaration.universeInstruments = instruments) .strategyUniverseMismatch
  ensure (config.strategy.declaration.sessions = sessionKinds) .strategySessionsMismatch
  let sourcePolicy := config.sourcePolicy.getD .strict
  let cachePolicy := config.cachePolicy.getD .reuseOrRebuild
  let replayDataPolicy := config.replayDataPolicy.getD .strict
  ensure (sourcePolicy = .explicitDegraded ↔ replayDataPolicy = .explicitDegraded)
    .degradedPolicyMismatch
  let outputPolicy := config.outputPolicy.getD .createNew
  validateSimulation config.simulation
  let simulation ← validateInstrumentCharges config.simulation instruments tradingDates
  let instrumentEconomics ← validateEconomics config.instrumentEconomics instruments
  validateReferenceEconomics instrumentContracts instrumentEconomics
  let effective : EffectiveRunConfig := {
    source := config.source
    tradingDates := tradingDates
    universeInstruments := instruments
    instrumentContracts := instrumentContracts
    sessionKinds := sessionKinds
    strategy := config.strategy
    dataRoot := config.dataRoot
    sourcePolicy := sourcePolicy
    cachePolicy := cachePolicy
    replayDataPolicy := replayDataPolicy
    simulation := simulation
    instrumentEconomics := instrumentEconomics
    outputPolicy := outputPolicy
    canonicalSemantics := []
    checksum := zeroDigest }
  let canonical ← effective.encodeSemantics.mapError fun _ => .canonicalLengthOverflow
  return { effective with checksum := hash canonical, canonicalSemantics := canonical }

def contractFor (self : EffectiveRunConfig) (instrument : InstrumentId) :
    Option InstrumentContractConfig :=
  self.instrumentContracts.find? fun contract => contract.instrument = instrument

end EffectiveRunConfig

end RunPlanner

end Osmium
