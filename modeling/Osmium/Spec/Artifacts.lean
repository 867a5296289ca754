import Osmium.Spec.MultiRunner

/-! The binary files a completed run is published as: its orders, its fills, its ledgers and the
output of its strategy. The first three leave out what the run did not use, and their magic says
which. -/

namespace Osmium
open Machine Bytes Codec Result

inductive ArtifactError
  | canonical (error : CanonicalEncodingError)
  | fillWithoutOrder
deriving DecidableEq

def AccountingModel.discriminant : AccountingModel → UInt8
  | .equityV1 => 1
  | .futuresV1 => 2
  | .optionsV1 => 3

def OrderStatus.discriminant : OrderStatus → UInt8
  | .pending => 0
  | .partiallyFilled => 1
  | .filled => 2
  | .cancelled => 3

def FillRecord.controlSequence (self : FillRecord) : Option U64 :=
  match self.trigger with
  | .marketEvent _ => none
  | .control controlSequence => some controlSequence

def MultiSimulator.orders (self : MultiSimulator) : List SimOrder :=
  self.simulators.toList.flatMap fun entry => entry.2.orders

def MultiSimulator.fills (self : MultiSimulator) : List FillRecord :=
  self.simulators.toList.flatMap fun entry => entry.2.fills

def accountingVersion : U16 := ⟨8, by decide⟩

def Ledger.accountingVersion (_ : Ledger) : U16 := Osmium.accountingVersion

def MultiLedger.accountingVersion (self : MultiLedger) : U16 :=
  ((self.ledgers.toList.map fun entry => entry.2.ledger.accountingVersion.val).max?.map
    (Unsigned.wrap 16)).getD
    Osmium.accountingVersion

def MultiLedger.ledger (self : MultiLedger) (instrument : InstrumentId) : Option Ledger :=
  self.ledgers[instrument]?.map InstrumentLedger.ledger

namespace Artifacts

section Parts

/-- The length is cut to 32 bits. -/
def appendText (value : Text) : List UInt8 :=
  ofUnsigned 4 (Unsigned.wrap 32 value.bytes.length) ++ value.bytes

def appendInstrumentIdentity (instrument : InstrumentId) : List UInt8 :=
  instrument.market.discriminant :: appendText instrument.symbol.text

/-- The first version has no tag, and no fill of a control. -/
def appendFillTrigger (fill : FillRecord) (versionTwo : Bool) : List UInt8 :=
  match fill.trigger with
  | .marketEvent runEventOrdinal => (if versionTwo then [1] else []) ++ ofUnsigned 8 runEventOrdinal
  | .control controlSequence => 2 :: ofUnsigned 8 controlSequence

def appendFill (versionTwo : Bool) (fill : FillRecord) : List UInt8 :=
  fill.orderId.digest.bytes ++ appendFillTrigger fill versionTwo ++
    ofSigned 8 fill.matchTime.unixMicroseconds ++
    [fill.side.discriminant] ++ fill.price.toCanonicalBytes ++ fill.quantity.toCanonicalBytes

def appendOptionalDecimal : Option Decimal → List UInt8
  | some value => 1 :: value.toCanonicalBytes
  | none => [0]

def appendPerformanceSummary (summary : PerformanceSummary) (averageCost : Option Decimal) :
    List UInt8 :=
  summary.initialCash.toCanonicalBytes ++ summary.finalCash.toCanonicalBytes ++
    ofSigned 16 summary.position ++
    appendOptionalDecimal averageCost ++ summary.realizedPnl.toCanonicalBytes ++
    appendOptionalDecimal summary.unrealizedPnl ++ summary.totalFee.toCanonicalBytes ++
    summary.totalTax.toCanonicalBytes ++ ofUnsigned 8 summary.fillCount

end Parts

section Orders

/-- OSORDERS1 -/
def ordersMagic1 : List UInt8 := [79, 83, 79, 82, 68, 69, 82, 83, 49]

/-- OSORDERS2 -/
def ordersMagic2 : List UInt8 := [79, 83, 79, 82, 68, 69, 82, 83, 50]

def appendOrder (order : SimOrder) : Encoding := do
  let intent ← order.intent.toCanonicalBytes
  return order.id.digest.bytes ++ ofUnsigned 4 (Unsigned.wrap 32 intent.length) ++ intent ++
    ofUnsigned 8 order.filled ++
    ofUnsigned 8 order.remaining ++ [order.status.discriminant]

def encodeOrders (orders : List SimOrder) : Except ArtifactError (List UInt8) := do
  let records ← (encodeAll appendOrder orders).mapError .canonical
  return ordersMagic1 ++ ofUnsigned 8 (Unsigned.wrap 64 orders.length) ++ records

def executionFailure : ExecutionFailureReason → UInt8
  | .missingVisibleDepth => 1
  | .staleVisibleDepth => 2
  | .matchingDisabled => 3
  | .newOrderEntryBlocked => 4
  | .insufficientVisibleDepth => 5
  | .priceNotMarketable => 6

def scheduledStatus : ScheduledOrderStatus → UInt8 × UInt8
  | .scheduled => (1, 0)
  | .filled => (2, 0)
  | .failed reason => (3, executionFailure reason)
  | .expired => (4, 0)
  | .replaced => (5, 0)
  | .cancelled => (6, 0)
  | .active => (7, 0)
  | .partiallyFilled => (8, 0)
  | .matchAttempted => (9, 0)

def appendScheduledOrder (order : ScheduledOrder) : Encoding := do
  let request ← order.request.toCanonicalBytes
  let (status, failure) := scheduledStatus order.status
  return order.id.digest.bytes ++ ofUnsigned 8 order.acceptanceSequence ++
    ofUnsigned 4 (Unsigned.wrap 32 request.length) ++ request ++ ofUnsigned 8 order.filledValue ++
      [status, failure]

def encodeScheduledOrders (completed : CompletedScheduledMultiBacktest) :
    Except ArtifactError (List UInt8) := do
  let orders := completed.simulator.orders
  let records ← (encodeAll appendScheduledOrder orders).mapError .canonical
  return ordersMagic2 ++ ofUnsigned 8 (Unsigned.wrap 64 orders.length) ++ records

end Orders

section Fills

/-- OSFILLS1 -/
def fillsMagic1 : List UInt8 := [79, 83, 70, 73, 76, 76, 83, 49]

/-- OSFILLS2 -/
def fillsMagic2 : List UInt8 := [79, 83, 70, 73, 76, 76, 83, 50]

def appendScheduledFill (orders : List ScheduledOrder) (fill : FillRecord) :
    Except ArtifactError (List UInt8) := do
  let order ← okOr .fillWithoutOrder (orders.find? fun order => order.id = fill.orderId)
  return appendInstrumentIdentity order.request.intent.instrument ++ appendFill true fill

def encodeScheduledFills (completed : CompletedScheduledMultiBacktest) :
    Except ArtifactError (List UInt8) := do
  let records ← encodeAll (appendScheduledFill completed.simulator.orders) completed.simulator.fills
  return fillsMagic2 ++ ofUnsigned 8 (Unsigned.wrap 64 completed.simulator.fills.length) ++ records

/-- The second version is taken when a control triggered any fill of the simulators. -/
def encodeMultiFills (completed : CompletedMultiBacktest) : List UInt8 :=
  let instruments := completed.performance.instruments.map InstrumentPerformance.instrument
  let fillsOf := fun instrument => (completed.simulator.fillsFor instrument).getD []
  let fillCount := (instruments.map fun instrument => (fillsOf instrument).length).sum
  let controlTriggers := completed.simulator.fills.any fun fill => fill.controlSequence.isSome
  (if controlTriggers then fillsMagic2 else fillsMagic1) ++
    ofUnsigned 8 (Unsigned.wrap 64 fillCount) ++
    instruments.flatMap fun instrument => (fillsOf instrument).flatMap fun fill =>
      appendInstrumentIdentity instrument ++ appendFill controlTriggers fill

end Fills

section Ledgers

/-- OSLEDGR1 -/
def ledgerMagic1 : List UInt8 := [79, 83, 76, 69, 68, 71, 82, 49]

/-- OSLEDGR2 -/
def ledgerMagic2 : List UInt8 := [79, 83, 76, 69, 68, 71, 82, 50]

/-- OSLEDGR3 -/
def ledgerMagic3 : List UInt8 := [79, 83, 76, 69, 68, 71, 82, 51]

def fillsOf (ledger : MultiLedger) (instrument : InstrumentPerformance) : List FillRecord :=
  ((ledger.ledger instrument.instrument).map Ledger.fills).getD []

def instrumentHead (instrument : InstrumentPerformance) : List UInt8 :=
  appendInstrumentIdentity instrument.instrument ++ [instrument.quantityUnit.discriminant] ++
    [instrument.accountingModel.discriminant] ++
      ofUnsigned 8 instrument.economics.unitsPerTradingUnit ++
    instrument.economics.multiplier.toCanonicalBytes ++
      appendText instrument.economics.provenance ++
    appendPerformanceSummary instrument.summary instrument.averageCost

def instrumentRecord (controlTriggers : Bool) (instrument : InstrumentPerformance)
    (fills : List FillRecord) : List UInt8 :=
  instrumentHead instrument ++ ofUnsigned 8 (Unsigned.wrap 64 fills.length) ++
    fills.flatMap (appendFill controlTriggers)

def appendCharge (charge : CashChargeRecord) : List UInt8 :=
  charge.identity.digest.bytes ++ ofSigned 8 charge.chargedAt.unixMicroseconds ++
    charge.amount.toCanonicalBytes ++
    appendText charge.category ++ appendText charge.reference

def controlTriggers (performance : MultiPerformanceSummary) (ledger : MultiLedger) : Bool :=
  (performance.instruments.flatMap (fillsOf ledger)).any fun fill => fill.controlSequence.isSome

/-- Each record stands behind its length, which is cut to 32 bits. The charges are left out when
there are none; the third version has them and leaves open whether the triggers are tagged. -/
def encodeMultiLedgerParts (performance : MultiPerformanceSummary) (ledger : MultiLedger) :
    List UInt8 :=
  let controlTriggers := controlTriggers performance ledger
  (if ledger.cashCharges ≠ [] then ledgerMagic3 else if controlTriggers then ledgerMagic2 else
    ledgerMagic1) ++
    ofUnsigned 2 ledger.accountingVersion ++
      ofUnsigned 8 (Unsigned.wrap 64 performance.instruments.length) ++
    (performance.instruments.flatMap fun instrument =>
      let record := instrumentRecord controlTriggers instrument (fillsOf ledger instrument)
      ofUnsigned 4 (Unsigned.wrap 32 record.length) ++ record) ++
    if ledger.cashCharges ≠ [] then
      ofUnsigned 8 (Unsigned.wrap 64 ledger.cashCharges.length) ++
        ledger.cashCharges.flatMap appendCharge
    else []

end Ledgers

end Artifacts

section Output

def IndicatorValue.appendCanonical : IndicatorValue → Encoding
  | .bool value => .ok [1, value.toUInt8]
  | .signed value => .ok (2 :: ofSigned 8 value)
  | .unsigned value => .ok (3 :: ofUnsigned 8 value)
  | .decimal value => .ok (4 :: value.toCanonicalBytes)
  | .text value => .ok [5] ++ appendBytes value.bytes

def StrategyOutputRecord.appendCanonical : StrategyOutputRecord → Encoding
  | .eventIndicator runEventOrdinal eventFingerprint instrumentStateVersion outputSequence
      indicatorName value =>
    .ok [1] ++ .ok (ofUnsigned 8 runEventOrdinal) ++ .ok eventFingerprint.digest.bytes ++
      .ok (ofUnsigned 8 instrumentStateVersion) ++ .ok (ofUnsigned 4 outputSequence) ++
        appendBytes indicatorName.bytes ++
      value.appendCanonical
  | .finalizeIndicator outputSequence indicatorName value =>
    .ok [2] ++ .ok (ofUnsigned 4 outputSequence) ++ appendBytes indicatorName.bytes ++
      value.appendCanonical
  | .controlIndicator controlSequence controlTime outputSequence indicatorName value =>
    .ok [3] ++ .ok (ofUnsigned 8 controlSequence) ++
      .ok (ofSigned 8 controlTime.unixMicroseconds) ++
      .ok (ofUnsigned 4 outputSequence) ++ appendBytes indicatorName.bytes ++ value.appendCanonical
  | .eventCashCharge runEventOrdinal eventFingerprint instrumentStateVersion outputSequence amount
      category reference =>
    .ok [4] ++ .ok (ofUnsigned 8 runEventOrdinal) ++ .ok eventFingerprint.digest.bytes ++
      .ok (ofUnsigned 8 instrumentStateVersion) ++ .ok (ofUnsigned 4 outputSequence) ++
        .ok amount.toCanonicalBytes ++
      appendBytes category.bytes ++ appendBytes reference.bytes
  | .controlCashCharge controlSequence controlTime outputSequence amount category reference =>
    .ok [5] ++ .ok (ofUnsigned 8 controlSequence) ++
      .ok (ofSigned 8 controlTime.unixMicroseconds) ++
      .ok (ofUnsigned 4 outputSequence) ++ .ok amount.toCanonicalBytes ++
        appendBytes category.bytes ++
      appendBytes reference.bytes

def canonicalStrategyOutputVersion : U16 := ⟨3, Unsigned.three_fits⟩

def StrategyIdentity.appendCanonical (self : StrategyIdentity) : Encoding :=
  appendBytes self.strategyId.bytes ++ appendBytes self.strategyVersion.bytes ++
    appendBytes self.binaryIdentity.algorithm.bytes ++ appendBytes self.binaryIdentity.digest

/-- Led by OSSO. -/
def StrategyOutput.toCanonicalBytes (self : StrategyOutput) :
    Except StrategyOutputEncodingError (List UInt8) := do
  let identity ← self.identity.appendCanonical.mapError .canonical
  let count ← okOr .recordCountOverflow (Unsigned.ofNat? 64 self.records.length)
  let records ← (encodeAll StrategyOutputRecord.appendCanonical self.records).mapError .canonical
  return [79, 83, 83, 79] ++ ofUnsigned 2 canonicalStrategyOutputVersion ++ identity ++
    self.canonicalParamsChecksum.bytes ++ ofUnsigned 8 count ++ records

end Output

/-- A run of either runner, as it is published. -/
inductive CompletedRun
  | multi (completed : CompletedMultiBacktest)
  | scheduled (completed : CompletedScheduledMultiBacktest)

namespace CompletedRun
open Artifacts

def performance : CompletedRun → MultiPerformanceSummary
  | multi completed => completed.performance
  | scheduled completed => completed.performance

def ledger : CompletedRun → MultiLedger
  | multi completed => completed.ledger
  | scheduled completed => completed.ledger

def strategyOutput : CompletedRun → StrategyOutput
  | multi completed => completed.strategyOutput
  | scheduled completed => completed.strategyOutput

/-- orders.bin -/
def ordersBytes : CompletedRun → Except ArtifactError (List UInt8)
  | multi completed => encodeOrders completed.simulator.orders
  | scheduled completed => encodeScheduledOrders completed

/-- fills.bin -/
def fillsBytes : CompletedRun → Except ArtifactError (List UInt8)
  | multi completed => .ok (encodeMultiFills completed)
  | scheduled completed => encodeScheduledFills completed

/-- ledger.bin -/
def ledgerBytes (run : CompletedRun) : List UInt8 :=
  encodeMultiLedgerParts run.performance run.ledger

/-- strategy-output.bin -/
def strategyOutputBytes (run : CompletedRun) : Except StrategyOutputEncodingError (List UInt8) :=
  run.strategyOutput.toCanonicalBytes

end CompletedRun

end Osmium
