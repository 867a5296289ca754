import Osmium.Spec.MultiLedger
import Osmium.Spec.Trading

/-! The strategy interface: what a strategy is told in each callback, and the sink it answers into.
A strategy is a record of functions on a state of its own type. -/

namespace Osmium
open Machine Bytes Result

inductive StrategyOutputEncodingError
  | emptyIndicatorName
  | invalidCashCharge
  | cashChargeCapabilityUnavailable
  | outputSequenceOverflow
  | recordCountOverflow
  | canonical (error : CanonicalEncodingError)
deriving DecidableEq

/-- A charge a strategy asks for; the time and the identity are the runner's. -/
structure CashChargeRequest where
  amount : Decimal
  category : Text
  reference : Text
  valid : cashChargeValid amount category reference
deriving DecidableEq

def CashChargeRequest.new (amount : Decimal) (category reference : Text) :
    Except StrategyOutputEncodingError CashChargeRequest :=
  if h : cashChargeValid amount category reference then .ok ⟨amount, category, reference, h⟩ else
    .error .invalidCashCharge

inductive IndicatorValue
  | bool (value : Bool)
  | signed (value : I64)
  | unsigned (value : U64)
  | decimal (value : Decimal)
  | text (value : Text)
deriving DecidableEq

inductive StrategyOutputRecord
  | eventIndicator (runEventOrdinal : U64) (eventFingerprint : EventFingerprint)
      (instrumentStateVersion : U64)
      (outputSequence : U32) (indicatorName : Text) (value : IndicatorValue)
  | finalizeIndicator (outputSequence : U32) (indicatorName : Text) (value : IndicatorValue)
  | controlIndicator (controlSequence : U64) (controlTime : MatchTime) (outputSequence : U32)
      (indicatorName : Text)
      (value : IndicatorValue)
  | eventCashCharge (runEventOrdinal : U64) (eventFingerprint : EventFingerprint)
      (instrumentStateVersion : U64)
      (outputSequence : U32) (amount : Decimal) (category reference : Text)
  | controlCashCharge (controlSequence : U64) (controlTime : MatchTime) (outputSequence : U32)
      (amount : Decimal)
      (category reference : Text)
deriving DecidableEq

inductive StrategyTimerError | emptyId | idTooLong | capabilityUnavailable | fireBeforeDecision
deriving DecidableEq

def maxTimerIdBytes : ℕ := 128

@[ext] structure StrategyTimerId where
  text : Text
  nonempty : text.isEmpty = false
  bounded : text.bytes.length ≤ maxTimerIdBytes

instance : DecidableEq StrategyTimerId := fun _ _ => decidable_of_iff' _ StrategyTimerId.ext_iff

def StrategyTimerId.new (value : Text) : Except StrategyTimerError StrategyTimerId :=
  if nonempty : value.isEmpty = false then
    if bounded : value.bytes.length ≤ maxTimerIdBytes then .ok ⟨value, nonempty, bounded⟩ else
      .error .idTooLong
  else .error .emptyId

instance : Ord StrategyTimerId := ⟨fun a b => compare a.text b.text⟩

instance : Std.TransOrd StrategyTimerId :=
  Order.transCmp_of_key _ StrategyTimerId.text fun _ _ => rfl

instance : Std.LawfulEqOrd StrategyTimerId :=
  Order.lawfulEqCmp_of_key _ StrategyTimerId.text (fun _ _ => rfl) fun _ _ h =>
    StrategyTimerId.ext h

structure StrategyTimerRequest where
  timerId : StrategyTimerId
  fireAt : MatchTime
deriving DecidableEq

structure StrategyTimerContext where
  timerId : StrategyTimerId
  fireAt : MatchTime
  currentEquity : Decimal
deriving DecidableEq

structure StrategyOutputSink where
  pending : List (Text × IndicatorValue)
  intents : List OrderIntent
  scheduledOrders : List ScheduledOrderRequest
  timers : List StrategyTimerRequest
  cashCharges : List CashChargeRequest
  orderIntentsEnabled : Bool
  scheduledOrdersEnabled : Bool
deriving DecidableEq

namespace StrategyOutputSink

def new : StrategyOutputSink := ⟨[], [], [], [], [], false, false⟩

def withOrderIntents : StrategyOutputSink := ⟨[], [], [], [], [], true, false⟩

def withScheduledOrders : StrategyOutputSink := ⟨[], [], [], [], [], false, true⟩

inductive OrderIntentError | unavailable
deriving DecidableEq

def emitOrderIntent (intent : OrderIntent) (self : StrategyOutputSink) :
    Except OrderIntentError StrategyOutputSink := do
  ensure (self.orderIntentsEnabled = true) .unavailable
  return { self with intents := self.intents ++ [intent] }

inductive ScheduledOrderCapabilityError | unavailable
deriving DecidableEq

def emitScheduledOrder (request : ScheduledOrderRequest) (self : StrategyOutputSink) :
    Except ScheduledOrderCapabilityError StrategyOutputSink := do
  ensure (self.scheduledOrdersEnabled = true) .unavailable
  return { self with scheduledOrders := self.scheduledOrders ++ [request] }

def emitTimer (request : StrategyTimerRequest) (self : StrategyOutputSink) :
    Except StrategyTimerError StrategyOutputSink := do
  ensure (self.scheduledOrdersEnabled = true) .capabilityUnavailable
  return { self with timers := self.timers ++ [request] }

def emitCashCharge (request : CashChargeRequest) (self : StrategyOutputSink) :
    Except StrategyOutputEncodingError StrategyOutputSink := do
  ensure (self.scheduledOrdersEnabled = true) .cashChargeCapabilityUnavailable
  return { self with cashCharges := self.cashCharges ++ [request] }

def emitIndicator (name : Text) (value : IndicatorValue) (self : StrategyOutputSink) :
    Except StrategyOutputEncodingError StrategyOutputSink := do
  ensure (name.isEmpty = false) .emptyIndicatorName
  return { self with pending := self.pending ++ [(name, value)] }

def outputSequence (count : ℕ) : Except StrategyOutputEncodingError U32 :=
  okOr .outputSequenceOverflow (Unsigned.ofNat? 32 count)

/-- The charges with the numbers that follow those of the indicators; `index` is the position of the
first one. -/
def numberCharges (indicators : ℕ) : List CashChargeRequest → ℕ →
    Except StrategyOutputEncodingError (List (U32 × CashChargeRequest))
  | [], _ => .ok []
  | charge :: rest, index => do
    let sequence ← outputSequence (indicators + (index + 1))
    return (sequence, charge) :: (← numberCharges indicators rest (index + 1))

def cashChargesWithOutputSequences (self : StrategyOutputSink) :
    Except StrategyOutputEncodingError (List (U32 × CashChargeRequest)) :=
  numberCharges self.pending.length self.cashCharges 0

def indicatorRecords (record : U32 → Text → IndicatorValue → StrategyOutputRecord) :
    List (Text × IndicatorValue) → ℕ →
    Except StrategyOutputEncodingError (List StrategyOutputRecord)
  | [], _ => .ok []
  | (name, value) :: rest, index => do
    let sequence ← outputSequence (index + 1)
    return record sequence name value :: (← indicatorRecords record rest (index + 1))

def pushCharges (record : U32 → CashChargeRequest → StrategyOutputRecord) : List CashChargeRequest →
    List StrategyOutputRecord → Except StrategyOutputEncodingError (List StrategyOutputRecord)
  | [], records => .ok records
  | charge :: rest, records => do
    let sequence ← outputSequence (records.length + 1)
    pushCharges record rest (records ++ [record sequence charge])

def intoEventRecords (occurrence : EventOccurrence) (self : StrategyOutputSink) :
    Except StrategyOutputEncodingError (List StrategyOutputRecord) := do
  let records ← indicatorRecords
      (.eventIndicator occurrence.runEventOrdinal occurrence.eventFingerprint
      occurrence.instrumentStateVersion) self.pending 0
  pushCharges
    (fun sequence charge => .eventCashCharge occurrence.runEventOrdinal occurrence.eventFingerprint
    occurrence.instrumentStateVersion sequence charge.amount charge.category charge.reference)
      self.cashCharges records

def intoFinalizeRecords (self : StrategyOutputSink) :
    Except StrategyOutputEncodingError (List StrategyOutputRecord) :=
  indicatorRecords .finalizeIndicator self.pending 0

def intoControlRecords (controlSequence : U64) (controlTime : MatchTime)
    (self : StrategyOutputSink) :
    Except StrategyOutputEncodingError (List StrategyOutputRecord) := do
  let records ← indicatorRecords (.controlIndicator controlSequence controlTime) self.pending 0
  pushCharges
    (fun sequence charge => .controlCashCharge controlSequence controlTime sequence charge.amount
    charge.category charge.reference) self.cashCharges records

end StrategyOutputSink

structure BinaryIdentity where
  algorithm : Text
  digest : List UInt8
  nonempty : algorithm.isEmpty = false ∧ digest ≠ []
deriving DecidableEq

structure StrategyIdentity where
  strategyId : Text
  strategyVersion : Text
  binaryIdentity : BinaryIdentity
  nonempty : strategyId.isEmpty = false ∧ strategyVersion.isEmpty = false
deriving DecidableEq

structure StrategyOutput where
  identity : StrategyIdentity
  canonicalParamsChecksum : Digest
  records : List StrategyOutputRecord
deriving DecidableEq

def StrategyOutput.new (identity : StrategyIdentity) (canonicalParamsChecksum : Digest) :
    StrategyOutput :=
  ⟨identity, canonicalParamsChecksum, []⟩

def StrategyOutput.extend (self : StrategyOutput) (records : List StrategyOutputRecord) :
    StrategyOutput :=
  { self with records := self.records ++ records }

inductive DeclarationError | emptyUniverse | emptySessions
deriving DecidableEq

structure StrategyDeclaration where
  universeInstruments : List InstrumentId
  sessions : List SessionKind
deriving DecidableEq

def StrategyDeclaration.new (instruments : List InstrumentId) (sessions : List SessionKind) :
    Except DeclarationError StrategyDeclaration := do
  let instruments := Std.ExtTreeSet.ofList instruments
  let sessions := Std.ExtTreeSet.ofList sessions
  ensure (instruments.isEmpty = false) .emptyUniverse
  ensure (sessions.isEmpty = false) .emptySessions
  return ⟨instruments.toList, sessions.toList⟩

/-- What `on_event` is told: the released event with the visible states after it, never the
committed ones. -/
structure StrategyEventContext where
  occurrence : EventOccurrence
  event : DomainEvent
  marketState : MarketState
  marketStates : Std.ExtTreeMap InstrumentId MarketState
  trading : TradingContext
  decisionTime : MatchTime

def StrategyEventContext.session (self : StrategyEventContext) : SessionCallbackContext :=
  self.trading.session

structure StrategyFeedbackContext where
  feedback : List OrderFeedback
  executionFills : List ExecutionFillFeedback
deriving DecidableEq

structure StrategyFinalizeContext where
  clock : ReplayClock
  states : List MarketState

structure StrategyExecutionError where
  message : Text
  capabilityUnavailable : Bool
deriving DecidableEq

/-- The methods of a strategy whose own state has type `σ`. A callback is handed a sink and gives it
back. -/
structure Strategy (σ : Type) where
  identity : σ → StrategyIdentity
  canonicalParamsChecksum : σ → Digest
  declaration : σ → StrategyDeclaration
  onInitialize : StrategyDeclaration → σ → Except StrategyExecutionError σ
  onEvent : StrategyEventContext → StrategyOutputSink → σ →
      Except StrategyExecutionError (StrategyOutputSink × σ)
  onFeedback : StrategyFeedbackContext → StrategyOutputSink → σ →
      Except StrategyExecutionError (StrategyOutputSink × σ)
  onTimer : StrategyTimerContext → StrategyOutputSink → σ →
      Except StrategyExecutionError (StrategyOutputSink × σ)
  onFinalize : StrategyFinalizeContext → StrategyOutputSink → σ →
      Except StrategyExecutionError (StrategyOutputSink × σ)

end Osmium
