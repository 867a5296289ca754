import Osmium.Spec.Canonical

/-! Orders, fills and order feedback of the strategy interface, with the canonical bytes that order
identities are hashed from. -/

namespace Osmium
open Machine Bytes Codec Result

inductive OrderSide | buy | sell
deriving DecidableEq

def OrderSide.discriminant : OrderSide → UInt8
  | .buy => 1
  | .sell => 2

inductive OrderType
  | market
  | limit (limitPrice : Price)
deriving DecidableEq

inductive TimeInForce | day
deriving DecidableEq

def TimeInForce.discriminant : TimeInForce → UInt8
  | .day => 1

@[ext] structure OrderIntent where
  instrument : InstrumentId
  side : OrderSide
  quantity : Quantity
  orderType : OrderType
deriving DecidableEq

def orderIntentVersion : U16 := ⟨1, by decide⟩

def OrderIntent.toCanonicalBytes (intent : OrderIntent) : Encoding :=
  .ok [79, 83, 79, 73] ++
  .ok (ofUnsigned 2 orderIntentVersion) ++
  .ok [intent.instrument.market.discriminant] ++
  appendBytes intent.instrument.symbol.text.bytes ++
  .ok [intent.side.discriminant] ++
  .ok intent.quantity.toCanonicalBytes ++
  .ok (match intent.orderType with
    | .market => [1]
    | .limit limitPrice => 2 :: limitPrice.toCanonicalBytes) ++
  .ok [TimeInForce.day.discriminant]

inductive MatchingMethod | callAuction | continuous
deriving DecidableEq

inductive OrderRestrictionReason | preOpenLimitOrdersOnly | auctionCollecting
deriving DecidableEq

inductive OrderBlockReason | coolDown | closingResult
deriving DecidableEq

inductive NewOrderEntry
  | allowed
  | restricted (reason : OrderRestrictionReason)
  | blocked (reason : OrderBlockReason)
  | unknown
deriving DecidableEq

inductive MatchingState
  | enabled (method : MatchingMethod)
  | closed
  | unknown
deriving DecidableEq

def MatchingState.isEnabled : MatchingState → Bool
  | .enabled _ => true
  | _ => false

def entryAllowed : NewOrderEntry → OrderType → Bool
  | .allowed, _ => true
  | .restricted _, .limit _ => true
  | .restricted _, .market => false
  | .blocked _, _ | .unknown, _ => false

inductive OrderCorrelationIdError | empty | tooLong
deriving DecidableEq

def maxCorrelationIdBytes : ℕ := 128

def validateCorrelationId (value : Text) : Except OrderCorrelationIdError Unit := do
  ensure (value.isEmpty = false) .empty
  ensure (value.bytes.length ≤ maxCorrelationIdBytes) .tooLong

@[ext] structure ClientOrderId where
  text : Text
  valid : validateCorrelationId text = .ok ()
deriving DecidableEq

@[ext] structure OrderBatchId where
  text : Text
  valid : validateCorrelationId text = .ok ()
deriving DecidableEq

instance : Ord ClientOrderId := ⟨fun a b => compare a.text b.text⟩

instance : Std.TransOrd ClientOrderId := Order.transCmp_of_key _ ClientOrderId.text fun _ _ => rfl

instance : Std.LawfulEqOrd ClientOrderId :=
  Order.lawfulEqCmp_of_key _ ClientOrderId.text (fun _ _ => rfl) fun _ _ h => ClientOrderId.ext h

inductive ScheduledExecutionPolicy
  | visibleDepthAtActivationV1
  | visibleDepthUntilExpiryV1
  | auctionCrossAtFirstMatchV1
  | settlementAtActivationV1
deriving DecidableEq

def ScheduledExecutionPolicy.discriminant : ScheduledExecutionPolicy → UInt8
  | .visibleDepthAtActivationV1 => 1
  | .visibleDepthUntilExpiryV1 => 2
  | .auctionCrossAtFirstMatchV1 => 3
  | .settlementAtActivationV1 => 4

/-- A request can only be built with an expiry later than its activation. -/
@[ext] structure ScheduledOrderRequest where
  clientOrderId : ClientOrderId
  batchId : Option OrderBatchId
  activateAt : MatchTime
  expireAt : Option MatchTime
  intent : OrderIntent
  executionPolicy : ScheduledExecutionPolicy
  activeWindow : ∀ expiry ∈ expireAt, activateAt < expiry
deriving DecidableEq

def scheduledOrderRequestVersion : U16 := ⟨1, by decide⟩

def ScheduledOrderRequest.toCanonicalBytes (request : ScheduledOrderRequest) : Encoding :=
  .ok [79, 83, 83, 82] ++
  .ok (ofUnsigned 2 scheduledOrderRequestVersion) ++
  appendBytes request.clientOrderId.text.bytes ++
  (match request.batchId with
    | none => .ok [0]
    | some batchId => .ok [1] ++ appendBytes batchId.text.bytes) ++
  .ok (ofSigned 8 request.activateAt.unixMicroseconds) ++
  appendOption (fun expireAt => ofSigned 8 expireAt.unixMicroseconds) request.expireAt ++
  .ok [request.executionPolicy.discriminant] ++
  (do appendBytes (← request.intent.toCanonicalBytes))

@[ext] structure OrderId where
  digest : Digest
deriving DecidableEq

instance : Ord OrderId := ⟨fun a b => compare a.digest b.digest⟩

@[ext] structure FillId where
  digest : Digest
deriving DecidableEq

inductive ExecutionFillFeedbackError
  | invalidLevelIndex | fillBeforeActivation | quantityUnitMismatch | invalidCumulativeQuantity
deriving DecidableEq

@[ext] structure ExecutionFillFeedback where
  fillId : FillId
  orderId : OrderId
  clientOrderId : ClientOrderId
  batchId : Option OrderBatchId
  instrument : InstrumentId
  activationTime : MatchTime
  fillTime : MatchTime
  side : OrderSide
  levelIndex : ℕ
  price : Price
  quantity : Quantity
  cumulativeFilled : Quantity
  remaining : Option Quantity
deriving DecidableEq

/-- The checks of `ExecutionFillFeedback::new`, in its order. -/
def ExecutionFillFeedback.validate (f : ExecutionFillFeedback) :
    Except ExecutionFillFeedbackError Unit := do
  ensure (1 ≤ f.levelIndex ∧ f.levelIndex ≤ 5) .invalidLevelIndex
  ensure (f.activationTime ≤ f.fillTime) .fillBeforeActivation
  ensure (f.quantity.unit = f.cumulativeFilled.unit ∧ ∀ r ∈ f.remaining, r.unit = f.quantity.unit)
    .quantityUnitMismatch
  ensure (f.quantity.value.val ≤ f.cumulativeFilled.value.val) .invalidCumulativeQuantity

def ExecutionFillFeedback.new (f : ExecutionFillFeedback) :
    Except ExecutionFillFeedbackError ExecutionFillFeedback := do
  f.validate
  return f

inductive RejectionReason
  | instrumentOutsideUniverse | quantityUnitMismatch | newOrderEntryBlocked | unsupportedOrderType
  | priceNotAllowedByInstrumentProfile
deriving DecidableEq

inductive CancellationReason
  | endOfRun | segmentEnd | volatilityInterruption | expired | replaced | strategyCancelled
deriving DecidableEq

inductive ExecutionFailureReason
  | missingVisibleDepth | staleVisibleDepth | matchingDisabled | newOrderEntryBlocked
  | insufficientVisibleDepth | priceNotMarketable
deriving DecidableEq

inductive OrderFeedback
  | accepted (orderId : OrderId)
  | activated (orderId : OrderId)
  | rejected (reason : RejectionReason)
  | partiallyFilled (orderId : OrderId) (filled remaining : Quantity)
  | filled (orderId : OrderId) (filled : Quantity)
  | cancelled (orderId : OrderId) (reason : CancellationReason)
  | executionFailed (orderId : OrderId) (reason : ExecutionFailureReason) (filled : Option Quantity)
      (remaining : Quantity)
  | matchAttempted (orderId : OrderId) (filled : Option Quantity) (remaining : Quantity)
deriving DecidableEq

/-- What triggered a fill: a market event of the run or a control. -/
inductive FillTrigger
  | marketEvent (runEventOrdinal : U64)
  | control (controlSequence : U64)
deriving DecidableEq

@[ext] structure FillRecord where
  orderId : OrderId
  trigger : FillTrigger
  matchTime : MatchTime
  side : OrderSide
  price : Price
  quantity : Quantity
deriving DecidableEq

def FillRecord.fromMarketEvent (orderId : OrderId) (runEventOrdinal : U64) (matchTime : MatchTime)
    (side : OrderSide) (price : Price) (quantity : Quantity) : FillRecord :=
  ⟨orderId, .marketEvent runEventOrdinal, matchTime, side, price, quantity⟩

def FillRecord.fromControl (orderId : OrderId) (controlSequence : U64) (matchTime : MatchTime)
    (side : OrderSide) (price : Price) (quantity : Quantity) : FillRecord :=
  ⟨orderId, .control controlSequence, matchTime, side, price, quantity⟩

end Osmium
