import Osmium.Lib.Stateful
import Osmium.Spec.Depth

/-! The scheduled depth simulator: orders with an activation time, the books and trading states
visible to them, and the operations that move an order from its submission to a terminal status.
Order and fill identities are hashes, and the hash is a parameter. -/

namespace Osmium
open Machine Bytes Result Stateful

inductive ScheduledSimulationError
  | emptyUniverse
  | duplicateInstrument (instrument : InstrumentId)
  | instrumentOutsideUniverse (instrument : InstrumentId)
  | invalidDepthLevels (levels : ℕ)
  | zeroStalenessWindow
  | invalidAdversePriceDelta
  | priceNotAllowedByInstrumentProfile
  | visibilityBeforeMatchTime
  | invalidAuctionMatchEvidence
  | invalidSettlementOrderType
  | regressingBookTime
  | regressingTradingStateTime
  | activationBeforeDecision
  | activationTimeMismatch
  | activationOutOfOrder
  | expiryTimeMismatch
  | quantityUnitMismatch (expected actual : QuantityUnit)
  | unknownClientOrder
  | unknownOrder
  | clientOrderAlreadyTerminal
  | orderAlreadyTerminal
  | sequenceOverflow
  | stalenessOverflow
  | quantityOverflow
  | invalidQuantity
  | canonical (error : CanonicalEncodingError)
  | fillFeedback (error : ExecutionFillFeedbackError)
  | depthSweep (error : DepthSweepError)
  /-- An `expect` of the source that does not hold; the process would abort. -/
  | panicked
deriving DecidableEq

structure ScheduledDepthModel where
  depthLevels : ℕ
  maxStaleMs : U64
  adversePriceDelta : Decimal
  levels : 1 ≤ depthLevels ∧ depthLevels ≤ bookDepth
  window : maxStaleMs.val ≠ 0
  adverse : 0 ≤ adversePriceDelta.atoms.val

structure ScheduledInstrumentConfig where
  instrument : InstrumentId
  quantityUnit : QuantityUnit
  model : ScheduledDepthModel
  pricePolicy : PricePolicy

/-- What the simulator keeps of a configuration. -/
structure InstrumentProfile where
  quantityUnit : QuantityUnit
  model : ScheduledDepthModel
  pricePolicy : PricePolicy

structure VisibleBookEvidence where
  instrument : InstrumentId
  book : CompleteBookSnapshot
  matchTime : MatchTime
  visibleAt : MatchTime
  matching : MatchingState
  newOrderEntry : NewOrderEntry
  causal : matchTime ≤ visibleAt

/-- The execution eligibility last observed; it can change without a new book. -/
structure VisibleTradingStateEvidence where
  instrument : InstrumentId
  matchTime : MatchTime
  visibleAt : MatchTime
  matching : MatchingState
  newOrderEntry : NewOrderEntry
  causal : matchTime ≤ visibleAt

structure AuctionMatchEvidence where
  instrument : InstrumentId
  clearingPrice : Price
  matchTime : MatchTime
  visibleAt : MatchTime
  runEventOrdinal : U64
  causal : matchTime ≤ visibleAt

def VisibleBookEvidence.new (instrument : InstrumentId) (book : CompleteBookSnapshot)
    (matchTime visibleAt : MatchTime) (matching : MatchingState) (newOrderEntry : NewOrderEntry) :
    Except ScheduledSimulationError VisibleBookEvidence :=
  if causal : matchTime ≤ visibleAt then
    .ok ⟨instrument, book, matchTime, visibleAt, matching, newOrderEntry, causal⟩
  else .error .visibilityBeforeMatchTime

def VisibleTradingStateEvidence.new (instrument : InstrumentId) (matchTime visibleAt : MatchTime)
    (matching : MatchingState) (newOrderEntry : NewOrderEntry) :
    Except ScheduledSimulationError VisibleTradingStateEvidence :=
  if causal : matchTime ≤ visibleAt then
    .ok ⟨instrument, matchTime, visibleAt, matching, newOrderEntry, causal⟩
  else .error .visibilityBeforeMatchTime

def AuctionMatchEvidence.new (instrument : InstrumentId) (clearingPrice : Price)
    (matchTime visibleAt : MatchTime) (runEventOrdinal : U64) (matching : MatchingState) :
    Except ScheduledSimulationError AuctionMatchEvidence :=
  if causal : matchTime ≤ visibleAt then
    if matching = .enabled .callAuction then
      .ok ⟨instrument, clearingPrice, matchTime, visibleAt, runEventOrdinal, causal⟩
    else .error .invalidAuctionMatchEvidence
  else .error .visibilityBeforeMatchTime

structure ScheduledSubmissionContext where
  originIdentity : Digest
  decisionTime : MatchTime
deriving DecidableEq

inductive ScheduledOrderStatus
  | scheduled
  | active
  | partiallyFilled
  | matchAttempted
  | filled
  | failed (reason : ExecutionFailureReason)
  | expired
  | replaced
  | cancelled
deriving DecidableEq

structure ScheduledOrder where
  id : OrderId
  request : ScheduledOrderRequest
  acceptanceSequence : U64
  filledValue : U64
  status : ScheduledOrderStatus
deriving DecidableEq

structure ScheduledSubmission where
  orderId : OrderId
  replaced : Option OrderFeedback
deriving DecidableEq

structure ScheduledActivation where
  orderId : OrderId
  status : ScheduledOrderStatus
  feedback : OrderFeedback
  executionFills : List ExecutionFillFeedback
deriving DecidableEq

structure VisibleBookState where
  evidence : VisibleBookEvidence
  consumedBids : Vector U64 bookDepth
  consumedAsks : Vector U64 bookDepth

def VisibleBookState.consumed (self : VisibleBookState) : OrderSide → Vector U64 bookDepth
  | .buy => self.consumedAsks
  | .sell => self.consumedBids

def VisibleBookState.setConsumed (self : VisibleBookState) (side : OrderSide)
    (consumed : Vector U64 bookDepth) :
    VisibleBookState :=
  match side with
  | .buy => { self with consumedAsks := consumed }
  | .sell => { self with consumedBids := consumed }

structure ScheduledDepthSimulator where
  configs : Std.ExtTreeMap InstrumentId InstrumentProfile
  books : Std.ExtTreeMap InstrumentId VisibleBookState
  tradingStates : Std.ExtTreeMap InstrumentId VisibleTradingStateEvidence
  orders : List ScheduledOrder
  clientOrders : Std.ExtTreeMap ClientOrderId OrderId
  fills : List FillRecord
  executionFills : List ExecutionFillFeedback
  nextAcceptanceSequence : U64

namespace ScheduledDepthSimulator

abbrev Op (α : Type) := EStateM ScheduledSimulationError ScheduledDepthSimulator α

def addConfigs : List ScheduledInstrumentConfig → Std.ExtTreeMap InstrumentId InstrumentProfile →
    Except ScheduledSimulationError (Std.ExtTreeMap InstrumentId InstrumentProfile)
  | [], indexed => .ok indexed
  | config :: rest, indexed => do
    ensure (config.instrument ∉ indexed) (.duplicateInstrument config.instrument)
    addConfigs rest
      (indexed.insert config.instrument ⟨config.quantityUnit, config.model, config.pricePolicy⟩)

def new (configs : List ScheduledInstrumentConfig) :
    Except ScheduledSimulationError ScheduledDepthSimulator := do
  let indexed ← addConfigs configs ∅
  ensure (indexed.isEmpty = false) .emptyUniverse
  return {
    configs := indexed
    books := ∅
    tradingStates := ∅
    orders := []
    clientOrders := ∅
    fills := []
    executionFills := []
    nextAcceptanceSequence := Unsigned.wrap 64 1 }

section Publication

def tradingStateRegresses (self : ScheduledDepthSimulator)
    (evidence : VisibleTradingStateEvidence) : Bool :=
  self.tradingStates[evidence.instrument]?.any fun previous =>
    evidence.visibleAt < previous.visibleAt || evidence.matchTime < previous.matchTime

def bookRegresses (self : ScheduledDepthSimulator) (evidence : VisibleBookEvidence) : Bool :=
  self.books[evidence.instrument]?.any fun previous =>
    evidence.visibleAt < previous.evidence.visibleAt ||
      evidence.matchTime < previous.evidence.matchTime

def publishVisibleTradingState (evidence : VisibleTradingStateEvidence) : Op Unit := do
  let self ← get
  lift
    (ensure (evidence.instrument ∈ self.configs) (.instrumentOutsideUniverse evidence.instrument))
  lift (ensure (self.tradingStateRegresses evidence = false) .regressingTradingStateTime)
  set { self with tradingStates := self.tradingStates.insert evidence.instrument evidence }

def checkVisibleBook (self : ScheduledDepthSimulator) (evidence : VisibleBookEvidence) :
    Except ScheduledSimulationError Unit := do
  let profile ← okOr (.instrumentOutsideUniverse evidence.instrument)
      self.configs[evidence.instrument]?
  match evidence.book.quantityUnit with
  | some actual =>
    ensure (actual = profile.quantityUnit) (.quantityUnitMismatch profile.quantityUnit actual)
  | none => pure ()
  ensure (∀ level ∈ evidence.book.bids.levels ++ evidence.book.asks.levels,
    profile.pricePolicy.accepts level.price = true)
    .priceNotAllowedByInstrumentProfile
  ensure (self.bookRegresses evidence = false) .regressingBookTime

def publishVisibleBook (evidence : VisibleBookEvidence) : Op Unit := do
  let self ← get
  lift (self.checkVisibleBook evidence)
  publishVisibleTradingState {
    instrument := evidence.instrument
    matchTime := evidence.matchTime
    visibleAt := evidence.visibleAt
    matching := evidence.matching
    newOrderEntry := evidence.newOrderEntry
    causal := evidence.causal }
  let state : VisibleBookState := {
    evidence := evidence
    consumedBids := Vector.replicate bookDepth 0
    consumedAsks := Vector.replicate bookDepth 0 }
  modify fun self => { self with books := self.books.insert evidence.instrument state }

end Publication

section Submission
variable (hash : List UInt8 → Digest)

/-- The first order with an identity, with its position. -/
def locate (self : ScheduledDepthSimulator) (orderId : OrderId) : Option (ScheduledOrder × ℕ) :=
  self.orders.zipIdx.find? fun entry => entry.1.id = orderId

def setOrder (self : ScheduledDepthSimulator) (index : ℕ) (order : ScheduledOrder) :
    ScheduledDepthSimulator :=
  { self with orders := self.orders.set index order }

/-- The bytes an order identity is hashed from. -/
def orderIdentity (strategyId : Text) (context : ScheduledSubmissionContext) (outputSequence : U32)
    (request : ScheduledOrderRequest) : Except CanonicalEncodingError (List UInt8) := do
  let canonical ← request.toCanonicalBytes
  return [79, 83, 83, 79, 82] ++ strategyId.bytes ++ context.originIdentity.bytes ++
    ofSigned 8 context.decisionTime.unixMicroseconds ++ ofUnsigned 4 outputSequence ++ canonical

def orderTypeAllowed (policy : PricePolicy) : OrderType → Bool
  | .market => true
  | .limit limitPrice => policy.accepts limitPrice

def checkSubmission (self : ScheduledDepthSimulator) (context : ScheduledSubmissionContext)
    (request : ScheduledOrderRequest) : Except ScheduledSimulationError Unit := do
  ensure (context.decisionTime ≤ request.activateAt) .activationBeforeDecision
  let profile ← okOr (.instrumentOutsideUniverse request.intent.instrument)
      self.configs[request.intent.instrument]?
  ensure (request.intent.quantity.unit = profile.quantityUnit)
    (.quantityUnitMismatch profile.quantityUnit request.intent.quantity.unit)
  ensure (orderTypeAllowed profile.pricePolicy request.intent.orderType = true)
    .priceNotAllowedByInstrumentProfile

/-- A scheduled order under the same client identity gives way to the new one. -/
def replacePrevious (clientOrderId : ClientOrderId) : Op (Option OrderFeedback) := do
  let self ← get
  match self.clientOrders[clientOrderId]? with
  | none => return none
  | some previousId =>
    let (previous, index) ← lift (okOr .panicked (self.locate previousId))
    lift (ensure (previous.status = .scheduled) .clientOrderAlreadyTerminal)
    set (self.setOrder index { previous with status := .replaced })
    return some (.cancelled previous.id .replaced)

def submit (strategyId : Text) (context : ScheduledSubmissionContext) (outputSequence : U32)
    (request : ScheduledOrderRequest) : Op ScheduledSubmission := do
  let self ← get
  lift (self.checkSubmission context request)
  let replaced ← replacePrevious request.clientOrderId
  let identity ← lift
      ((orderIdentity strategyId context outputSequence request).mapError .canonical)
  let orderId : OrderId := ⟨hash identity⟩
  let self ← get
  let acceptanceSequence := self.nextAcceptanceSequence
  let next ← lift (okOr .sequenceOverflow (acceptanceSequence.checkedAdd (Unsigned.wrap 64 1)))
  let order : ScheduledOrder := {
    id := orderId
    request := request
    acceptanceSequence := acceptanceSequence
    filledValue := 0
    status := .scheduled }
  set { self with
    nextAcceptanceSequence := next
    clientOrders := self.clientOrders.insert request.clientOrderId orderId
    orders := self.orders ++ [order] }
  return { orderId := orderId, replaced := replaced }

def cancelBeforeActivation (clientOrderId : ClientOrderId) : Op OrderFeedback := do
  let self ← get
  let orderId ← lift (okOr .unknownClientOrder self.clientOrders[clientOrderId]?)
  let (order, index) ← lift (okOr .unknownOrder (self.locate orderId))
  lift (ensure (order.status = .scheduled) .orderAlreadyTerminal)
  set (self.setOrder index { order with status := .cancelled })
  return .cancelled orderId .strategyCancelled

def mayExpire : ScheduledOrderStatus → Bool
  | .scheduled | .active | .partiallyFilled | .matchAttempted => true
  | _ => false

def expire (orderId : OrderId) (time : MatchTime) : Op OrderFeedback := do
  let self ← get
  let (order, index) ← lift (okOr .unknownOrder (self.locate orderId))
  lift (ensure (mayExpire order.status = true) .orderAlreadyTerminal)
  lift (ensure (order.request.expireAt = some time) .expiryTimeMismatch)
  set (self.setOrder index { order with status := .expired })
  return .cancelled orderId .expired

end Submission

section Matching
variable (hash : List UInt8 → Digest)

def fillId (orderId : OrderId) (controlSequence : U64) (levelIndex : ℕ) : FillId :=
  ⟨hash ([79, 83, 83, 70] ++ orderId.digest.bytes ++ ofUnsigned 8 controlSequence ++
    [UInt8.ofNat levelIndex])⟩

def marketFillId (orderId : OrderId) (runEventOrdinal : U64) (levelIndex : ℕ) : FillId :=
  ⟨hash ([79, 83, 83, 70, 77] ++ orderId.digest.bytes ++ ofUnsigned 8 runEventOrdinal ++
    [UInt8.ofNat levelIndex])⟩

/-- What is left of a quantity, when anything is. -/
def remainingQuantity (quantity : Quantity) (filled : U64) : Option Quantity :=
  (Quantity.new (quantity.value.wrappingSub filled) quantity.unit).toOption

def visibleBook (self : ScheduledDepthSimulator) (instrument : InstrumentId) (time : MatchTime) :
    Option VisibleBookState :=
  self.books[instrument]?.filter fun state => state.evidence.visibleAt ≤ time

def visibleTradingState (self : ScheduledDepthSimulator) (instrument : InstrumentId)
    (time : MatchTime) :
    Option VisibleTradingStateEvidence :=
  self.tradingStates[instrument]?.filter fun state => state.visibleAt ≤ time

def maxStaleMicros (model : ScheduledDepthModel) : Option I64 :=
  (model.maxStaleMs.checkedMul (Unsigned.wrap 64 1000)).bind fun value => Signed.ofInt? 64 value.val

/-- Whether a book is too old, or matched later than `time`. -/
def isStale (model : ScheduledDepthModel) (book : VisibleBookState) (time : MatchTime) :
    Except ScheduledSimulationError Bool := do
  let maxStaleMicros ← okOr .stalenessOverflow (maxStaleMicros model)
  let age ← okOr .stalenessOverflow
    (time.unixMicroseconds.checkedSub book.evidence.matchTime.unixMicroseconds)
  return age.val < 0 || maxStaleMicros.val < age.val

def sweepBook (profile : InstrumentProfile) (book : VisibleBookState)
    (request : ScheduledOrderRequest)
    (requested : Quantity) : Except ScheduledSimulationError DepthSweepResult := do
  let side := request.intent.side
  let sweep ← (sweepMarketableDepthWithConsumed book.evidence.book side requested
    profile.model.depthLevels request.intent.orderType profile.model.adversePriceDelta
    (book.consumed side)).mapError .depthSweep
  ensure (∀ fill ∈ sweep.fills, profile.pricePolicy.accepts fill.price = true)
    .priceNotAllowedByInstrumentProfile
  return sweep

inductive DepthDecision
  | fail (reason : ExecutionFailureReason)
  | sweep (result : DepthSweepResult)

/-- What an activation against depth finds before it changes anything. -/
def depthAtActivation (self : ScheduledDepthSimulator) (request : ScheduledOrderRequest)
    (time : MatchTime) :
    Except ScheduledSimulationError DepthDecision := do
  let instrument := request.intent.instrument
  let profile ← okOr .panicked self.configs[instrument]?
  match self.visibleBook instrument time with
  | none => return .fail .missingVisibleDepth
  | some book =>
    let stale ← isStale profile.model book time
    if stale = true then return .fail .staleVisibleDepth
    else if (self.visibleTradingState instrument time).any
      (fun state => state.matching.isEnabled) = false then
      return .fail .matchingDisabled
    else if (self.visibleTradingState instrument time).any
        (fun state => entryAllowed state.newOrderEntry request.intent.orderType) = false then
      return .fail .newOrderEntryBlocked
    else return .sweep (← sweepBook profile book request request.intent.quantity)

/-- What a passive match finds before it changes anything; nothing when there is no book to match
against. -/
def passiveSweep (self : ScheduledDepthSimulator) (order : ScheduledOrder) (time : MatchTime) :
    Except ScheduledSimulationError (Option DepthSweepResult) := do
  let instrument := order.request.intent.instrument
  let profile ← okOr .panicked self.configs[instrument]?
  match self.visibleBook instrument time with
  | none => return none
  | some book =>
    let stale ← isStale profile.model book time
    if stale = true ∨ (self.visibleTradingState instrument time).any
      (fun state => state.matching.isEnabled) = false then
      return none
    else
      let requested ← okOr .invalidQuantity
          (remainingQuantity order.request.intent.quantity order.filledValue)
      return some (← sweepBook profile book order.request requested)

/-- The feedback of one fill of an order. -/
def fillFeedback (order : ScheduledOrder) (fillId : FillId) (time : MatchTime) (levelIndex : ℕ)
    (price : Price) (quantity cumulativeFilled : Quantity) (remaining : Option Quantity) :
    ExecutionFillFeedback where
  fillId := fillId
  orderId := order.id
  clientOrderId := order.request.clientOrderId
  batchId := order.request.batchId
  instrument := order.request.intent.instrument
  activationTime := order.request.activateAt
  fillTime := time
  side := order.request.intent.side
  levelIndex := levelIndex
  price := price
  quantity := quantity
  cumulativeFilled := cumulativeFilled
  remaining := remaining

/-- Consumes one level. -/
def consumeLevel (instrument : InstrumentId) (side : OrderSide) (fill : LevelFill) : Op Unit := do
  let self ← get
  let book ← lift (okOr .panicked self.books[instrument]?)
  let index := fill.levelIndex - 1
  let consumed ← lift (okOr .panicked (book.consumed side)[index]?)
  let next ← lift (okOr .quantityOverflow (consumed.checkedAdd fill.quantity.value))
  let book := book.setConsumed side ((book.consumed side).setIfInBounds index next)
  set { self with books := self.books.insert instrument book }

/-- Records one level of a sweep: the level is consumed and the fill recorded before the feedback is
checked. -/
def recordLevelFill (order : ScheduledOrder) (controlSequence : U64) (time : MatchTime)
    (fill : LevelFill) (cumulative : U64) : Op (U64 × ExecutionFillFeedback) := do
  let intent := order.request.intent
  consumeLevel intent.instrument intent.side fill
  let cumulative ← lift (okOr .quantityOverflow (cumulative.checkedAdd fill.quantity.value))
  let cumulativeQuantity ← lift
      ((Quantity.new cumulative intent.quantity.unit).mapError fun _ => .invalidQuantity)
  modify fun self => { self with
    fills :=
      self.fills ++
        [.fromControl order.id controlSequence time intent.side fill.price fill.quantity] }
  let feedback ← lift
      ((ExecutionFillFeedback.new
        (fillFeedback order (fillId hash order.id controlSequence fill.levelIndex)
    time fill.levelIndex fill.price fill.quantity cumulativeQuantity
    (remainingQuantity intent.quantity cumulative))).mapError .fillFeedback)
  modify fun self => { self with executionFills := self.executionFills ++ [feedback] }
  return (cumulative, feedback)

def recordSweep (order : ScheduledOrder) (controlSequence : U64) (time : MatchTime) :
    List LevelFill → U64 → Op (U64 × List ExecutionFillFeedback)
  | [], cumulative => return (cumulative, [])
  | fill :: rest, cumulative => do
    let (cumulative, feedback) ← recordLevelFill hash order controlSequence time fill cumulative
    let (cumulative, feedbacks) ← recordSweep order controlSequence time rest cumulative
    return (cumulative, feedback :: feedbacks)

def failActivation (order : ScheduledOrder) (index : ℕ) (reason : ExecutionFailureReason)
    (executionFills : List ExecutionFillFeedback) : Op ScheduledActivation := do
  modify fun self => self.setOrder index { order with status := .failed reason }
  let quantity := order.request.intent.quantity
  let remaining ← lift (okOr .panicked (remainingQuantity quantity order.filledValue))
  return {
    orderId := order.id
    status := .failed reason
    feedback := .executionFailed order.id reason
        (Quantity.new order.filledValue quantity.unit).toOption remaining
    executionFills := executionFills }

/-- An order filled at once and completely: the fill is recorded before the feedback is checked. -/
def fillCompletely (order : ScheduledOrder) (index : ℕ) (record : FillRecord) (fillId : FillId)
    (price : Price) :
    Op ScheduledActivation := do
  let quantity := order.request.intent.quantity
  modify fun self => { self with fills := self.fills ++ [record] }
  let feedback ← lift
      ((ExecutionFillFeedback.new
        (fillFeedback order fillId record.matchTime 1 price quantity quantity
    none)).mapError .fillFeedback)
  modify fun self => { self with executionFills := self.executionFills ++ [feedback] }
  modify fun self =>
    self.setOrder index { order with filledValue := quantity.value, status := .filled }
  return {
    orderId := order.id
    status := .filled
    feedback := .filled order.id quantity
    executionFills := [feedback] }

def settleAtActivation (order : ScheduledOrder) (index : ℕ) (controlSequence : U64)
    (time : MatchTime) :
    Op ScheduledActivation :=
  match order.request.intent.orderType with
  | .market => throw .invalidSettlementOrderType
  | .limit settlementPrice =>
    fillCompletely order index
      (.fromControl order.id controlSequence time order.request.intent.side settlementPrice
        order.request.intent.quantity)
      (fillId hash order.id controlSequence 1) settlementPrice

def activateAgainstDepth (order : ScheduledOrder) (index : ℕ) (controlSequence : U64)
    (time : MatchTime) :
    Op ScheduledActivation := do
  let self ← get
  match ← lift (self.depthAtActivation order.request time) with
  | .fail reason => failActivation order index reason []
  | .sweep sweep =>
    let (cumulative, executionFills) ← recordSweep hash order controlSequence time sweep.fills 0
    let order := { order with filledValue := cumulative }
    modify fun self => self.setOrder index order
    if sweep.isComplete = true then
      modify fun self => self.setOrder index { order with status := .filled }
      return {
        orderId := order.id
        status := .filled
        feedback := .filled order.id order.request.intent.quantity
        executionFills := executionFills }
    else
      failActivation order index
        (if cumulative.val = 0 ∧ order.request.intent.orderType ≠ .market then .priceNotMarketable
          else .insufficientVisibleDepth) executionFills

/-- The checks of `activate` before it looks at the market. -/
def checkActivation (self : ScheduledDepthSimulator) (orderId : OrderId) (time : MatchTime) :
    Except ScheduledSimulationError (ScheduledOrder × ℕ) := do
  let (order, index) ← okOr .unknownOrder (self.locate orderId)
  ensure (order.status = .scheduled) .orderAlreadyTerminal
  ensure (order.request.activateAt = time) .activationTimeMismatch
  ensure (∀ other ∈ self.orders, ¬ (other.status = .scheduled ∧ other.request.activateAt = time ∧
    other.acceptanceSequence < order.acceptanceSequence)) .activationOutOfOrder
  return (order, index)

def activate (orderId : OrderId) (controlSequence : U64) (time : MatchTime) :
    Op ScheduledActivation := do
  let self ← get
  let (order, index) ← lift (self.checkActivation orderId time)
  if (self.visibleTradingState order.request.intent.instrument time).any
      (fun state => entryAllowed state.newOrderEntry order.request.intent.orderType = false) =
        true then
    failActivation order index .newOrderEntryBlocked []
  else match order.request.executionPolicy with
    | .visibleDepthUntilExpiryV1 | .auctionCrossAtFirstMatchV1 =>
      set (self.setOrder index { order with status := .active })
      return { orderId := orderId, status := .active, feedback :=
        .activated orderId, executionFills := [] }
    | .settlementAtActivationV1 => settleAtActivation hash order index controlSequence time
    | .visibleDepthAtActivationV1 => activateAgainstDepth hash order index controlSequence time

/-- The order of acceptance, with the identity as tie breaker. -/
def acceptedBefore (a b : ScheduledOrder × ℕ) : Prop :=
  a.1.acceptanceSequence < b.1.acceptanceSequence ∨
    (a.1.acceptanceSequence = b.1.acceptanceSequence ∧ (compare a.1.id b.1.id).isLE = true)

instance (a b : ScheduledOrder × ℕ) : Decidable (acceptedBefore a b) :=
  inferInstanceAs (Decidable (_ ∨ _))

/-- The positions of the orders that satisfy `eligible`, in order of acceptance. -/
def eligibleOrders (self : ScheduledDepthSimulator) (eligible : ScheduledOrder → Bool) : List ℕ :=
  ((self.orders.zipIdx.filter fun entry => eligible entry.1).insertionSort acceptedBefore).map
    Prod.snd

def passiveEligible (instrument : InstrumentId) (order : ScheduledOrder) : Bool :=
  order.status = .active && order.request.intent.instrument = instrument &&
    order.request.executionPolicy = .visibleDepthUntilExpiryV1

def passiveOutcome (order : ScheduledOrder) (filledNow : U64) (remaining : Option Quantity) :
    Except ScheduledSimulationError (ScheduledOrderStatus × OrderFeedback) :=
  match remaining with
  | none => .ok (.filled, .filled order.id order.request.intent.quantity)
  | some remaining =>
    if 0 < filledNow.val then do
      let filled ← (Quantity.new filledNow order.request.intent.quantity.unit).mapError
          fun _ => .panicked
      return (.partiallyFilled, .partiallyFilled order.id filled remaining)
    else .ok (.matchAttempted, .matchAttempted order.id none remaining)

def executePassiveOrder (index : ℕ) (controlSequence : U64) (time : MatchTime) :
    Op (Option ScheduledActivation) := do
  let self ← get
  let order ← lift (okOr .panicked self.orders[index]?)
  match ← lift (self.passiveSweep order time) with
  | none => return none
  | some sweep =>
    let (cumulative, executionFills) ← recordSweep hash order controlSequence time sweep.fills
        order.filledValue
    modify fun self => self.setOrder index { order with filledValue := cumulative }
    let (status, feedback) ← lift (passiveOutcome order (cumulative.wrappingSub order.filledValue)
      (remainingQuantity order.request.intent.quantity cumulative))
    modify fun self =>
      self.setOrder index { order with filledValue := cumulative, status := status }
    return some { orderId := order.id, status := status, feedback := feedback, executionFills :=
      executionFills }

def executePassiveOrders (controlSequence : U64) (time : MatchTime) :
    List ℕ → Op (List ScheduledActivation)
  | [] => return []
  | index :: rest => do
    let result ← executePassiveOrder hash index controlSequence time
    let results ← executePassiveOrders controlSequence time rest
    return result.toList ++ results

def evaluateActive (instrument : InstrumentId) (controlSequence : U64) (time : MatchTime) :
    Op (List ScheduledActivation) := do
  let self ← get
  executePassiveOrders hash controlSequence time (self.eligibleOrders (passiveEligible instrument))

def interruptible (instrument : InstrumentId) (order : ScheduledOrder) : Bool :=
  order.request.intent.instrument = instrument && order.request.intent.orderType = .market &&
    (order.status = .active || order.status = .partiallyFilled || order.status = .matchAttempted)

def interrupted (instrument : InstrumentId) (order : ScheduledOrder) : ScheduledOrder :=
  if interruptible instrument order = true then { order with status := .cancelled } else order

def cancelActiveMarketOrdersForVolatilityInterruption (instrument : InstrumentId) :
    Op (List OrderFeedback) := do
  let self ← get
  lift (ensure (instrument ∈ self.configs) (.instrumentOutsideUniverse instrument))
  set { self with orders := self.orders.map (interrupted instrument) }
  return (self.orders.filter (interruptible instrument)).map fun order =>
    .cancelled order.id .volatilityInterruption

def auctionEligible (evidence : AuctionMatchEvidence) (order : ScheduledOrder) : Bool :=
  order.status = .active && order.request.intent.instrument = evidence.instrument &&
    order.request.executionPolicy = .auctionCrossAtFirstMatchV1 &&
      order.request.activateAt ≤ evidence.matchTime

def auctionCrosses (intent : OrderIntent) (clearingPrice : Price) : Bool :=
  match intent.orderType, intent.side with
  | .limit limitPrice, .buy => clearingPrice < limitPrice
  | .limit limitPrice, .sell => limitPrice < clearingPrice
  | .market, _ => false

def matchAuctionOrder (evidence : AuctionMatchEvidence) (index : ℕ) : Op ScheduledActivation := do
  let self ← get
  let order ← lift (okOr .panicked self.orders[index]?)
  if auctionCrosses order.request.intent evidence.clearingPrice = false then
    set (self.setOrder index { order with status := .matchAttempted })
    return {
      orderId := order.id
      status := .matchAttempted
      feedback := .matchAttempted order.id none order.request.intent.quantity
      executionFills := [] }
  else
    fillCompletely order index
      (.fromMarketEvent order.id evidence.runEventOrdinal evidence.matchTime
        order.request.intent.side
        evidence.clearingPrice order.request.intent.quantity)
      (marketFillId hash order.id evidence.runEventOrdinal 1) evidence.clearingPrice

def matchAuctionOrders (evidence : AuctionMatchEvidence) : List ℕ → Op (List ScheduledActivation)
  | [] => return []
  | index :: rest => do
    let result ← matchAuctionOrder hash evidence index
    let results ← matchAuctionOrders evidence rest
    return result :: results

def evaluateAuctionMatch (evidence : AuctionMatchEvidence) : Op (List ScheduledActivation) := do
  let self ← get
  let profile ← lift
      (okOr (.instrumentOutsideUniverse evidence.instrument) self.configs[evidence.instrument]?)
  lift (ensure (profile.pricePolicy.accepts evidence.clearingPrice = true)
    .priceNotAllowedByInstrumentProfile)
  matchAuctionOrders hash evidence (self.eligibleOrders (auctionEligible evidence))

end Matching

end ScheduledDepthSimulator

end Osmium
