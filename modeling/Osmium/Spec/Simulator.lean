import Osmium.Lib.Stateful
import Osmium.Spec.Trading

/-! The subsequent-event simulator: an order is matched against events after the one it was emitted
at, once its latency has passed. Each instrument of a universe has a simulator of its own. -/

namespace Osmium
open Machine Bytes Result Stateful

inductive EvidenceMode | topOfBook | tradePrint
deriving DecidableEq

inductive QuantityPolicy | unlimited | displayed
deriving DecidableEq

structure FillModel where
  evidence : EvidenceMode
  quantity : QuantityPolicy
  adversePriceDelta : Decimal
  marketDataLatencyMs : U64
  orderLatencyMs : U64
deriving DecidableEq

inductive OrderStatus | pending | partiallyFilled | filled | cancelled
deriving DecidableEq

def OrderStatus.isOpen : OrderStatus → Bool
  | .pending | .partiallyFilled => true
  | .filled | .cancelled => false

structure SimOrder where
  id : OrderId
  intent : OrderIntent
  originOrdinal : U64
  eligibleMatchTime : MatchTime
  originSegmentId : SessionSegmentId
  acceptanceSequence : U64
  filled : U64
  status : OrderStatus
deriving DecidableEq

def SimOrder.remaining (self : SimOrder) : U64 := self.intent.quantity.value.wrappingSub self.filled

/-- The order with more filled, and the status that follows. -/
def SimOrder.withFilled (self : SimOrder) (filled : U64) : SimOrder :=
  let order := { self with filled := filled }
  { order with status := if order.remaining.val = 0 then .filled else .partiallyFilled }

inductive SimulationError
  | canonical (error : CanonicalEncodingError)
  | sequenceOverflow
  | quantityOverflow
  | invalidQuantity
  | invalidSlippage
  | latencyOverflow
  | emptyUniverse
  | duplicateInstrument
deriving DecidableEq

section Helpers

/-- What an event offers to an order of one side: the best opposite level, or the first trade. -/
def evidence (event : DomainEvent) (mode : EvidenceMode) (side : OrderSide) :
    Option (Price × Quantity) :=
  let best (book : CompleteBookSnapshot) : Option (Price × Quantity) :=
    (match side with
      | .buy => book.asks.levels.head?
      | .sell => book.bids.levels.head?).map fun (level : BookLevel) =>
        (level.price, level.displayedQuantity)
  match mode, event.payload with
  | .topOfBook, .quoteSnapshot snapshot => best snapshot.book
  | .topOfBook, .bookSnapshot snapshot => best snapshot.book
  | .tradePrint, .quoteSnapshot snapshot => snapshot.trade.asSet.map fun trade =>
    (trade.price, trade.quantity)
  | .tradePrint, .tradeBatch batch => batch.trades.head?.map fun trade =>
    (trade.price, trade.quantity)
  | _, _ => none

def limitTouched (intent : OrderIntent) (price : Price) : Bool :=
  match intent.orderType with
  | .market => true
  | .limit limitPrice =>
    match intent.side with
    | .buy => price ≤ limitPrice
    | .sell => limitPrice ≤ price

/-- The price moved against the order. -/
def applySlippage (price : Price) (side : OrderSide) (model : FillModel)
    (pricePolicy : PricePolicy) :
    Except SimulationError Price := do
  ensure (0 ≤ model.adversePriceDelta.atoms.val) .invalidSlippage
  let decimal ← (match side with
    | .buy => price.value.checkedAdd model.adversePriceDelta
    | .sell => price.value.checkedSub model.adversePriceDelta).mapError fun _ => .invalidSlippage
  ensure (pricePolicy.accepts ⟨decimal⟩ = true) .invalidSlippage
  return ⟨decimal⟩

def addLatency (matchTime : MatchTime) (marketDataLatencyMs orderLatencyMs : U64) :
    Except SimulationError MatchTime := do
  let totalLatencyMillis ← okOr .latencyOverflow (marketDataLatencyMs.checkedAdd orderLatencyMs)
  let latencyMicros ← okOr .latencyOverflow
      ((totalLatencyMillis.checkedMul (Unsigned.wrap 64 1000)).bind fun value =>
    Signed.ofInt? 64 value.val)
  let value ← okOr .latencyOverflow (matchTime.unixMicroseconds.checkedAdd latencyMicros)
  return ⟨value⟩

def orderIsEligible (originOrdinal : U64) (eligibleMatchTime : MatchTime) (currentOrdinal : U64)
    (currentMatchTime : MatchTime) : Bool :=
  originOrdinal < currentOrdinal && eligibleMatchTime ≤ currentMatchTime

def interruptsMatching : Option MarketSignal → Bool
  | some (.auctionCollecting auction) => auction.purpose = .known .volatilityInterruption
  | _ => false

def entryStopped : NewOrderEntry → Bool
  | .blocked _ | .unknown => true
  | .allowed | .restricted _ => false

end Helpers

structure Simulator where
  universeInstruments : Std.ExtTreeSet InstrumentId
  quantityUnit : QuantityUnit
  model : FillModel
  pricePolicy : PricePolicy
  orders : List SimOrder
  fills : List FillRecord
  nextAcceptanceSequence : U64

namespace Simulator

abbrev Op (α : Type) := EStateM SimulationError Simulator α

def newWithPricePolicy (instruments : List InstrumentId) (quantityUnit : QuantityUnit)
    (model : FillModel) (pricePolicy : PricePolicy) : Simulator where
  universeInstruments := .ofList instruments
  quantityUnit := quantityUnit
  model := model
  pricePolicy := pricePolicy
  orders := []
  fills := []
  nextAcceptanceSequence := Unsigned.wrap 64 1

section Submission
variable (hash : List UInt8 → Digest)

/-- The reason to reject an order, if there is one. -/
def rejection (self : Simulator) (trading : TradingContext) (intent : OrderIntent) :
    Option RejectionReason :=
  if intent.instrument ∉ self.universeInstruments then some .instrumentOutsideUniverse
  else if intent.quantity.unit ≠ self.quantityUnit then some .quantityUnitMismatch
  else if (match intent.orderType with
    | .market => false
    | .limit limitPrice => self.pricePolicy.accepts limitPrice = false) then
        some .priceNotAllowedByInstrumentProfile
  else if entryAllowed trading.newOrderEntry intent.orderType = false then
    some .newOrderEntryBlocked
  else none

/-- The bytes an order identity is hashed from. -/
def orderIdentity (strategyId : Text) (occurrence : EventOccurrence) (outputSequence : U32)
    (intent : OrderIntent) :
    Except CanonicalEncodingError (List UInt8) := do
  let canonical ← intent.toCanonicalBytes
  return [79, 83, 79, 82] ++ strategyId.bytes ++ occurrence.eventFingerprint.digest.bytes ++
    ofUnsigned 8 occurrence.runEventOrdinal ++ ofUnsigned 4 outputSequence ++ canonical

def submit (strategyId : Text) (occurrence : EventOccurrence) (trading : TradingContext)
    (outputSequence : U32) (intent : OrderIntent) : Op OrderFeedback := do
  let self ← get
  match self.rejection trading intent with
  | some reason => return .rejected reason
  | none =>
    let identity ← lift
        ((orderIdentity strategyId occurrence outputSequence intent).mapError .canonical)
    let eligibleMatchTime ← lift
        (addLatency occurrence.orderingKey.matchTime self.model.marketDataLatencyMs
        self.model.orderLatencyMs)
    let next ← lift
        (okOr .sequenceOverflow (self.nextAcceptanceSequence.checkedAdd (Unsigned.wrap 64 1)))
    let order : SimOrder := {
      id := ⟨hash identity⟩
      intent := intent
      originOrdinal := occurrence.runEventOrdinal
      eligibleMatchTime := eligibleMatchTime
      originSegmentId := trading.session.segmentId
      acceptanceSequence := self.nextAcceptanceSequence
      filled := 0
      status := .pending }
    set { self with orders := self.orders ++ [order], nextAcceptanceSequence := next }
    return .accepted order.id

end Submission

section Evaluation

/-- What is left of the evidence for the orders of each side. -/
structure Available where
  buy : Option (Price × Quantity)
  sell : Option (Price × Quantity)

def Available.side (self : Available) : OrderSide → Option (Price × Quantity)
  | .buy => self.buy
  | .sell => self.sell

def Available.setSide (self : Available) (side : OrderSide) (left : Option (Price × Quantity)) :
    Available :=
  match side with
  | .buy => { self with buy := left }
  | .sell => { self with sell := left }

/-- The evidence of an event at prices the instrument may trade at. -/
def available (self : Simulator) (event : DomainEvent) : Available :=
  let accepted (side : OrderSide) : Option (Price × Quantity) :=
    (evidence event self.model.evidence side).filter fun offer => self.pricePolicy.accepts offer.1
  ⟨accepted .buy, accepted .sell⟩

/-- An order that the event may fill at all. -/
def mayFill (event : DomainEvent) (occurrence : EventOccurrence) (order : SimOrder) : Bool :=
  order.status.isOpen &&
    orderIsEligible order.originOrdinal order.eligibleMatchTime occurrence.runEventOrdinal
      event.matchTime &&
    event.instrument = order.intent.instrument

def fillValue (self : Simulator) (order : SimOrder) (offered : Quantity) : U64 :=
  match self.model.quantity with
  | .unlimited => order.remaining
  | .displayed => min order.remaining offered.value

/-- The price and the quantity an order is granted out of what is offered to its side. -/
def grantOffer (self : Simulator) (order : SimOrder) (offer : Price × Quantity) :
    Except SimulationError (Option (Price × Quantity)) :=
  if offer.2.unit ≠ order.intent.quantity.unit ∨
    limitTouched order.intent offer.1 = false then .ok none
  else do
    let fillPrice ← applySlippage offer.1 order.intent.side self.model self.pricePolicy
    if limitTouched order.intent fillPrice = false ∨
      (self.fillValue order offer.2).val = 0 then return none
    else
      let quantity ← (Quantity.new (self.fillValue order offer.2) offer.2.unit).mapError fun _ =>
          .invalidQuantity
      return some (fillPrice, quantity)

def grant (self : Simulator) (event : DomainEvent) (occurrence : EventOccurrence)
    (available : Available)
    (order : SimOrder) : Except SimulationError (Option (Price × Quantity)) :=
  if mayFill event occurrence order = false then .ok none
  else match available.side order.intent.side with
    | none => .ok none
    | some offer => self.grantOffer order offer

def fillFeedback (order : SimOrder) (quantity : Quantity) : Except SimulationError OrderFeedback :=
  if order.status = .filled then .ok (.filled order.id quantity)
  else do
    let remaining ← (Quantity.new order.remaining quantity.unit).mapError fun _ => .invalidQuantity
    return .partiallyFilled order.id quantity remaining

/-- Displayed quantity is used up; unlimited quantity is offered to every order in full. -/
def afterFill (self : Simulator) (available : Available) (side : OrderSide) (quantity : Quantity) :
    Available :=
  match self.model.quantity, available.side side with
  | .displayed, some (price, offered) =>
    available.setSide side
      ((Quantity.new (Unsigned.wrap 64 (offered.value.val - quantity.value.val))
        offered.unit).toOption.map
      fun left => (price, left))
  | _, _ => available

/-- A pass over the orders: those passed as they are now, what is left of the evidence, and what was
recorded. -/
structure Pass where
  orders : List SimOrder
  available : Available
  fills : List FillRecord
  feedback : List OrderFeedback

def passOrder (self : Simulator) (event : DomainEvent) (occurrence : EventOccurrence)
    (order : SimOrder) :
    EStateM SimulationError Pass Unit := do
  let pass ← get
  match ← lift (self.grant event occurrence pass.available order) with
  | none => set { pass with orders := pass.orders ++ [order] }
  | some (price, quantity) =>
    let filled ← lift (okOr .quantityOverflow (order.filled.checkedAdd quantity.value))
    set { pass with
      orders := pass.orders ++ [order.withFilled filled]
      available := self.afterFill pass.available order.intent.side quantity
      fills :=
        pass.fills ++
          [FillRecord.fromMarketEvent order.id occurrence.runEventOrdinal event.matchTime
        order.intent.side price quantity] }
    let feedback ← lift (fillFeedback (order.withFilled filled) quantity)
    modify fun pass => { pass with feedback := pass.feedback ++ [feedback] }

def acceptedBefore (a b : SimOrder) : Prop :=
  a.acceptanceSequence < b.acceptanceSequence ∨
    a.acceptanceSequence = b.acceptanceSequence ∧ (compare a.id b.id).isLE = true

instance (a b : SimOrder) : Decidable (acceptedBefore a b) := inferInstanceAs (Decidable (_ ∨ _))

/-- One pass over all orders in acceptance order. A failure keeps what the pass did before it. -/
def matchOrders (event : DomainEvent) (occurrence : EventOccurrence) : Op (List OrderFeedback) := do
  let self ← get
  let orders := self.orders.insertionSort acceptedBefore
  match each (self.passOrder event occurrence) orders
    ⟨[], self.available event, self.fills, []⟩ with
  | .ok () pass =>
    set { self with orders := pass.orders, fills := pass.fills }
    return pass.feedback
  | .error e pass =>
    set { self with orders := pass.orders ++ orders.drop pass.orders.length, fills := pass.fills }
    throw e

end Evaluation

section Cancellation

def cancelOrder (cancels : SimOrder → Bool) (order : SimOrder) : SimOrder :=
  if order.status.isOpen && cancels order then { order with status := .cancelled } else order

/-- Cancels the open orders that satisfy the predicate, and tells which ones. -/
def cancelWhere (cancels : SimOrder → Bool) (reason : CancellationReason) :
    Op (List OrderFeedback) := do
  let self ← get
  set { self with orders := self.orders.map (cancelOrder cancels) }
  return (self.orders.filter fun order => order.status.isOpen && cancels order).map fun order =>
    .cancelled order.id reason

def cancelPendingMarketOrders (instrument : InstrumentId) : Op (List OrderFeedback) :=
  cancelWhere (fun order => order.intent.instrument = instrument &&
    order.intent.orderType = .market) .volatilityInterruption

def cancelEndOfRun : Op (List OrderFeedback) := cancelWhere (fun _ => true) .endOfRun

def cancelSegmentEnd (segmentId : SessionSegmentId) : Op (List OrderFeedback) :=
  cancelWhere (fun order => order.originSegmentId = segmentId) .segmentEnd

end Cancellation

def evaluate (event : DomainEvent) (occurrence : EventOccurrence) (trading : TradingContext) :
    Op (List OrderFeedback) :=
  if interruptsMatching trading.marketSignal = true then cancelPendingMarketOrders event.instrument
  else if trading.matching.isEnabled = false ∨
    entryStopped trading.newOrderEntry = true then pure []
  else matchOrders event occurrence

end Simulator

/-- A simulator for each instrument of a universe. -/
structure MultiSimulator where
  simulators : Std.ExtTreeMap InstrumentId Simulator

structure SimulatorConfig where
  instrument : InstrumentId
  quantityUnit : QuantityUnit
  model : FillModel
  pricePolicy : PricePolicy

namespace MultiSimulator

abbrev Op (α : Type) := EStateM SimulationError MultiSimulator α

def addSimulators : List SimulatorConfig → Std.ExtTreeMap InstrumentId Simulator →
    Except SimulationError (Std.ExtTreeMap InstrumentId Simulator)
  | [], simulators => .ok simulators
  | config :: rest, simulators => do
    ensure (config.instrument ∉ simulators) .duplicateInstrument
    addSimulators rest (simulators.insert config.instrument
      (Simulator.newWithPricePolicy [config.instrument] config.quantityUnit config.model
        config.pricePolicy))

def new (configs : List SimulatorConfig) : Except SimulationError MultiSimulator := do
  let simulators ← addSimulators configs ∅
  ensure (simulators.isEmpty = false) .emptyUniverse
  return ⟨simulators⟩

/-- Runs an operation on the simulator of an instrument, or gives a default when there is none. -/
def onInstrument {α : Type} (instrument : InstrumentId) (absent : α) (op : Simulator.Op α) :
    Op α := fun self =>
  match self.simulators[instrument]? with
  | none => .ok absent self
  | some simulator =>
    match op simulator with
    | .ok a simulator => .ok a ⟨self.simulators.insert instrument simulator⟩
    | .error e simulator => .error e ⟨self.simulators.insert instrument simulator⟩

def submit (hash : List UInt8 → Digest) (strategyId : Text) (occurrence : EventOccurrence)
    (trading : TradingContext) (outputSequence : U32) (intent : OrderIntent) : Op OrderFeedback :=
  onInstrument intent.instrument (.rejected .instrumentOutsideUniverse)
    (Simulator.submit hash strategyId occurrence trading outputSequence intent)

def evaluate (event : DomainEvent) (occurrence : EventOccurrence) (trading : TradingContext) :
    Op (List OrderFeedback) :=
  onInstrument event.instrument [] (Simulator.evaluate event occurrence trading)

def cancelSegmentEndFor (instrument : InstrumentId) (segmentId : SessionSegmentId) :
    Op (List OrderFeedback) :=
  onInstrument instrument [] (Simulator.cancelSegmentEnd segmentId)

def cancelEndOfRunFor (instrument : InstrumentId) : Op (List OrderFeedback) :=
  onInstrument instrument [] Simulator.cancelEndOfRun

def fillsFor (self : MultiSimulator) (instrument : InstrumentId) : Option (List FillRecord) :=
  self.simulators[instrument]?.map Simulator.fills

end MultiSimulator

end Osmium
