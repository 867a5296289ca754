import Osmium.Spec.Control
import Osmium.Spec.Scheduled
import Osmium.Spec.Simulator
import Osmium.Spec.Strategy

/-! The coordinator of a scheduled backtest: what it does with one control. Every control may call
the strategy, move the simulator and the ledger, and schedule further controls. -/

namespace Osmium
open Machine Bytes Result Stateful

inductive ReplayFault
  | core (error : ReplayError)
  | ordering (error : OrderingError)
  | streamFailed (message : Text)
  | encoding (error : CanonicalEncodingError)
  | decoding (error : CanonicalDecodingError)
  | occurrenceDiffers
deriving DecidableEq

inductive ScheduleFault
  | strategyUniverse | scheduleUniverse | simulatorUniverse | ledgerUniverse | sessions
  | bindingDate | eventOutside
  | eventState | simulatorInstrument
deriving DecidableEq

inductive StrategyFault
  | execution (error : StrategyExecutionError)
  | output (error : StrategyOutputEncodingError)
  | timer (error : StrategyTimerError)
deriving DecidableEq

inductive SimulationFault
  | simulator (error : ScheduledSimulationError)
  | subsequent (error : SimulationError)
  | multipleClearingPrices
deriving DecidableEq

inductive AccountingFault
  | ledger (error : AccountingError)
  | missingCurrentMark (instrument : InstrumentId)
  | currentEquityOverflow
deriving DecidableEq

inductive MultiBacktestError
  | declaration
  | schedule (fault : ScheduleFault)
  | replay (fault : ReplayFault)
  | context (error : ContextError)
  | strategy (fault : StrategyFault)
  | simulation (fault : SimulationFault)
  | accounting (fault : AccountingFault)
  | sequence
  | intentAfterEnd
  /-- An `expect` of the source that does not hold; the process would abort. -/
  | panicked
  /-- The loop bound of the model; the source loops on. -/
  | outOfFuel
deriving DecidableEq

structure BufferedObservation where
  canonicalEvent : List UInt8
  runEventOrdinal : U64
  eventFingerprint : EventFingerprint
  instrumentStateVersion : U64
  trading : TradingContext
  visibleAt : MatchTime

inductive ScheduledBacktestControl
  | releaseObservation (observation : BufferedObservation)
  | expire (orderId : OrderId)
  | activate (orderId : OrderId)
  | allocateVisibleDepth (instrument : InstrumentId)
  | allocateAuctionMatch (evidence : AuctionMatchEvidence)
  | strategyTimer (request : StrategyTimerRequest)
  | deliverFeedback (feedback : List OrderFeedback) (executionFills : List ExecutionFillFeedback)
      (originIdentity : Digest)

abbrev BacktestControl := ScheduledControl ScheduledBacktestControl

inductive ObservationVisibilityError | timeOverflow
deriving DecidableEq

def addMilliseconds (time : MatchTime) (milliseconds : U64) :
    Except ObservationVisibilityError MatchTime := do
  let microseconds ← okOr .timeOverflow
      ((milliseconds.checkedMul (Unsigned.wrap 64 1000)).bind fun value =>
    Signed.ofInt? 64 value.val)
  let value ← okOr .timeOverflow (time.unixMicroseconds.checkedAdd microseconds)
  return ⟨value⟩

/-- The last trade, or the midpoint of the best levels when that is asked for and exact. -/
def finalMark (state : MarketState) (allowMidpointFallback : Bool) : Option Decimal :=
  match state.lastTrade with
  | .known trade => some trade.price.value
  | .unavailable _ | .unknown _ =>
    if allowMidpointFallback = false then none
    else match state.bestBid, state.bestAsk with
      | some bid, some ask => do
        let sum ← bid.price.atoms.checkedAdd ask.price.atoms
        if (sum.rem (Signed.wrap 128 2)).val = 0 then some ⟨sum.quot (Signed.wrap 128 2)⟩ else none
      | _, _ => none

/-- A call of the strategy, with the time it decides at. -/
inductive StrategyCall
  | event (context : StrategyEventContext)
  | timer (context : StrategyTimerContext)
  | feedback (decisionTime : MatchTime) (context : StrategyFeedbackContext)

def StrategyCall.decisionTime : StrategyCall → MatchTime
  | .event context => context.decisionTime
  | .timer context => context.fireAt
  | .feedback decisionTime _ => decisionTime

def Strategy.answer {σ : Type} (self : Strategy σ) (call : StrategyCall) (sink : StrategyOutputSink)
    (state : σ) :
    Except StrategyExecutionError (StrategyOutputSink × σ) :=
  match call with
  | .event context => self.onEvent context sink state
  | .timer context => self.onTimer context sink state
  | .feedback _ context => self.onFeedback context sink state

structure StrategyCallback where
  call : StrategyCall
  output : StrategyOutputSink

/-- What stays fixed over a run. -/
structure ScheduledSetup (σ : Type) where
  hash : List UInt8 → Digest
  strategy : Strategy σ
  schedule : MultiSessionSchedule
  marketDataLatencyMs : U64
  allowMidpointFallback : Bool

/-- `callbacks` is not in the source: it keeps every call of the strategy with the answer to it. -/
structure ScheduledCoordinator (σ : Type) where
  strategy : σ
  simulator : ScheduledDepthSimulator
  ledger : MultiLedger
  output : StrategyOutput
  controls : ControlTimeQueue ScheduledBacktestControl
  timerGenerations : Std.ExtTreeMap StrategyTimerId U64
  visibleCore : ReplayCore
  lastVisibleMarks : Std.ExtTreeMap InstrumentId Decimal
  openPositions : Std.ExtTreeSet InstrumentId
  callbacks : List StrategyCallback

namespace ScheduledCoordinator
variable {σ α : Type}

abbrev Op (σ α : Type) := EStateM MultiBacktestError (ScheduledCoordinator σ) α

section Parts

def onSimulator (op : ScheduledDepthSimulator.Op α) : Op σ α :=
  zoom simulator (fun self simulator => { self with simulator := simulator })
    (.simulation ∘ .simulator) op

def onLedger (op : EStateM AccountingError MultiLedger α) : Op σ α :=
  zoom ledger (fun self ledger => { self with ledger := ledger }) (.accounting ∘ .ledger) op

def onVisibleCore (op : EStateM ReplayError ReplayCore α) : Op σ α :=
  zoom visibleCore (fun self visibleCore => { self with visibleCore := visibleCore })
    (.replay ∘ .core) op

def schedule (time : MatchTime) (phase : ControlPhase)
    (control : ScheduledBacktestControl) : Op σ U64 :=
  zoom controls (fun self controls => { self with controls := controls }) (fun _ => .sequence)
    (ControlTimeQueue.schedule time phase control)

end Parts

section Queries

def orderIsScheduled (self : ScheduledCoordinator σ) (orderId : OrderId) : Bool :=
  self.simulator.orders.any fun order => order.id = orderId && order.status = .scheduled

def orderCanExpire (self : ScheduledCoordinator σ) (orderId : OrderId) : Bool :=
  self.simulator.orders.any fun order => order.id = orderId &&
    ScheduledDepthSimulator.mayExpire order.status

def instrumentNeedsAllocation (self : ScheduledCoordinator σ) (instrument : InstrumentId)
    (time : MatchTime) : Bool :=
  self.simulator.orders.any fun order =>
    order.request.intent.instrument = instrument &&
      order.request.executionPolicy = .visibleDepthUntilExpiryV1 &&
      (order.status = .active || (order.status = .scheduled && order.request.activateAt ≤ time))

def instrumentNeedsAuctionMatch (self : ScheduledCoordinator σ) (instrument : InstrumentId)
    (matchTime : MatchTime) : Bool :=
  self.simulator.orders.any fun order =>
    order.request.intent.instrument = instrument &&
      order.request.executionPolicy = .auctionCrossAtFirstMatchV1 &&
      order.request.activateAt ≤ matchTime && order.status = .active

/-- The mark of an open position: that of the visible state, else the last one seen. -/
def currentMark (self : ScheduledCoordinator σ) (allowMidpointFallback : Bool)
    (instrument : InstrumentId) : Option Decimal :=
  (self.visibleCore.states[instrument]?.bind fun state => finalMark state allowMidpointFallback).or
    self.lastVisibleMarks[instrument]?

def addEquity (self : ScheduledCoordinator σ) (allowMidpointFallback : Bool) :
    List InstrumentId → Decimal → Except AccountingFault Decimal
  | [], equity => .ok equity
  | instrument :: rest, equity => do
    let mark ← okOr (.missingCurrentMark instrument)
        (self.currentMark allowMidpointFallback instrument)
    let adjustment ← (self.ledger.markToMarketAdjustment instrument mark).mapError .ledger
    let equity ← (equity.checkedAdd adjustment).mapError fun _ => .currentEquityOverflow
    self.addEquity allowMidpointFallback rest equity

def currentEquity (self : ScheduledCoordinator σ) (allowMidpointFallback : Bool) :
    Except AccountingFault Decimal :=
  self.addEquity allowMidpointFallback self.openPositions.toList self.ledger.cash

end Queries

/-- The clearing price of a call auction: the trade of a quote, or the one price of a batch. -/
def auctionClearingPrice (event : DomainEvent) : Except SimulationFault (Option Price) :=
  match event.payload with
  | .quoteSnapshot snapshot => .ok (snapshot.trade.asSet.map ObservedTrade.price)
  | .tradeBatch batch =>
    match batch.trades with
    | [] => .ok none
    | first :: _ => do
      ensure (∀ trade ∈ batch.trades, trade.price = first.price) .multipleClearingPrices
      return some first.price
  | .bookSnapshot _ | .indicativeAuction _ | .marketStatus _ => .ok none

section Strategy
variable (setup : ScheduledSetup σ)

def scheduleFeedback (time : MatchTime) (feedback : List OrderFeedback)
    (executionFills : List ExecutionFillFeedback)
    (orderIdentity : Digest) (parentSequence : U64) : Op σ Unit := do
  let identity :=
    setup.hash ([79, 83, 67, 70] ++ orderIdentity.bytes ++ ofUnsigned 8 parentSequence)
  let _ ← schedule time .feedback (.deliverFeedback feedback executionFills identity)

def scheduleTimers (decisionTime : MatchTime) : List StrategyTimerRequest → Op σ Unit
  | [] => pure ()
  | request :: rest => do
    lift (ensure (decisionTime ≤ request.fireAt) (.strategy (.timer .fireBeforeDecision)))
    let sequence ← schedule request.fireAt .strategyDecision (.strategyTimer request)
    modify fun self =>
      { self with timerGenerations := self.timerGenerations.insert request.timerId sequence }
    scheduleTimers decisionTime rest

def cashChargeRecords (time : MatchTime) (originIdentity : Digest) :
    List (U32 × CashChargeRequest) → Except AccountingError (List CashChargeRecord)
  | [] => .ok []
  | (outputSequence, charge) :: rest => do
    let identity :=
      setup.hash ([79, 83, 67, 67] ++ originIdentity.bytes ++ ofUnsigned 4 outputSequence)
    let record ← CashChargeRecord.new ⟨identity⟩ time charge.amount charge.category charge.reference
    return record :: (← cashChargeRecords time originIdentity rest)

def applyCashCharges (time : MatchTime) (originIdentity : Digest)
    (charges : List (U32 × CashChargeRequest)) :
    Op σ Unit := do
  let records ← lift
      ((cashChargeRecords setup time originIdentity charges).mapError (.accounting ∘ .ledger))
  onLedger (MultiLedger.applyCashCharges records)

/-- Submits one request and schedules its expiry, its activation and the feedback of its acceptance.
-/
def submitRequest (decisionTime : MatchTime) (originIdentity : Digest)
    (controlSequence : U64) (index : ℕ) (request : ScheduledOrderRequest) : Op σ Unit := do
  let self ← get
  let outputSequence ← lift (okOr .sequence (Unsigned.ofNat? 32 (index + 1)))
  let submission ← onSimulator (ScheduledDepthSimulator.submit setup.hash
    (setup.strategy.identity self.strategy).strategyId
      ⟨originIdentity, decisionTime⟩ outputSequence request)
  match request.expireAt with
  | none => pure ()
  | some expiry =>
    let _ ← schedule expiry .orderExpiry (.expire submission.orderId)
  let _ ← schedule request.activateAt .orderActivation (.activate submission.orderId)
  scheduleFeedback setup decisionTime
    (submission.replaced.toList ++ [.accepted submission.orderId]) []
    submission.orderId.digest controlSequence

def submitRequests (decisionTime : MatchTime) (originIdentity : Digest) (controlSequence : U64) :
    List ScheduledOrderRequest → ℕ → Op σ Unit
  | [], _ => pure ()
  | request :: rest, index => do
    submitRequest setup decisionTime originIdentity controlSequence index request
    submitRequests decisionTime originIdentity controlSequence rest (index + 1)

def callStrategy (call : StrategyCall) : Op σ StrategyOutputSink := do
  let self ← get
  let (sink, strategy) ← lift
      ((setup.strategy.answer call .withScheduledOrders self.strategy).mapError
      (.strategy ∘ .execution))
  set { self with
      strategy := strategy, callbacks := self.callbacks ++ [StrategyCallback.mk call sink] }
  return sink

/-- What every callback does with the sink it gets back: records first, then timers, charges and
orders. -/
def commitOutput (sink : StrategyOutputSink)
    (records : StrategyOutputSink → Except StrategyOutputEncodingError (List StrategyOutputRecord))
    (time : MatchTime) (originIdentity : Digest) (controlSequence : U64) : Op σ Unit := do
  let cashCharges ← lift (sink.cashChargesWithOutputSequences.mapError (.strategy ∘ .output))
  let records ← lift ((records sink).mapError (.strategy ∘ .output))
  modify fun self => { self with output := self.output.extend records }
  scheduleTimers time sink.timers
  applyCashCharges setup time originIdentity cashCharges
  submitRequests setup time originIdentity controlSequence sink.scheduledOrders 0

def deliverFeedback (time : MatchTime) (controlSequence : U64) (originIdentity : Digest)
    (feedback : List OrderFeedback) (executionFills : List ExecutionFillFeedback) : Op σ Unit := do
  let sink ← callStrategy setup (.feedback time ⟨feedback, executionFills⟩)
  commitOutput setup sink (StrategyOutputSink.intoControlRecords controlSequence time) time
    originIdentity controlSequence

def timerIdentity (request : StrategyTimerRequest) (controlSequence : U64) : Digest :=
  setup.hash ([79, 83, 84, 77] ++ request.timerId.text.bytes ++ ofUnsigned 8 controlSequence)

def fireTimer (request : StrategyTimerRequest) (controlSequence : U64) : Op σ Unit := do
  let time := request.fireAt
  let self ← get
  let equity ← lift ((self.currentEquity setup.allowMidpointFallback).mapError .accounting)
  let sink ← callStrategy setup (.timer ⟨request.timerId, time, equity⟩)
  commitOutput setup sink (StrategyOutputSink.intoControlRecords controlSequence time) time
    (timerIdentity setup request controlSequence) controlSequence

end Strategy

section Settlement
variable (setup : ScheduledSetup σ)

def applyFills (instrument : InstrumentId) : List FillRecord → Op σ Unit
  | [] => pure ()
  | fill :: rest => do
    onLedger (MultiLedger.applyFill instrument fill)
    applyFills instrument rest

def refreshOpenPosition (instrument : InstrumentId) : Op σ Unit := do
  let self ← get
  let entry ← lift (okOr .declaration self.ledger.ledgers[instrument]?)
  if entry.ledger.position.val ≠ 0 then
    set { self with openPositions := self.openPositions.insert instrument }
  else
    set { self with openPositions := self.openPositions.erase instrument }

def scheduleActivationFeedback (feedbackAt : MatchTime) (controlSequence : U64) :
    List ScheduledActivation → Op σ Unit
  | [] => pure ()
  | activation :: rest => do
    scheduleFeedback setup feedbackAt
      [activation.feedback] activation.executionFills activation.orderId.digest
      controlSequence
    scheduleActivationFeedback feedbackAt controlSequence rest

/-- Books the fills the simulator recorded since `previousFillCount` and tells the strategy about
the activations. -/
def settleActivations (instrument : InstrumentId) (previousFillCount : ℕ)
    (activations : List ScheduledActivation)
    (feedbackAt : MatchTime) (controlSequence : U64) : Op σ Unit := do
  let self ← get
  applyFills instrument (self.simulator.fills.drop previousFillCount)
  refreshOpenPosition instrument
  scheduleActivationFeedback setup feedbackAt controlSequence activations

end Settlement

section Release
variable (setup : ScheduledSetup σ)

def isVolatilityInterruption : Option MarketSignal → Bool
  | some (.auctionCollecting auction) => auction.purpose = .known .volatilityInterruption
  | _ => false

def interruptMarketOrders (instrument : InstrumentId) (observation : BufferedObservation)
    (fingerprint : EventFingerprint) (controlSequence : U64) : Op σ Unit := do
  let feedback ← onSimulator
      (ScheduledDepthSimulator.cancelActiveMarketOrdersForVolatilityInterruption instrument)
  if feedback = [] then pure ()
  else scheduleFeedback setup observation.visibleAt feedback [] fingerprint.digest controlSequence

def publishTradingState (event : DomainEvent) (observation : BufferedObservation) : Op σ Unit := do
  let evidence ← lift
      ((VisibleTradingStateEvidence.new event.instrument event.matchTime observation.visibleAt
      observation.trading.matching observation.trading.newOrderEntry).mapError
        (.simulation ∘ .simulator))
  onSimulator (ScheduledDepthSimulator.publishVisibleTradingState evidence)

def updateMark (state : MarketState) (instrument : InstrumentId) : Op σ Unit :=
  match finalMark state setup.allowMidpointFallback with
  | none => pure ()
  | some mark => modify fun self =>
    { self with lastVisibleMarks := self.lastVisibleMarks.insert instrument mark }

/-- A payload that replaces the whole book. -/
def EventPayload.isFullBook : EventPayload → Bool
  | .quoteSnapshot _ | .bookSnapshot _ => true
  | .tradeBatch _ | .indicativeAuction _ | .marketStatus _ => false

/-- The book a released event publishes. -/
def publishedBook (event : DomainEvent) (state : MarketState) : Option CompleteBookSnapshot :=
  if EventPayload.isFullBook event.payload = true then state.book.known? else none

def publishBook (event : DomainEvent) (observation : BufferedObservation) :
    Option CompleteBookSnapshot → Op σ Unit
  | none => pure ()
  | some book => do
    let evidence ← lift
        ((VisibleBookEvidence.new event.instrument book event.matchTime observation.visibleAt
        observation.trading.matching observation.trading.newOrderEntry).mapError
          (.simulation ∘ .simulator))
    onSimulator (ScheduledDepthSimulator.publishVisibleBook evidence)

/-- The visible core must reach the very occurrence that was committed. -/
def checkOccurrence (occurrence : EventOccurrence) (observation : BufferedObservation) :
    Except MultiBacktestError Unit :=
  ensure (occurrence.runEventOrdinal = observation.runEventOrdinal ∧
    occurrence.eventFingerprint = observation.eventFingerprint ∧
    occurrence.instrumentStateVersion = observation.instrumentStateVersion)
      (.replay .occurrenceDiffers)

/-- Commits the observation to the visible core and publishes what it shows; returns the visible
states. -/
def revealObservation (event : DomainEvent) (observation : BufferedObservation)
    (controlSequence : U64) :
    Op σ (EventOccurrence × MarketState × Std.ExtTreeMap InstrumentId MarketState) := do
  let commit ← onVisibleCore (ReplayCore.applyOrdered setup.hash event)
  let occurrence := commit.occurrence
  lift (checkOccurrence occurrence observation)
  if isVolatilityInterruption observation.trading.marketSignal = true then
    interruptMarketOrders setup event.instrument observation occurrence.eventFingerprint
      controlSequence
  else pure ()
  publishTradingState event observation
  let self ← get
  let views := self.visibleCore.states
  let state ← lift (okOr .declaration views[event.instrument]?)
  updateMark setup state event.instrument
  publishBook event observation (publishedBook event state)
  return (occurrence, state, views)

def scheduleAllocation (event : DomainEvent) (state : MarketState) (visibleAt : MatchTime) :
    Op σ Unit := do
  let self ← get
  if (publishedBook event state).isSome ∧
    self.instrumentNeedsAllocation event.instrument visibleAt = true then
    let _ ← schedule visibleAt .fillAllocation (.allocateVisibleDepth event.instrument)
  else pure ()

def releaseObservation (observation : BufferedObservation) (controlSequence : U64) : Op σ Unit := do
  let event ← lift
      ((DomainEvent.fromCanonicalBytes observation.canonicalEvent).mapError (.replay ∘ .decoding))
  let (occurrence, state, views) ← revealObservation setup event observation controlSequence
  let sink ← callStrategy setup
      (.event ⟨occurrence, event, state, views, observation.trading, observation.visibleAt⟩)
  commitOutput setup sink (StrategyOutputSink.intoEventRecords occurrence) observation.visibleAt
    occurrence.eventFingerprint.digest controlSequence
  scheduleAllocation event state observation.visibleAt

end Release

section Controls
variable (setup : ScheduledSetup σ)

def expireOrder (orderId : OrderId) (time : MatchTime) (sequence : U64) : Op σ Unit := do
  let self ← get
  if self.orderCanExpire orderId = true then
    let feedback ← onSimulator (ScheduledDepthSimulator.expire orderId time)
    scheduleFeedback setup time [feedback] [] orderId.digest sequence
  else pure ()

def activateOrder (orderId : OrderId) (time : MatchTime) (sequence : U64) : Op σ Unit := do
  let self ← get
  if self.orderIsScheduled orderId = false then pure ()
  else
    let activation ← onSimulator (ScheduledDepthSimulator.activate setup.hash orderId sequence time)
    let after ← get
    let order ← lift (okOr .panicked (after.simulator.orders.find? fun order => order.id = orderId))
    settleActivations setup order.request.intent.instrument self.simulator.fills.length
      [activation] time sequence

def allocateVisibleDepth (instrument : InstrumentId) (time : MatchTime) (sequence : U64) :
    Op σ Unit := do
  let self ← get
  let results ← onSimulator
      (ScheduledDepthSimulator.evaluateActive setup.hash instrument sequence time)
  settleActivations setup instrument self.simulator.fills.length results time sequence

/-- Auction fills are booked at the match time; the strategy hears of them when the event becomes
visible. -/
def allocateAuctionMatch (evidence : AuctionMatchEvidence) (sequence : U64) : Op σ Unit := do
  let self ← get
  let results ← onSimulator (ScheduledDepthSimulator.evaluateAuctionMatch setup.hash evidence)
  settleActivations setup evidence.instrument self.simulator.fills.length results
    evidence.visibleAt sequence

def timerControl (request : StrategyTimerRequest) (sequence : U64) : Op σ Unit := do
  let self ← get
  -- a timer set again under the same identity makes the earlier one void
  if self.timerGenerations[request.timerId]? ≠ some sequence then pure () else
    fireTimer setup request sequence

def processControl (control : BacktestControl) : Op σ Unit :=
  match control.payload with
  | .releaseObservation observation => releaseObservation setup observation control.sequence
  | .expire orderId => expireOrder setup orderId control.time control.sequence
  | .activate orderId => activateOrder setup orderId control.time control.sequence
  | .allocateVisibleDepth instrument =>
    allocateVisibleDepth setup instrument control.time control.sequence
  | .allocateAuctionMatch evidence => allocateAuctionMatch setup evidence control.sequence
  | .strategyTimer request => timerControl setup request control.sequence
  | .deliverFeedback feedback executionFills originIdentity =>
    deliverFeedback setup control.time control.sequence originIdentity feedback executionFills

end Controls

section Commit
variable (setup : ScheduledSetup σ)

/-- The auction match of a committed event, when it is one and an order waits for it. -/
def scheduleAuctionMatch (event : DomainEvent) (occurrence : EventOccurrence)
    (trading : TradingContext) (visibleAt : MatchTime) : Op σ Unit :=
  if trading.matching = .enabled .callAuction then do
    match ← lift ((auctionClearingPrice event).mapError .simulation) with
    | none => pure ()
    | some clearingPrice =>
      let evidence ← lift
          ((AuctionMatchEvidence.new event.instrument clearingPrice event.matchTime visibleAt
          occurrence.runEventOrdinal trading.matching).mapError (.simulation ∘ .simulator))
      let self ← get
      if self.instrumentNeedsAuctionMatch evidence.instrument event.matchTime = true then
        let _ ← schedule event.matchTime .fillAllocation (.allocateAuctionMatch evidence)
      else pure ()
  else pure ()

def bufferCommitted (core : ReplayCore) (event : DomainEvent) (occurrence : EventOccurrence) :
    Op σ Unit := do
  let segment ← lift
      (okOr (.schedule .eventOutside) (setup.schedule.segmentFor event.instrument event.matchTime))
  let state ← lift (okOr .declaration core.states[event.instrument]?)
  let trading ← lift
      ((MarketTradingContextEvaluator.evaluate event occurrence state segment).mapError .context)
  let visibleAt ← lift
      ((addMilliseconds event.matchTime setup.marketDataLatencyMs).mapError fun _ => .sequence)
  scheduleAuctionMatch event occurrence trading visibleAt
  let canonicalEvent ← lift (event.toCanonicalBytes.mapError (.replay ∘ .encoding))
  let _ ← schedule visibleAt .releaseObservation (.releaseObservation {
    canonicalEvent := canonicalEvent
    runEventOrdinal := occurrence.runEventOrdinal
    eventFingerprint := occurrence.eventFingerprint
    instrumentStateVersion := occurrence.instrumentStateVersion
    trading := trading
    visibleAt := visibleAt })

end Commit

end ScheduledCoordinator

end Osmium
