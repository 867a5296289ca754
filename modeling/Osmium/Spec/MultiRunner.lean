import Osmium.Spec.Runner

/-! The subsequent-event backtest: a callback on the frozen replay runs the strategy, the simulators
and the ledger at every commit. Unlike the scheduled backtest it shows each event to the strategy at
once. -/

namespace Osmium
open Machine Bytes Result Stateful

/-- The event the runner is at: its window of the schedule and its trading context. -/
structure EventInfo where
  event : DomainEvent
  occurrence : EventOccurrence
  window : SessionSegment
  trading : TradingContext

inductive RunnerCall
  | submit (strategyId : Text) (occurrence : EventOccurrence) (trading : TradingContext)
      (outputSequence : U32)
      (intent : OrderIntent)
  | evaluate (event : DomainEvent) (occurrence : EventOccurrence) (trading : TradingContext)
  | cancelSegmentEnd (instrument : InstrumentId) (segmentId : SessionSegmentId)
  | cancelEndOfRun (instrument : InstrumentId)

def RunnerCall.run (hash : List UInt8 → Digest) :
    RunnerCall → MultiSimulator.Op (List OrderFeedback)
  | .submit strategyId occurrence trading outputSequence intent => do
    let feedback ← MultiSimulator.submit hash strategyId occurrence trading outputSequence intent
    return [feedback]
  | .evaluate event occurrence trading => MultiSimulator.evaluate event occurrence trading
  | .cancelSegmentEnd instrument segmentId =>
    MultiSimulator.cancelSegmentEndFor instrument segmentId
  | .cancelEndOfRun instrument => MultiSimulator.cancelEndOfRunFor instrument

/-- One thing the runner does: it turns to an event, or calls a simulator at the event it is at.
After the last event there is none. -/
inductive LogEntry
  | began (info : EventInfo) (before : MultiSimulator)
  | called (info : Option EventInfo) (call : RunnerCall) (before : MultiSimulator)
      (feedback : List OrderFeedback)

/-- Feedback as `on_feedback` got it, with the intents it answered. -/
structure Delivery where
  feedback : List OrderFeedback
  intents : List OrderIntent

/-- `log` and `deliveries` are not in the source: they keep what the runner did. -/
structure MultiRunState (σ : Type) where
  strategy : σ
  simulator : MultiSimulator
  ledger : MultiLedger
  output : StrategyOutput
  currentSegments : Std.ExtTreeMap InstrumentId SessionSegmentId
  lastContexts : Std.ExtTreeMap InstrumentId (EventOccurrence × TradingContext)
  log : List LogEntry
  deliveries : List Delivery

/-- What stays fixed over a run. -/
structure MultiSetup (σ : Type) where
  hash : List UInt8 → Digest
  strategy : Strategy σ
  schedule : MultiSessionSchedule
  allowMidpointFallback : Bool

namespace MultiRunState
variable {σ α : Type}

abbrev Op (σ α : Type) := EStateM MultiBacktestError (MultiRunState σ) α

/-- A call of the simulators. A call that fails leaves its traces too. -/
def callSimulator (hash : List UInt8 → Digest) (info : Option EventInfo) (call : RunnerCall) :
    Op σ (List OrderFeedback) :=
  fun self =>
    match call.run hash self.simulator with
    | .ok feedback simulator =>
      .ok feedback { self with
        simulator := simulator, log := self.log ++ [.called info call self.simulator feedback] }
    | .error e simulator =>
      .error (.simulation (.subsequent e))
        { self with
          simulator := simulator, log := self.log ++ [.called info call self.simulator []] }

section Feedback
variable (setup : MultiSetup σ)

/-- Submits the intents of one callback, numbered from one. -/
def submitIntents (info : Option EventInfo) (occurrence : EventOccurrence)
    (trading : TradingContext) :
    List OrderIntent → ℕ → Op σ (List OrderFeedback)
  | [], _ => pure []
  | intent :: rest, index => do
    let self ← get
    let outputSequence ← lift (okOr .sequence (Unsigned.ofNat? 32 (index + 1)))
    let feedback ← callSimulator setup.hash info
      (.submit (setup.strategy.identity self.strategy).strategyId occurrence trading
        outputSequence intent)
    let others ← submitIntents info occurrence trading rest (index + 1)
    return feedback ++ others

def extendOutput (sink : StrategyOutputSink) (occurrence : EventOccurrence) : Op σ Unit := do
  let records ← lift ((sink.intoEventRecords occurrence).mapError (.strategy ∘ .output))
  modify fun self => { self with output := self.output.extend records }

/-- Hands feedback to the strategy and submits what it answers. The feedback of these submissions is
dropped. -/
def processMultiFeedback (info : Option EventInfo) (occurrence : EventOccurrence)
    (trading : TradingContext) (feedback : List OrderFeedback) (rejectIntents : Bool) : Op σ Unit :=
  if feedback = [] then pure ()
  else do
    let self ← get
    let (sink, strategy) ← lift
        ((setup.strategy.onFeedback ⟨feedback, []⟩ .withOrderIntents self.strategy).mapError
        (.strategy ∘ .execution))
    set { self with
        strategy := strategy, deliveries := self.deliveries ++ [Delivery.mk feedback sink.intents] }
    extendOutput { sink with intents := [] } occurrence
    lift (ensure (¬ (rejectIntents = true ∧ sink.intents ≠ [])) .intentAfterEnd)
    let _ ← submitIntents setup info occurrence trading sink.intents 0

end Feedback

section Event
variable (setup : MultiSetup σ)

def endSegment (info : EventInfo) : Option SessionSegmentId → Op σ Unit
  | none => pure ()
  | some previous =>
    if previous = info.window.id then pure ()
    else do
      let cancellations ← callSimulator setup.hash (some info)
          (.cancelSegmentEnd info.event.instrument previous)
      processMultiFeedback setup (some info) info.occurrence info.trading cancellations false

/-- Turns to the window of an event, and ends the one before it where the segment identity changes.
-/
def beginEvent (info : EventInfo) : Op σ Unit := do
  let self ← get
  set { self with
    currentSegments := self.currentSegments.insert info.event.instrument info.window.id
    log := self.log ++ [LogEntry.began info self.simulator] }
  endSegment setup info self.currentSegments[info.event.instrument]?

def onEvent (info : EventInfo) (state : MarketState)
    (states : Std.ExtTreeMap InstrumentId MarketState) :
    Op σ (List OrderFeedback) := do
  let self ← get
  let (sink, strategy) ← lift ((setup.strategy.onEvent
    ⟨info.occurrence, info.event, state, states, info.trading, info.event.matchTime⟩
      .withOrderIntents self.strategy).mapError
    (.strategy ∘ .execution))
  set { self with strategy := strategy }
  extendOutput { sink with intents := [] } info.occurrence
  submitIntents setup (some info) info.occurrence info.trading sink.intents 0

def applyFills (instrument : InstrumentId) : List FillRecord → Op σ Unit
  | [] => pure ()
  | fill :: rest => do
    zoom ledger (fun self ledger => { self with ledger := ledger }) (.accounting ∘ .ledger)
      (MultiLedger.applyFill instrument fill)
    applyFills instrument rest

/-- Matches the orders against the event and books what was filled. -/
def matchEvent (info : EventInfo) : Op σ (List OrderFeedback) := do
  let self ← get
  let previousFillCount := ((self.simulator.fillsFor info.event.instrument).map List.length).getD 0
  let feedback ← callSimulator setup.hash (some info)
      (.evaluate info.event info.occurrence info.trading)
  let self ← get
  let fills ← lift
      (okOr (.schedule .simulatorInstrument) (self.simulator.fillsFor info.event.instrument))
  applyFills info.event.instrument (fills.drop previousFillCount)
  return feedback

def eventInfo (core : ReplayCore) (event : DomainEvent) (occurrence : EventOccurrence) :
    Except MultiBacktestError (EventInfo × MarketState) := do
  let window ← okOr (.schedule .eventOutside)
      (setup.schedule.segmentFor event.instrument event.matchTime)
  let state ← okOr (.schedule .eventState) core.states[event.instrument]?
  let trading ←
      (MarketTradingContextEvaluator.evaluate event occurrence state window).mapError .context
  return (⟨event, occurrence, window, trading⟩, state)

def processMultiEvent (core : ReplayCore) (event : DomainEvent) (commit : CoreCommit) :
    Op σ Unit := do
  let (info, state) ← lift (eventInfo setup core event commit.occurrence)
  beginEvent setup info
  let submitted ← onEvent setup info state core.states
  let matched ← matchEvent setup info
  processMultiFeedback setup (some info) info.occurrence info.trading (submitted ++ matched) false
  modify fun self =>
    { self with
      lastContexts := self.lastContexts.insert event.instrument (info.occurrence, info.trading) }

/-- The callback of the frozen replay. It leaves the core as it is. -/
def processCommit : ReplayCallback MultiBacktestError (MultiRunState σ) := fun event commit self =>
  zoom Prod.snd (fun whole state => (whole.1, state)) id
    (processMultiEvent setup self.1 event commit) self

end Event

section Ending
variable (setup : MultiSetup σ)

def deliverCancellations (instrument : InstrumentId) (cancellations : List OrderFeedback) :
    Op σ Unit :=
  if cancellations = [] then pure ()
  else do
    let self ← get
    let (occurrence, trading) ← lift (okOr .sequence self.lastContexts[instrument]?)
    processMultiFeedback setup none occurrence trading cancellations true

def endSegments : List (InstrumentId × SessionSegmentId) → Op σ Unit
  | [] => pure ()
  | (instrument, segmentId) :: rest => do
    let cancellations ← callSimulator setup.hash none (.cancelSegmentEnd instrument segmentId)
    deliverCancellations setup instrument cancellations
    endSegments rest

def endInstruments : List InstrumentId → Op σ Unit
  | [] => pure ()
  | instrument :: rest => do
    let cancellations ← callSimulator setup.hash none (.cancelEndOfRun instrument)
    deliverCancellations setup instrument cancellations
    endInstruments rest

def endRun (instruments : List InstrumentId) : Op σ Unit := do
  let self ← get
  endSegments setup self.currentSegments.toList
  endInstruments setup instruments

end Ending

end MultiRunState

/-- What a run starts from. -/
structure MultiInputs (σ : Type) where
  core : ReplayCore
  strategy : σ
  plan : ReplayPlan
  factory : ReplayStreamFactory
  simulator : MultiSimulator
  ledger : MultiLedger

structure CompletedMultiBacktest where
  replay : CompletedReplay
  strategyOutput : StrategyOutput
  simulator : MultiSimulator
  ledger : MultiLedger
  performance : MultiPerformanceSummary

/-- An error of the replay, which an error of the callback becomes too, or one of the runner itself.
-/
inductive MultiRunError
  | replay (error : FrozenReplayError MultiBacktestError)
  | failed (error : MultiBacktestError)
deriving DecidableEq

section MultiRun
variable {σ : Type} (setup : MultiSetup σ) (inputs : MultiInputs σ)

def coreInstruments (core : ReplayCore) : List InstrumentId :=
  core.states.values.map MarketState.instrument

def checkMultiUniverse : Except MultiBacktestError Unit := do
  let declaration := setup.strategy.declaration inputs.strategy
  let instruments := coreInstruments inputs.core
  ensure (declaration.universeInstruments = instruments) (.schedule .strategyUniverse)
  ensure (setup.schedule.instruments = instruments) (.schedule .scheduleUniverse)
  ensure (inputs.simulator.simulators.keys = instruments) (.schedule .simulatorUniverse)
  ensure (inputs.ledger.ledgers.keys = instruments) (.schedule .ledgerUniverse)
  ensure (declaration.sessions = setup.schedule.sessions) (.schedule .sessions)

def startMulti : Except MultiBacktestError (MultiRunState σ) := do
  checkMultiUniverse setup inputs
  let declaration := setup.strategy.declaration inputs.strategy
  let strategy ← (setup.strategy.onInitialize declaration inputs.strategy).mapError
      (.strategy ∘ .execution)
  return {
    strategy := strategy
    simulator := inputs.simulator
    ledger := inputs.ledger
    output :=
      .new (setup.strategy.identity strategy) (setup.strategy.canonicalParamsChecksum strategy)
    currentSegments := ∅
    lastContexts := ∅
    log := []
    deliveries := [] }

/-- The replay with its callbacks, and the cancellations after it. -/
def multiLoop : EStateM MultiRunError (ReplayCore × MultiRunState σ) Unit := do
  zoom id (fun _ self => self) .replay
    (ReplayCore.replayFrozenMultiWith setup.hash inputs.plan inputs.factory
      (MultiRunState.processCommit setup))
  zoom Prod.snd (fun whole state => (whole.1, state)) .failed
    (MultiRunState.endRun setup (coreInstruments inputs.core))

def finishMulti (core : ReplayCore) (self : MultiRunState σ) :
    Except MultiBacktestError CompletedMultiBacktest := do
  let states := core.states.values
  let marks := finalMarks states setup.allowMidpointFallback
  let (sink, _) ← (setup.strategy.onFinalize ⟨core.clock, states⟩ .new self.strategy).mapError
      (.strategy ∘ .execution)
  let records ← sink.intoFinalizeRecords.mapError (.strategy ∘ .output)
  self.ledger.reconcile.mapError (.accounting ∘ .ledger)
  let performance ← (self.ledger.performance marks).mapError (.accounting ∘ .ledger)
  let replay ← (core.complete setup.hash).mapError (.replay ∘ .core)
  return {
    replay := replay
    strategyOutput := self.output.extend records
    simulator := self.simulator
    ledger := self.ledger
    performance := performance }

def runMultiBacktest : Except MultiRunError CompletedMultiBacktest := do
  let start ← (startMulti setup inputs).mapError .failed
  let ((), core, finish) ← runOn (multiLoop setup inputs) (inputs.core, start)
  (finishMulti setup core finish).mapError .failed

/-- A run as far as its loops: how it ended, and the state it was left in. -/
def MultiRunOf (result : EStateM.Result MultiRunError (ReplayCore × MultiRunState σ) Unit) : Prop :=
  ∃ start, startMulti setup inputs = .ok start ∧
  multiLoop setup inputs (inputs.core, start) = result

end MultiRun

section Plan

/-- What an execution plan says about one instrument on one trading date. -/
structure PlanPartition where
  instrument : InstrumentId
  tradingDate : TradingDate
  windows : List (SessionKind × MatchTime × MatchTime)

inductive CommandError
  | context (error : ContextError)
  | schedule (error : ScheduleError)
deriving DecidableEq

/-- regular -/
def regularName : Text := ⟨[114, 101, 103, 117, 108, 97, 114], Eq.refl true⟩

/-- after_hours -/
def afterHoursName : Text := ⟨[97, 102, 116, 101, 114, 95, 104, 111, 117, 114, 115], by decide⟩

def segmentIdOf : SessionKind → SessionSegmentId
  | .regular => ⟨regularName, by decide⟩
  | .afterHours => ⟨afterHoursName, by decide⟩

def planSegments (tradingDate : TradingDate) :
    List (SessionKind × MatchTime × MatchTime) → Except CommandError (List SessionSegment)
  | [] => .ok []
  | (kind, openTime, closeTime) :: rest => do
    let segment ← (SessionSegment.new
        (segmentIdOf kind) kind tradingDate openTime closeTime).mapError .context
    return segment :: (← planSegments tradingDate rest)

def planEntries : List PlanPartition → Std.ExtTreeMap InstrumentId (List SessionSegment) →
    Except CommandError (Std.ExtTreeMap InstrumentId (List SessionSegment))
  | [], entries => .ok entries
  | partition :: rest, entries => do
    let segments ← planSegments partition.tradingDate partition.windows
    planEntries rest
      (entries.insert partition.instrument ((entries[partition.instrument]?).getD [] ++ segments))

/-- The session schedule of an execution plan: one segment identity for each session kind, on all
dates. -/
def schedule (partitions : List PlanPartition) : Except CommandError MultiSessionSchedule := do
  let entries ← planEntries partitions ∅
  (MultiSessionSchedule.new entries.toList).mapError .schedule

end Plan

end Osmium
