import Osmium.Spec.Coordinator
import Osmium.Spec.Streams

/-! The scheduled backtest: commits of the merged streams interleaved with the controls that fall
due between them. The loops over controls can go on for ever, so that they are bounded by fuel; a
run is any amount of it. -/

namespace Osmium
open Machine Bytes Result Stateful

/-- A control at the moment it is processed, with the controls popped with it that still wait, the
coordinator before it, and the number of commits before it. -/
structure ControlStep (σ : Type) where
  control : BacktestControl
  waiting : List BacktestControl
  before : ScheduledCoordinator σ
  commits : ℕ

/-- `committed` and `trace` are not in the source: they keep the commits and the controls of the
run. -/
structure RunState (σ : Type) where
  core : ReplayCore
  coordinator : ScheduledCoordinator σ
  committed : List DomainEvent
  trace : List (ControlStep σ)

namespace RunState
variable {σ α : Type}

abbrev Op (σ α : Type) := EStateM MultiBacktestError (RunState σ) α

def onCore (op : EStateM ReplayError ReplayCore α) : Op σ α :=
  zoom core (fun self core => { self with core := core }) (.replay ∘ .core) op

def onCoordinator (op : ScheduledCoordinator.Op σ α) : Op σ α :=
  zoom coordinator (fun self coordinator => { self with coordinator := coordinator }) id op

def setControls (controls : ControlTimeQueue ScheduledBacktestControl) : Op σ Unit :=
  modify fun self => { self with coordinator := { self.coordinator with controls := controls } }

section Loops
variable (setup : ScheduledSetup σ)

def processOne (control : BacktestControl) (waiting : List BacktestControl) : Op σ Unit := do
  modify fun self =>
    { self with trace :=
      self.trace ++ [ControlStep.mk control waiting self.coordinator self.committed.length] }
  onCoordinator (ScheduledCoordinator.processControl setup control)

def processBatch : List BacktestControl → Op σ Unit
  | [] => pure ()
  | control :: waiting => do
    processOne setup control waiting
    processBatch waiting

/-- Pops every control before the boundary at once, processes them, and looks again. -/
def processBefore (boundary : MatchTime) : ℕ → Op σ Unit
  | 0 => throw .outOfFuel
  | fuel + 1 => do
    let self ← get
    let controls := self.coordinator.controls
    if controls.nextTime.any (fun time => time < boundary) = true then
      setControls (controls.popBefore boundary).2
      processBatch setup (controls.popBefore boundary).1
      processBefore boundary fuel
    else pure ()

def processAt (time : MatchTime) : ℕ → Op σ Unit
  | 0 => throw .outOfFuel
  | fuel + 1 => do
    let self ← get
    let controls := self.coordinator.controls
    if controls.nextTime = some time then
      setControls (controls.popAt time).2
      processBatch setup (controls.popAt time).1
      processAt time fuel
    else pure ()

def drain (fuel : ℕ) : ℕ → Op σ Unit
  | 0 => throw .outOfFuel
  | rounds + 1 => do
    let self ← get
    match self.coordinator.controls.nextTime with
    | none => pure ()
    | some time => do
      processAt setup time fuel
      drain fuel rounds

def commitEvent (event : DomainEvent) : Op σ CoreCommit := do
  let commit ← onCore (ReplayCore.applyOrdered setup.hash event)
  modify fun self => { self with committed := self.committed ++ [event] }
  return commit

/-- One event of the merge: the controls due before it, its commit, and the controls due at it. -/
def runEvent (fuel : ℕ) (prepared : PreparedOrderEvent) : Op σ Unit := do
  processBefore setup prepared.event.matchTime fuel
  let commit ← commitEvent setup prepared.event
  let self ← get
  onCoordinator
    (ScheduledCoordinator.bufferCommitted setup self.core prepared.event commit.occurrence)
  processAt setup commit.occurrence.orderingKey.matchTime fuel

def raiseHead : HeadFault → MultiBacktestError
  | .stream message => .replay (.streamFailed message)
  | .ordering error => .replay (.ordering error)

def runLoop (fuel : ℕ) (streams : List EventStream) : Op σ Unit := do
  mergeStreams setup.hash (runEvent setup fuel) raiseHead streams
  drain setup fuel fuel

end Loops

end RunState

/-- What a run starts from. -/
structure ScheduledInputs (σ : Type) where
  core : ReplayCore
  strategy : σ
  plan : ReplayPlan
  factory : ReplayStreamFactory
  simulator : ScheduledDepthSimulator
  ledger : MultiLedger

structure CompletedScheduledMultiBacktest where
  replay : CompletedReplay
  strategyOutput : StrategyOutput
  simulator : ScheduledDepthSimulator
  ledger : MultiLedger
  performance : MultiPerformanceSummary

section Run
variable {σ : Type} (setup : ScheduledSetup σ) (inputs : ScheduledInputs σ)

/-- The universe and the sessions of the strategy, the schedule and the ledger must be those of the
core. -/
def checkUniverse (schedule : MultiSessionSchedule) (core : ReplayCore) (ledger : MultiLedger)
    (declaration : StrategyDeclaration) : Except MultiBacktestError Unit := do
  let coreInstruments := core.states.values.map MarketState.instrument
  ensure (declaration.universeInstruments = coreInstruments) (.schedule .strategyUniverse)
  ensure (schedule.instruments = coreInstruments) (.schedule .scheduleUniverse)
  ensure (ledger.ledgers.keys = coreInstruments) (.schedule .ledgerUniverse)
  ensure (declaration.sessions = schedule.sessions) (.schedule .sessions)

/-- A stream is opened when its date is that of the state or a date of the session schedule. -/
def openScheduledStreams (schedule : MultiSessionSchedule) (core : ReplayCore)
    (factory : ReplayStreamFactory) :
    List ReplayStreamBinding → Except MultiBacktestError (List EventStream)
  | [] => .ok []
  | binding :: rest => do
    let state ← okOr .declaration core.states[binding.instrument]?
    ensure (state.tradingDate = binding.tradingDate ∨
      schedule.segmentsOf[binding.instrument]?.any (fun segments =>
      segments.any fun segment => segment.tradingDate = binding.tradingDate) = true)
        (.schedule .bindingDate)
    let stream ← (factory binding).mapError (.replay ∘ .streamFailed)
    return stream :: (← openScheduledStreams schedule core factory rest)

def openPositionsOf (ledger : MultiLedger) : Std.ExtTreeSet InstrumentId :=
  .ofList ((ledger.ledgers.toList.filter fun entry => entry.2.ledger.position.val ≠ 0).map Prod.fst)

def startRun : Except MultiBacktestError (RunState σ × List EventStream) := do
  let declaration := setup.strategy.declaration inputs.strategy
  checkUniverse setup.schedule inputs.core inputs.ledger declaration
  let strategy ← (setup.strategy.onInitialize declaration inputs.strategy).mapError
      (.strategy ∘ .execution)
  let streams ← openScheduledStreams setup.schedule inputs.core inputs.factory inputs.plan.bindings
  let visibleCore ← inputs.core.forkUnstarted.mapError (.replay ∘ .core)
  return ({
    core := inputs.core
    coordinator := {
      strategy := strategy
      simulator := inputs.simulator
      ledger := inputs.ledger
      output :=
        .new (setup.strategy.identity strategy) (setup.strategy.canonicalParamsChecksum strategy)
      controls := .new
      timerGenerations := ∅
      visibleCore := visibleCore
      lastVisibleMarks := ∅
      openPositions := openPositionsOf inputs.ledger
      callbacks := [] }
    committed := []
    trace := [] }, streams)

def finalMarks (states : List MarketState) (allowMidpointFallback : Bool) :
    Std.ExtTreeMap InstrumentId (Option Decimal) :=
  .ofList (states.map fun state => (state.instrument, finalMark state allowMidpointFallback))

def finishRun (self : RunState σ) : Except MultiBacktestError CompletedScheduledMultiBacktest := do
  let coordinator := self.coordinator
  let states := self.core.states.values
  let marks := finalMarks states setup.allowMidpointFallback
  let (sink, _) ←
      (setup.strategy.onFinalize ⟨self.core.clock, states⟩ .new coordinator.strategy).mapError
    (.strategy ∘ .execution)
  let records ← sink.intoFinalizeRecords.mapError (.strategy ∘ .output)
  coordinator.ledger.reconcile.mapError (.accounting ∘ .ledger)
  let performance ← (coordinator.ledger.performance marks).mapError (.accounting ∘ .ledger)
  let replay ← (self.core.complete setup.hash).mapError (.replay ∘ .core)
  return {
    replay := replay
    strategyOutput := coordinator.output.extend records
    simulator := coordinator.simulator
    ledger := coordinator.ledger
    performance := performance }

def runScheduledMultiBacktest (fuel : ℕ) :
    Except MultiBacktestError CompletedScheduledMultiBacktest := do
  let (start, streams) ← startRun setup inputs
  let ((), finish) ← runOn (RunState.runLoop setup fuel streams) start
  finishRun setup finish

/-- A run as far as its loops: how it ended, and the state it was left in. -/
def RunOf (fuel : ℕ) (result : EStateM.Result MultiBacktestError (RunState σ) Unit) : Prop :=
  ∃ start streams, startRun setup inputs = .ok (start, streams) ∧
  RunState.runLoop setup fuel streams start = result

end Run

end Osmium
