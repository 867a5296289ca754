import Osmium.Spec.Strategy
import Osmium.Spec.Streams

/-! The run of one strategy over the events of one session. The events are put in order, each is
committed and then told to the strategy, and a failure reports how far the run had come. -/

namespace Osmium
open Machine Bytes Result Stateful

inductive StrategyRunErrorCategory
  | invalidParameters
  | declaration
  | initialization
  | callback
  | finalize
  | strategyPanic
  | capabilityUnavailable
  | replay
  | context
  | outputEncoding
deriving DecidableEq

/-- What the message of a failure tells. -/
inductive StrategyRunMessage
  /-- strategy declaration and replay universe differ -/
  | universeDiffers
  /-- strategy declaration does not include the replay session kind -/
  | sessionMissing
  | ordering (error : OrderingError)
  | replay (error : ReplayError)
  | context (error : ContextError)
  | execution (error : StrategyExecutionError)
  /-- strategy panicked -/
  | panicked
  | output (error : StrategyOutputEncodingError)
deriving DecidableEq

structure FailedOccurrence where
  runEventOrdinal : U64
  eventFingerprint : EventFingerprint
  instrumentStateVersion : U64
deriving DecidableEq

def FailedOccurrence.from (value : EventOccurrence) : FailedOccurrence :=
  ⟨value.runEventOrdinal, value.eventFingerprint, value.instrumentStateVersion⟩

structure FailedStrategyRun where
  category : StrategyRunErrorCategory
  message : StrategyRunMessage
  occurrence : Option FailedOccurrence
  processedEventCount : U64
  processedPrefixChecksum : Digest
  committedOutputCount : ℕ
deriving DecidableEq

structure CompletedStrategyRun where
  replay : CompletedReplay
  strategyOutput : StrategyOutput
  callbackCount : U64

/-- How a run ends without a result: a failure that it reports, or a panic of the runner itself. -/
inductive StrategyRunError
  | failed (failure : FailedStrategyRun)
  | panicked
deriving DecidableEq

/-- Which callbacks unwind instead of returning. -/
structure StrategyPanics (σ : Type) where
  onInitialize : StrategyDeclaration → σ → Bool
  onEvent : StrategyEventContext → σ → Bool
  onFinalize : StrategyFinalizeContext → σ → Bool

structure StrategyRunState (σ : Type) where
  core : ReplayCore
  strategy : σ
  output : StrategyOutput
  callbackCount : U64

def validateDeclaration (core : ReplayCore) (segment : SessionSegment)
    (declaration : StrategyDeclaration) :
    Except StrategyRunMessage Unit := do
  ensure (declaration.universeInstruments = core.states.values.map MarketState.instrument)
    .universeDiffers
  ensure (segment.kind ∈ declaration.sessions) .sessionMissing

/-- A callback, or what stands for its panic. -/
def invokeStrategy {α : Type} (category : StrategyRunErrorCategory) (panics : Bool)
    (callback : Except StrategyExecutionError α) :
    Except (StrategyRunErrorCategory × StrategyRunMessage) α :=
  if panics = true then .error (.strategyPanic, .panicked)
  else callback.mapError fun error =>
    (if error.capabilityUnavailable = true then .capabilityUnavailable else category,
      .execution error)

section Run
variable (hash : List UInt8 → Digest) {σ : Type} (strategy : Strategy σ) (panics : StrategyPanics σ)

namespace StrategyRunState

abbrev Op (σ α : Type) := EStateM StrategyRunError (StrategyRunState σ) α

def failure (category : StrategyRunErrorCategory) (message : StrategyRunMessage)
    (occurrence : Option EventOccurrence) (self : StrategyRunState σ) : FailedStrategyRun where
  category := category
  message := message
  occurrence := occurrence.map FailedOccurrence.from
  processedEventCount := self.core.clock.eventOrdinal
  processedPrefixChecksum := self.core.eventStream.checksum hash
  committedOutputCount := self.output.records.length

/-- Fails with what the run has come to. -/
def orFail {α : Type} (occurrence : Option EventOccurrence)
    (x : Except (StrategyRunErrorCategory × StrategyRunMessage) α) :
    Op σ α := fun self =>
  match x with
  | .ok a => .ok a self
  | .error e => .error (.failed (failure hash e.1 e.2 occurrence self)) self

/-- The core commits the event. A refused event leaves the core as it was. -/
def commitEvent (event : DomainEvent) : Op σ CoreCommit := do
  let self ← get
  match ReplayCore.applyOrdered hash event self.core with
  | .ok commit core =>
    set { self with core := core }
    return commit
  | .error error core =>
    set { self with core := core }
    orFail hash none (.error (.replay, .replay error))

/-- What the strategy is told of a committed event. -/
def eventContext (segment : SessionSegment) (event : DomainEvent) (occurrence : EventOccurrence) :
    Op σ StrategyEventContext := do
  let self ← get
  let state ← lift (okOr .panicked self.core.states[event.instrument]?)
  let trading ← orFail hash (some occurrence)
    ((MarketTradingContextEvaluator.evaluate event occurrence state segment).mapError fun error =>
      (.context, .context error))
  return ⟨occurrence, event, state, self.core.states, trading, event.matchTime⟩

/-- The strategy is told, and what it emits is kept as the output of this occurrence. -/
def runCallback (segment : SessionSegment) (event : DomainEvent) (occurrence : EventOccurrence) :
    Op σ Unit := do
  let context ← eventContext hash segment event occurrence
  let self ← get
  let answer ← orFail hash (some occurrence)
    (invokeStrategy .callback (panics.onEvent context self.strategy)
      (strategy.onEvent context .new self.strategy))
  modify fun self => { self with strategy := answer.2 }
  let records ← orFail hash (some occurrence)
    ((answer.1.intoEventRecords occurrence).mapError fun error => (.outputEncoding, .output error))
  modify fun self => { self with output := self.output.extend records }
  let callbackCount ← lift (okOr .panicked (self.callbackCount.checkedAdd (Unsigned.wrap 64 1)))
  modify fun self => { self with callbackCount := callbackCount }

def onEvent (segment : SessionSegment) (event : DomainEvent) : Op σ Unit := do
  let commit ← commitEvent hash event
  runCallback hash strategy panics segment event commit.occurrence

def onFinalize : Op σ Unit := do
  let self ← get
  let context : StrategyFinalizeContext := ⟨self.core.clock, self.core.states.values⟩
  let answer ← orFail hash none
    (invokeStrategy .finalize (panics.onFinalize context self.strategy)
      (strategy.onFinalize context .new self.strategy))
  modify fun self => { self with strategy := answer.2 }
  let records ← orFail hash none (answer.1.intoFinalizeRecords.mapError fun error =>
      (.outputEncoding, .output error))
  modify fun self => { self with output := self.output.extend records }

/-- The events in order, once the declaration has been checked and the strategy has been
initialized. -/
def prepare (segment : SessionSegment) (events : List DomainEvent) : Op σ (List DomainEvent) := do
  let self ← get
  let declaration := strategy.declaration self.strategy
  orFail hash none ((validateDeclaration self.core segment declaration).mapError fun message =>
    (.declaration, message))
  let ordered ← orFail hash none ((orderEvents hash events).mapError fun error =>
      (.replay, .ordering error))
  let initialized ← orFail hash none
    (invokeStrategy .initialization (panics.onInitialize declaration self.strategy)
      (strategy.onInitialize declaration self.strategy))
  modify fun self => { self with strategy := initialized }
  return ordered

/-- The result. This failure counts the callbacks. -/
def complete : Op σ CompletedStrategyRun := do
  let self ← get
  match self.core.complete hash with
  | .ok replay => return ⟨replay, self.output, self.callbackCount⟩
  | .error error => throw (.failed
      { failure hash .replay (.replay error) none self with
        processedEventCount := self.callbackCount })

end StrategyRunState

/-- What a run starts from. -/
def startStrategyRun (core : ReplayCore) (initial : σ) : StrategyRunState σ where
  core := core
  strategy := initial
  output := .new (strategy.identity initial) (strategy.canonicalParamsChecksum initial)
  callbackCount := 0

def runStrategy (core : ReplayCore) (initial : σ) (segment : SessionSegment)
    (events : List DomainEvent) :
    Except StrategyRunError CompletedStrategyRun :=
  (runOn (do
    let ordered ← StrategyRunState.prepare hash strategy panics segment events
    each (StrategyRunState.onEvent hash strategy panics segment) ordered
    StrategyRunState.onFinalize hash strategy panics
    StrategyRunState.complete hash) (startStrategyRun strategy core initial)).map Prod.fst

end Run

end Osmium
