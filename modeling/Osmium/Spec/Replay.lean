import Osmium.Lib.Stateful
import Osmium.Spec.Reducer

/-! The replay engine: the total order of events, the core that applies ordered events to the states
of a universe, and the checksum of what was applied. -/

namespace Osmium
open Machine Bytes Codec Result Stateful

inductive OrderingError
  | canonicalEncoding (error : CanonicalEncodingError)
  | invalidTwseRealtimeShape
  | invalidTpexRealtimeShape
  | eventFingerprintCollision
deriving DecidableEq

/-- Fully materialized deterministic event ordering key, compared field by field. -/
@[ext] structure OrderingKey where
  matchTime : MatchTime
  marketRank : UInt8
  symbol : Symbol
  sourceFormat : SourceFormatId
  sourcePhaseRank : UInt8
  eventKindRank : UInt8
  sourceSequence : Option U64
  eventFingerprint : EventFingerprint
deriving DecidableEq

namespace OrderingKey

instance : Ord OrderingKey :=
  ⟨compareLex (compareOn matchTime) <| compareLex (compareOn marketRank) <|
    compareLex (compareOn symbol) <|
    compareLex (compareOn sourceFormat) <| compareLex (compareOn sourcePhaseRank) <|
      compareLex (compareOn eventKindRank) <|
    compareLex (compareOn sourceSequence) (compareOn eventFingerprint)⟩

instance : Std.TransOrd OrderingKey :=
  inferInstanceAs
    (Std.TransCmp (compareLex (compareOn matchTime) <| compareLex (compareOn marketRank) <|
    compareLex (compareOn symbol) <| compareLex (compareOn sourceFormat) <|
      compareLex (compareOn sourcePhaseRank) <|
    compareLex (compareOn eventKindRank) <|
      compareLex (compareOn sourceSequence) (compareOn eventFingerprint)))

instance : Std.LawfulEqOrd OrderingKey where
  eq_of_compare {a b} h := by
    simp only [compare, compareLex_eq_eq, compareOn] at h
    obtain ⟨h₁, h₂, h₃, h₄, h₅, h₆, h₇, h₈⟩ := h
    exact OrderingKey.ext (Std.LawfulEqOrd.eq_of_compare h₁) (Std.LawfulEqOrd.eq_of_compare h₂)
      (Std.LawfulEqOrd.eq_of_compare h₃) (Std.LawfulEqOrd.eq_of_compare h₄)
        (Std.LawfulEqOrd.eq_of_compare h₅)
      (Std.LawfulEqOrd.eq_of_compare h₆) (Std.LawfulEqOrd.eq_of_compare h₇)
        (Std.LawfulEqOrd.eq_of_compare h₈)

instance : LinearOrder OrderingKey := Order.linearOrderOfOrd OrderingKey

/-- The rank of a payload among the events of one match time, zero outside the realtime stock
format. -/
def sourcePhaseRank? (event : DomainEvent) : Except OrderingError UInt8 :=
  let ranked (invalidShape : OrderingError) : Except OrderingError UInt8 :=
    if event.sourceFormat ≠ stockRealtime then .ok 0
    else match event.payload with
      | .quoteSnapshot _ | .marketStatus _ => .ok 20
      | .tradeBatch batch =>
        if batch.trades ≠ [] ∧
          batch.trades.all (fun trade => trade.observationKind = .intermediate) = true then .ok 10
        else .error invalidShape
      | .indicativeAuction auction => .ok (if auction.book.asSet.isSome then 20 else 10)
      | .bookSnapshot _ => .error invalidShape
  match event.instrument.market with
  | .twse => ranked .invalidTwseRealtimeShape
  | .tpex => ranked .invalidTpexRealtimeShape
  | .taifex => .ok 0

def forEventAndCanonical (hash : List UInt8 → Digest) (event : DomainEvent) :
    Except OrderingError (OrderingKey × List UInt8) := do
  let canonical ← event.toCanonicalBytes.mapError .canonicalEncoding
  let sourcePhaseRank ← sourcePhaseRank? event
  return ({
    matchTime := event.matchTime
    marketRank := event.instrument.market.discriminant
    symbol := event.instrument.symbol
    sourceFormat := event.sourceFormat
    sourcePhaseRank := sourcePhaseRank
    eventKindRank := event.payload.discriminant
    sourceSequence := event.sourceSequence
    eventFingerprint := ⟨hash canonical⟩ }, canonical)

def forEvent (hash : List UInt8 → Digest) (event : DomainEvent) :
    Except OrderingError OrderingKey := do
  return (← forEventAndCanonical hash event).1

end OrderingKey

section Checksum

def canonicalReplayEventStreamVersion : U16 := ⟨1, Unsigned.one_fits⟩

def orderingRuleVersion : U16 := ⟨4, by decide⟩

/-- What an incremental hasher was fed so far. -/
structure ReplayEventStreamHasher where
  preimage : List UInt8
  eventCount : U64
deriving DecidableEq

def ReplayEventStreamHasher.new : ReplayEventStreamHasher where
  preimage := [79, 83, 82, 83] ++ ofUnsigned 2 canonicalReplayEventStreamVersion ++
      ofUnsigned 2 eventSchemaVersion ++
    ofUnsigned 2 canonicalEventVersion ++ ofUnsigned 2 orderingRuleVersion
  eventCount := 0

structure PreparedChecksumRecord where
  canonical : List UInt8
  length : U32

def ReplayEventStreamHasher.prepareCanonical (canonical : List UInt8) :
    Except CanonicalEncodingError PreparedChecksumRecord := do
  return ⟨canonical, ← okOr .lengthOverflow (Unsigned.ofNat? 32 canonical.length)⟩

/-- The counter is a plain addition, which wraps. -/
def ReplayEventStreamHasher.appendPrepared (self : ReplayEventStreamHasher)
    (record : PreparedChecksumRecord) :
    ReplayEventStreamHasher where
  preimage := self.preimage ++ [1] ++ ofUnsigned 4 record.length ++ record.canonical
  eventCount := Unsigned.wrap 64 (self.eventCount.val + 1)

def ReplayEventStreamHasher.checksum (hash : List UInt8 → Digest)
    (self : ReplayEventStreamHasher) : Digest :=
  hash (self.preimage ++ [0] ++ ofUnsigned 8 self.eventCount)

end Checksum

/-- The reducer context of the half-open time range of one session window. -/
structure ReplayContextWindow where
  start : MatchTime
  endExclusive : MatchTime
  context : ReducerContext
  positive : start < endExclusive
deriving DecidableEq

inductive ReplayClock
  | unstarted
  | running (matchTime : MatchTime) (eventOrdinal : U64)
deriving DecidableEq

def ReplayClock.eventOrdinal : ReplayClock → U64
  | .unstarted => 0
  | .running _ eventOrdinal => eventOrdinal

def ReplayClock.matchTime : ReplayClock → Option MatchTime
  | .unstarted => none
  | .running matchTime _ => some matchTime

@[ext] structure EventOccurrence where
  runEventOrdinal : U64
  orderingKey : OrderingKey
  eventFingerprint : EventFingerprint
  instrumentStateVersion : U64
deriving DecidableEq

structure CoreCommit where
  occurrence : EventOccurrence
  transition : TransitionReceipt
deriving DecidableEq

inductive ReplayError
  | emptyUniverse
  | duplicateInstrument
  | reducerConfigurationMismatch
  | invalidContextSchedule
  | eventOutsideContextSchedule (instrument : InstrumentId) (matchTime : MatchTime)
  | stateTradingDateMismatch
  | replayAlreadyStarted
  | instrumentOutsideUniverse
  | ordering (error : OrderingError)
  | canonicalEncoding (error : CanonicalEncodingError)
  | globalOrderingRegression
  | eventFingerprintCollision
  | eventOrdinalOverflow
  | stateTransition (error : StateTransitionError)
  | finalStateEncoding (error : FinalStateEncodingError)
  | planOutsideUniverse
  | planTradingDateMismatch
  | streamOpen (message : Text)
  | streamFailed (message : Text)
deriving DecidableEq

/-- Ordered events, atomic state transitions, a logical clock and checksums. -/
@[ext] structure ReplayCore where
  states : Std.ExtTreeMap InstrumentId MarketState
  reducers : Std.ExtTreeMap InstrumentId MarketStateReducer
  reducerContexts : Std.ExtTreeMap InstrumentId ReducerContext
  reducerContextWindows : Std.ExtTreeMap InstrumentId (List ReplayContextWindow)
  clock : ReplayClock
  lastOrderingKey : Option OrderingKey
  lastCanonicalEvent : Option (List UInt8)
  eventStream : ReplayEventStreamHasher
  firstMatchTime : Option MatchTime

namespace ReplayCore

section Construction

def indexStates : List MarketState → Std.ExtTreeMap InstrumentId MarketState →
    Except ReplayError (Std.ExtTreeMap InstrumentId MarketState)
  | [], byInstrument => .ok byInstrument
  | state :: rest, byInstrument => do
    ensure (state.instrument ∉ byInstrument) .duplicateInstrument
    indexStates rest (byInstrument.insert state.instrument state)

def windowBefore (a b : ReplayContextWindow) : Prop := a.start ≤ b.start

instance (a b : ReplayContextWindow) : Decidable (windowBefore a b) :=
  inferInstanceAs (Decidable (_ ≤ _))

def indexSchedules (states : Std.ExtTreeMap InstrumentId MarketState)
    (reducers : Std.ExtTreeMap InstrumentId MarketStateReducer)
    (contexts : Std.ExtTreeMap InstrumentId ReducerContext) :
    List (InstrumentId × List ReplayContextWindow) →
    Std.ExtTreeMap InstrumentId (List ReplayContextWindow) →
    Except ReplayError (Std.ExtTreeMap InstrumentId (List ReplayContextWindow))
  | [], indexed => .ok indexed
  | (instrument, windows) :: rest, indexed => do
    ensure (instrument ∈ states ∧ instrument ∈ reducers ∧ instrument ∈ contexts)
      .reducerConfigurationMismatch
    let windows := windows.insertionSort windowBefore
    ensure (anyAdjacent (fun a b => b.start < a.endExclusive) windows = false)
      .invalidContextSchedule
    ensure (instrument ∉ indexed) .invalidContextSchedule
    indexSchedules states reducers contexts rest (indexed.insert instrument windows)

def newMultiWithSchedules (states : List MarketState)
    (reducers : List (InstrumentId × MarketStateReducer))
    (reducerContexts : List (InstrumentId × ReducerContext))
    (schedules : List (InstrumentId × List ReplayContextWindow)) :
    Except ReplayError ReplayCore := do
  ensure (states ≠ []) .emptyUniverse
  let byInstrument ← indexStates states ∅
  let reducerMap := Std.ExtTreeMap.ofList reducers
  let contextMap := Std.ExtTreeMap.ofList reducerContexts
  ensure (reducerMap.size = byInstrument.size ∧ reducers.length = reducerMap.size ∧
    contextMap.size = byInstrument.size ∧ reducerContexts.length = contextMap.size ∧
    ∀ instrument ∈ byInstrument.keys, instrument ∈ reducerMap ∧ instrument ∈ contextMap)
      .reducerConfigurationMismatch
  ensure (∀ entry ∈ byInstrument.toList, contextMap[entry.1]?.map ReducerContext.tradingDate =
    some entry.2.tradingDate)
    .stateTradingDateMismatch
  let windows ← indexSchedules byInstrument reducerMap contextMap schedules ∅
  return {
    states := byInstrument
    reducers := reducerMap
    reducerContexts := contextMap
    reducerContextWindows := windows
    clock := .unstarted
    lastOrderingKey := none
    lastCanonicalEvent := none
    eventStream := .new
    firstMatchTime := none }

/-- A second core with the same configuration, as long as nothing was replayed. -/
def forkUnstarted (self : ReplayCore) : Except ReplayError ReplayCore := do
  ensure (self.clock = .unstarted) .replayAlreadyStarted
  newMultiWithSchedules self.states.values self.reducers.toList self.reducerContexts.toList
    self.reducerContextWindows.toList

end Construction

section Application
variable (hash : List UInt8 → Digest)

def validateGlobalOrder (self : ReplayCore) (current : OrderingKey) (canonical : List UInt8) :
    Except ReplayError Unit :=
  match self.lastOrderingKey with
  | none => .ok ()
  | some previous =>
    match compare current previous with
    | .lt => .error .globalOrderingRegression
    | .eq => ensure (self.lastCanonicalEvent = some canonical) .eventFingerprintCollision
    | .gt => .ok ()

/-- With windows configured, an event outside all of them has no context. -/
def contextForEvent (self : ReplayCore) (instrument : InstrumentId) (matchTime : MatchTime) :
    Option ReducerContext :=
  match self.reducerContextWindows[instrument]? with
  | some windows =>
    (windows.find? fun window => window.start ≤ matchTime && matchTime < window.endExclusive).map
      ReplayContextWindow.context
  | none => self.reducerContexts[instrument]?

/-- The state an event is applied to: a new one when the event opens another trading date. -/
def stateFor (state : MarketState) (event : DomainEvent) : MarketState :=
  if state.tradingDate = event.tradingDate then state else
    MarketState.new event.instrument event.tradingDate

def transition (self : ReplayCore) (event : DomainEvent) :
    Except ReplayError (MarketState × TransitionReceipt) := do
  let state ← okOr .instrumentOutsideUniverse self.states[event.instrument]?
  let context ← okOr (.eventOutsideContextSchedule event.instrument event.matchTime)
    (self.contextForEvent event.instrument event.matchTime)
  let reducer ← okOr .reducerConfigurationMismatch self.reducers[event.instrument]?
  let state := stateFor state event
  let proposal ← (reducer.propose hash state event context).mapError .stateTransition
  (MarketStateReducer.commit state proposal).mapError .stateTransition

/-- The ordinal an event would get, and the state and receipt it would leave. -/
def checkOrdered (self : ReplayCore) (event : DomainEvent) (orderingKey : OrderingKey)
    (canonical : List UInt8) :
    Except ReplayError (PreparedChecksumRecord × U64 × MarketState × TransitionReceipt) := do
  let prepared ← (ReplayEventStreamHasher.prepareCanonical canonical).mapError .canonicalEncoding
  self.validateGlobalOrder orderingKey prepared.canonical
  ensure (event.instrument ∈ self.states) .instrumentOutsideUniverse
  let nextOrdinal ← okOr .eventOrdinalOverflow
      (self.clock.eventOrdinal.checkedAdd (Unsigned.wrap 64 1))
  let (state, receipt) ← self.transition hash event
  return (prepared, nextOrdinal, state, receipt)

def applyPreparedOrdered (event : DomainEvent) (orderingKey : OrderingKey)
    (canonical : List UInt8) :
    EStateM ReplayError ReplayCore CoreCommit := do
  let self ← get
  let (prepared, nextOrdinal, state, receipt) ← lift
      (self.checkOrdered hash event orderingKey canonical)
  set { self with
    states := self.states.insert event.instrument state
    eventStream := self.eventStream.appendPrepared prepared
    clock := .running event.matchTime nextOrdinal
    firstMatchTime := self.firstMatchTime.or (some event.matchTime)
    lastOrderingKey := some orderingKey
    lastCanonicalEvent := some prepared.canonical }
  return {
    occurrence := {
      runEventOrdinal := nextOrdinal
      orderingKey := orderingKey
      eventFingerprint := orderingKey.eventFingerprint
      instrumentStateVersion := receipt.newVersion }
    transition := receipt }

def applyOrdered (event : DomainEvent) : EStateM ReplayError ReplayCore CoreCommit := do
  let (orderingKey, canonical) ← lift
      ((OrderingKey.forEventAndCanonical hash event).mapError .ordering)
  applyPreparedOrdered hash event orderingKey canonical

end Application

end ReplayCore

structure ReplaySummary where
  eventCount : U64
  firstMatchTime : Option MatchTime
  lastMatchTime : Option MatchTime
  eventChecksum : Digest
  finalStateChecksum : Digest
deriving DecidableEq

structure CompletedReplay where
  states : Std.ExtTreeMap InstrumentId MarketState
  summary : ReplaySummary

def ReplayCore.complete (hash : List UInt8 → Digest) (self : ReplayCore) :
    Except ReplayError CompletedReplay := do
  let eventChecksum := self.eventStream.checksum hash
  let finalStates ← (canonicalFinalStateSet self.states.values).mapError .finalStateEncoding
  return {
    states := self.states
    summary := {
      eventCount := self.eventStream.eventCount
      firstMatchTime := self.firstMatchTime
      lastMatchTime := self.clock.matchTime
      eventChecksum := eventChecksum
      finalStateChecksum := hash finalStates } }

end Osmium
