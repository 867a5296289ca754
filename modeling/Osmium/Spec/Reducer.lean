import Osmium.Spec.MarketState

/-! The market-state reducer. `propose` computes the next state of an instrument from one event
without touching the current one; the profile of a market says which source formats and event kinds
it takes. -/

namespace Osmium
open Machine Bytes Result

inductive CumulativeVolumePolicy
  | unconstrained
  | nonDecreasingWithinSegment (unit : QuantityUnit)
deriving DecidableEq

inductive ProfileError
  | emptySourceRules
  | emptyEventKindSet
  | duplicateSourceFormat
  | zeroBoundaryPolicyVersion
  | marketMismatch
  | unsupportedSourceFormat
  | unsupportedEventKind
deriving DecidableEq

def kindBefore (a b : EventKind) : Prop := a.discriminant ≤ b.discriminant

instance (a b : EventKind) : Decidable (kindBefore a b) := inferInstanceAs (Decidable (_ ≤ _))

structure SourceFormatRule where
  sourceFormat : SourceFormatId
  acceptedEventKinds : List EventKind
deriving DecidableEq

def SourceFormatRule.new (sourceFormat : SourceFormatId) (acceptedEventKinds : List EventKind) :
    Except ProfileError SourceFormatRule := do
  let acceptedEventKinds := (acceptedEventKinds.insertionSort kindBefore).destutter (· ≠ ·)
  ensure (acceptedEventKinds ≠ []) .emptyEventKindSet
  return ⟨sourceFormat, acceptedEventKinds⟩

structure MarketStateProfile where
  market : MarketId
  sourceRules : List SourceFormatRule
  cumulativeVolumePolicy : CumulativeVolumePolicy
  segmentBoundaryPolicyVersion : U16
deriving DecidableEq

def ruleBefore (a b : SourceFormatRule) : Prop :=
  (compare a.sourceFormat b.sourceFormat).isLE = true

instance (a b : SourceFormatRule) : Decidable (ruleBefore a b) :=
  inferInstanceAs (Decidable (_ = _))

def MarketStateProfile.new (market : MarketId) (sourceRules : List SourceFormatRule)
    (cumulativeVolumePolicy : CumulativeVolumePolicy) (segmentBoundaryPolicyVersion : U16) :
    Except ProfileError MarketStateProfile := do
  ensure (sourceRules ≠ []) .emptySourceRules
  let sourceRules := sourceRules.insertionSort ruleBefore
  ensure (anyAdjacent (fun a b => a.sourceFormat = b.sourceFormat) sourceRules = false)
    .duplicateSourceFormat
  ensure (segmentBoundaryPolicyVersion ≠ 0) .zeroBoundaryPolicyVersion
  return ⟨market, sourceRules, cumulativeVolumePolicy, segmentBoundaryPolicyVersion⟩

namespace MarketStateProfile

/-- The profile of the equity markets: a realtime format with intermediate prints and a snapshot
format without. -/
def quote (market : MarketId) (realtimeFormat snapshotFormat : SourceFormatId) :
    Except ProfileError MarketStateProfile := do
  let realtime ← SourceFormatRule.new realtimeFormat
      [.quoteSnapshot, .tradeBatch, .indicativeAuction, .marketStatus]
  let snapshot ← SourceFormatRule.new snapshotFormat
      [.quoteSnapshot, .indicativeAuction, .marketStatus]
  MarketStateProfile.new market [realtime, snapshot] (.nonDecreasingWithinSegment .tradingUnit)
    (Unsigned.wrap 16 1)

/-- STOCK_SNAPSHOT -/
def stockSnapshot : SourceFormatId :=
  ⟨⟨[83, 84, 79, 67, 75, 95, 83, 78, 65, 80, 83, 72, 79, 84], by decide⟩, by decide⟩

/-- WARRANT_REALTIME -/
def warrantRealtime : SourceFormatId :=
  ⟨⟨[87, 65, 82, 82, 65, 78, 84, 95, 82, 69, 65, 76, 84, 73, 77, 69], by decide⟩, by decide⟩

/-- WARRANT_SNAPSHOT -/
def warrantSnapshot : SourceFormatId :=
  ⟨⟨[87, 65, 82, 82, 65, 78, 84, 95, 83, 78, 65, 80, 83, 72, 79, 84], by decide⟩, by decide⟩

def twseRegular : Except ProfileError MarketStateProfile := quote .twse stockRealtime stockSnapshot

def twseWarrant : Except ProfileError MarketStateProfile :=
  quote .twse warrantRealtime warrantSnapshot

def tpexRegular : Except ProfileError MarketStateProfile := quote .tpex stockRealtime stockSnapshot

def tpexWarrant : Except ProfileError MarketStateProfile :=
  quote .tpex warrantRealtime warrantSnapshot

/-- The four derivatives formats, each with the one event kind it carries: I020 trades, I022 opening
auctions, I080 and I082 books. -/
def derivatives : Except ProfileError MarketStateProfile := do
  let i020 ← SourceFormatRule.new ⟨⟨[73, 48, 50, 48], by decide⟩, by decide⟩ [.tradeBatch]
  let i022 ← SourceFormatRule.new ⟨⟨[73, 48, 50, 50], by decide⟩, by decide⟩ [.indicativeAuction]
  let i080 ← SourceFormatRule.new ⟨⟨[73, 48, 56, 48], by decide⟩, by decide⟩ [.bookSnapshot]
  let i082 ← SourceFormatRule.new ⟨⟨[73, 48, 56, 50], by decide⟩, by decide⟩ [.bookSnapshot]
  MarketStateProfile.new .taifex [i020, i022, i080, i082] .unconstrained (Unsigned.wrap 16 1)

def taifexFutures : Except ProfileError MarketStateProfile := derivatives

def taifexOptions : Except ProfileError MarketStateProfile := derivatives

/-- No built-in profile is refused, so none of the `expect`s of its construction can abort. -/
theorem builtins_isOk : ∀ profile ∈
    [twseRegular, twseWarrant, tpexRegular, tpexWarrant, taifexFutures, taifexOptions],
    profile.isOk = true := by
  decide +kernel

def validateEvent (self : MarketStateProfile) (event : DomainEvent) : Except ProfileError Unit := do
  ensure (event.instrument.market = self.market) .marketMismatch
  let rule ← okOr .unsupportedSourceFormat
      (self.sourceRules.find? fun rule => rule.sourceFormat = event.sourceFormat)
  ensure (event.payload.kind ∈ rule.acceptedEventKinds) .unsupportedEventKind

end MarketStateProfile

inductive SegmentBoundaryPolicy | carry | resetObservableFields
deriving DecidableEq

structure ReducerContext where
  tradingDate : TradingDate
  sessionSegmentId : SessionSegmentId
  segmentBoundaryPolicy : SegmentBoundaryPolicy
  segmentBoundaryPolicyVersion : U16
deriving DecidableEq

structure MarketStateReducer where
  profile : MarketStateProfile
deriving DecidableEq

inductive BoundaryAction | resetObservableFields
deriving DecidableEq

inductive ChangedField
  | currentSegment | book | recentTrade | cumulativeVolume | indicativeAuction | marketSignal
  | phase | lastEvent
deriving DecidableEq

def ChangedField.rank : ChangedField → ℕ
  | .currentSegment => 0
  | .book => 1
  | .recentTrade => 2
  | .cumulativeVolume => 3
  | .indicativeAuction => 4
  | .marketSignal => 5
  | .phase => 6
  | .lastEvent => 7

theorem ChangedField.rank_injective : Function.Injective ChangedField.rank := by
  intro a b h; cases a <;> cases b <;> first | rfl | exact absurd h (by decide)

instance : Ord ChangedField := ⟨fun a b => compare a.rank b.rank⟩

instance : Std.TransOrd ChangedField := Order.transCmp_of_key _ ChangedField.rank fun _ _ => rfl

instance : Std.LawfulEqOrd ChangedField :=
  Order.lawfulEqCmp_of_key _ ChangedField.rank (fun _ _ => rfl) ChangedField.rank_injective

inductive StateWarningCode | unknownRecentTrade | unknownCumulativeVolume
deriving DecidableEq

def StateWarningCode.rank : StateWarningCode → ℕ
  | .unknownRecentTrade => 0
  | .unknownCumulativeVolume => 1

theorem StateWarningCode.rank_injective : Function.Injective StateWarningCode.rank := by
  intro a b h; cases a <;> cases b <;> first | rfl | exact absurd h (by decide)

instance : Ord StateWarningCode := ⟨fun a b => compare a.rank b.rank⟩

instance : Std.TransOrd StateWarningCode :=
  Order.transCmp_of_key _ StateWarningCode.rank fun _ _ => rfl

instance : Std.LawfulEqOrd StateWarningCode :=
  Order.lawfulEqCmp_of_key _ StateWarningCode.rank (fun _ _ => rfl) StateWarningCode.rank_injective

inductive StateTransitionError
  | instrumentMismatch
  | tradingDateMismatch
  | boundaryPolicyVersionMismatch
  | profile (error : ProfileError)
  | canonicalEncoding (error : CanonicalEncodingError)
  | matchTimeRegression
  | orderingRegression
  | invalidTwseRealtimeShape
  | invalidTpexRealtimeShape
  | cumulativeVolumeRegression (previous next : U64)
  | volumeUnitMismatch (expected actual : QuantityUnit)
  | stateVersionOverflow
  | staleProposal
deriving DecidableEq

structure TransitionReceipt where
  instrument : InstrumentId
  previousVersion : U64
  newVersion : U64
  event : AppliedEventRef
  boundaryAction : Option BoundaryAction
  changedFields : List ChangedField
  warningCodes : List StateWarningCode
deriving DecidableEq

structure ProposedTransition where
  previousVersion : U64
  nextState : MarketState
  receipt : TransitionReceipt

/-- What `propose` builds up: the next state and the sets its receipt lists. -/
structure Draft where
  next : MarketState
  changed : Std.ExtTreeSet ChangedField
  warnings : Std.ExtTreeSet StateWarningCode
  boundaryAction : Option BoundaryAction

section Auctions

def currentAuctionObservation (state : MarketState) : Option AuctionObservation :=
  match state.phase.known? with
  | some (.auction auction) => some auction.observation
  | some .continuous | some .closed
  | none => state.indicativeAuction.known?.map IndicativeAuction.observation

def startsNewAuction (previous current : AuctionObservation) : Bool :=
  match previous.purpose, current.purpose with
  | .known previous, .known current => previous ≠ current
  | _, _ => false

def mergeWithCurrentAuction (state : MarketState) (observation : AuctionObservation) :
    AuctionObservation :=
  match currentAuctionObservation state with
  | none => observation
  | some previous => if startsNewAuction previous observation = true then observation else
      observation.merge previous

def nextPeriodicAuctionRound (result : AuctionObservation) : AuctionObservation :=
  .periodicWithEvidence (.known false) result.disposal

def postMarketPhase : MarketSignal → Option MarketPhase
  | .continuous => some .continuous
  | .closed => some .closed
  | .auctionCollecting observation => some (.auction ⟨observation⟩)
  | .auctionUncross observation =>
    match observation.purpose with
    | .known .opening | .known .volatilityInterruption => some .continuous
    | .known .closing => some .closed
    | .known .periodic => some (.auction ⟨nextPeriodicAuctionRound observation⟩)
    | .noObservation | .unknown => none

/-- auction purpose unavailable -/
def auctionPurposeUnavailable : Text :=
  ⟨[97, 117, 99, 116, 105, 111, 110, 32, 112, 117, 114, 112, 111, 115, 101, 32, 117, 110, 97, 118,
    97, 105, 108, 97, 98, 108, 101], by decide⟩

end Auctions

namespace Draft

def change (self : Draft) (next : MarketState) (field : ChangedField) : Draft :=
  { self with next := next, changed := self.changed.insert field }

def resetObservableFields (self : Draft) : Draft :=
  { self with
    next := self.next.resetObservableFields
    changed := self.changed.insertMany
      [ChangedField.book, .recentTrade, .cumulativeVolume, .indicativeAuction,
        .marketSignal, .phase]
    boundaryAction := some .resetObservableFields }

def clearIndicativeAuction (self : Draft) (clearedAt : AppliedEventRef) : Draft :=
  match self.next.indicativeAuction with
  | .known _ _ | .unknown _ _ =>
    self.change { self.next with indicativeAuction := .unavailable (.cleared clearedAt) }
      .indicativeAuction
  | .unavailable _ => self

def setBook (self : Draft) (book : CompleteBookSnapshot) (eventRef : AppliedEventRef) : Draft :=
  self.change { self.next with book := .known book eventRef } .book

def setTrade (self : Draft) (trade : StateField TradeObservation) : Draft :=
  self.change { self.next with recentTrade := trade } .recentTrade

def setVolume (self : Draft) (volume : StateField Volume) : Draft :=
  self.change { self.next with cumulativeVolume := volume } .cumulativeVolume

def applyTradeObservation (self : Draft) (observation : Observation ObservedTrade)
    (eventRef : AppliedEventRef) : Draft :=
  match observation with
  | .noObservation => self
  | .set trade => self.setTrade (.known (.single trade) eventRef)
  | .clear => self.setTrade (.unavailable (.cleared eventRef))
  | .unknown raw =>
    let self := self.setTrade (.unknown raw eventRef)
    { self with warnings := self.warnings.insert .unknownRecentTrade }

/-- The signal and the phase are written together. -/
def setSignal (self : Draft) (signal : StateField MarketSignal)
    (phase : StateField MarketPhase) : Draft :=
  { self with
    next := { self.next with marketSignal := signal, phase := phase }
    changed := (self.changed.insert .marketSignal).insert .phase }

/-- The evidence of the running round completes a partial observation. -/
def resolveSignal (self : Draft) : MarketSignal → MarketSignal
  | .auctionCollecting observation =>
    .auctionCollecting (mergeWithCurrentAuction self.next observation)
  | .auctionUncross observation => .auctionUncross (mergeWithCurrentAuction self.next observation)
  | .continuous => .continuous
  | .closed => .closed

def applyMarketSignal (self : Draft) (observation : Observation MarketSignal)
    (eventRef : AppliedEventRef) : Draft :=
  match observation with
  | .noObservation => self
  | .set signal =>
    let signal := self.resolveSignal signal
    let self := match signal with
      | .continuous | .auctionUncross _ | .closed => self.clearIndicativeAuction eventRef
      | .auctionCollecting _ => self
    self.setSignal (.known signal eventRef) (match postMarketPhase signal with
      | some phase => .known phase eventRef
      | none => .unknown (.text auctionPurposeUnavailable) eventRef)
  | .clear => self.setSignal (.unavailable (.cleared eventRef)) (.unavailable (.cleared eventRef))
  | .unknown raw => self.setSignal (.unknown raw eventRef) (.unknown raw eventRef)

end Draft

def compareWithinInstrument (left right : AppliedEventRef) : Ordering :=
  (compare left.matchTime right.matchTime).then <|
  (compare left.sourceFormat right.sourceFormat).then <|
  (compare left.sourcePhase right.sourcePhase).then <|
  (compare left.eventKind.discriminant right.eventKind.discriminant).then <|
  (compare left.sourceSequence right.sourceSequence).then
  (compare left.eventFingerprint right.eventFingerprint)

/-- Realtime stock events are quotes, auctions, statuses, or batches of intermediate prints only. -/
def realtimeShapeValid : EventPayload → Bool
  | .quoteSnapshot _ | .indicativeAuction _ | .marketStatus _ => true
  | .tradeBatch batch => batch.trades.all fun trade => trade.observationKind = .intermediate
  | .bookSnapshot _ => false

def validateRealtimeShape (event : DomainEvent) : Except StateTransitionError Unit :=
  let shaped := event.sourceFormat ≠ stockRealtime ∨ realtimeShapeValid event.payload = true
  match event.instrument.market with
  | .twse => ensure shaped .invalidTwseRealtimeShape
  | .tpex => ensure shaped .invalidTpexRealtimeShape
  | .taifex => .ok ()

namespace MarketStateReducer

def validateEnvelope (self : MarketStateReducer) (state : MarketState) (event : DomainEvent)
    (context : ReducerContext) :
    Except StateTransitionError Unit := do
  ensure (event.instrument = state.instrument) .instrumentMismatch
  ensure (event.tradingDate = state.tradingDate ∧ event.tradingDate = context.tradingDate)
    .tradingDateMismatch
  ensure (context.segmentBoundaryPolicyVersion = self.profile.segmentBoundaryPolicyVersion)
    .boundaryPolicyVersionMismatch
  ensure (∀ lastTime ∈ state.lastMatchTime, lastTime ≤ event.matchTime) .matchTimeRegression

def validateVolume (self : MarketStateReducer) (current : StateField Volume) (next : Volume)
    (comparePrevious : Bool) :
    Except StateTransitionError Unit :=
  match self.profile.cumulativeVolumePolicy with
  | .unconstrained => .ok ()
  | .nonDecreasingWithinSegment unit => do
    ensure (next.unit = unit) (.volumeUnitMismatch unit next.unit)
    match comparePrevious, current with
    | true, .known value _ =>
      ensure (value.unit = unit) (.volumeUnitMismatch unit value.unit)
      ensure (value.value ≤ next.value) (.cumulativeVolumeRegression value.value next.value)
    | _, _ => pure ()

def applyVolumeObservation (self : MarketStateReducer) (draft : Draft)
    (observation : Observation Volume)
    (eventRef : AppliedEventRef) (comparePrevious : Bool) : Except StateTransitionError Draft :=
  match observation with
  | .noObservation => .ok draft
  | .set volume => do
    self.validateVolume draft.next.cumulativeVolume volume comparePrevious
    return draft.setVolume (.known volume eventRef)
  | .clear => .ok (draft.setVolume (.unavailable (.cleared eventRef)))
  | .unknown raw =>
    let draft := draft.setVolume (.unknown raw eventRef)
    .ok { draft with warnings := draft.warnings.insert .unknownCumulativeVolume }

/-- Entering a segment: a reset when the context asks for one and there was a segment before, or an
indicative auction cleared when values are carried over. -/
def enterSegment (state : MarketState) (context : ReducerContext)
    (eventRef : AppliedEventRef) : Draft :=
  let draft : Draft := ⟨state, ∅, ∅, none⟩
  if state.currentSegmentId = some context.sessionSegmentId then draft
  else
    let draft := match state.currentSegmentId, context.segmentBoundaryPolicy with
      | some _, .resetObservableFields => draft.resetObservableFields
      | _, .carry => draft.clearIndicativeAuction eventRef
      | none, .resetObservableFields => draft
    draft.change { draft.next with currentSegmentId := some context.sessionSegmentId }
      .currentSegment

/-- What the payload alone changes, before the market signal. An indicative auction leaves the
executable state. -/
def applyPayload (self : MarketStateReducer) (draft : Draft) (payload : EventPayload)
    (eventRef : AppliedEventRef) (comparePrevious : Bool) : Except StateTransitionError Draft :=
  match payload with
  | .quoteSnapshot snapshot =>
    self.applyVolumeObservation
      ((draft.setBook snapshot.book eventRef).applyTradeObservation snapshot.trade eventRef)
      snapshot.cumulativeVolume eventRef comparePrevious
  | .bookSnapshot snapshot => .ok (draft.setBook snapshot.book eventRef)
  | .tradeBatch batch =>
    self.applyVolumeObservation (draft.setTrade (.known batch.observation eventRef))
      batch.cumulativeVolume eventRef comparePrevious
  | .indicativeAuction auction =>
    .ok (draft.change { draft.next with
      indicativeAuction :=
        .known (auction.withObservation (mergeWithCurrentAuction draft.next auction.observation))
        eventRef } .indicativeAuction)
  | .marketStatus status =>
    self.applyVolumeObservation draft status.cumulativeVolume eventRef comparePrevious

def propose (hash : List UInt8 → Digest) (self : MarketStateReducer) (state : MarketState)
    (event : DomainEvent)
    (context : ReducerContext) : Except StateTransitionError ProposedTransition := do
  self.validateEnvelope state event context
  (self.profile.validateEvent event).mapError .profile
  validateRealtimeShape event
  let eventRef ← (AppliedEventRef.fromEvent hash event).mapError .canonicalEncoding
  ensure (∀ previous ∈ state.lastEvent, compareWithinInstrument eventRef previous ≠ .lt)
    .orderingRegression
  let newVersion ← okOr .stateVersionOverflow (state.stateVersion.checkedAdd (Unsigned.wrap 64 1))
  let sameSegment := decide (state.currentSegmentId = some context.sessionSegmentId)
  let draft ← self.applyPayload (enterSegment state context eventRef) event.payload
      eventRef sameSegment
  let draft := draft.applyMarketSignal event.payload.marketSignal eventRef
  let draft :=
    draft.change
      { draft.next with lastEvent := some eventRef, stateVersion := newVersion } .lastEvent
  return {
    previousVersion := state.stateVersion
    nextState := draft.next
    receipt := {
      instrument := state.instrument
      previousVersion := state.stateVersion
      newVersion := newVersion
      event := eventRef
      boundaryAction := draft.boundaryAction
      changedFields := draft.changed.toList
      warningCodes := draft.warnings.toList } }

/-- The state a proposal was made for is replaced; a proposal for another state is stale. -/
def commit (state : MarketState) (proposal : ProposedTransition) :
    Except StateTransitionError (MarketState × TransitionReceipt) := do
  ensure (state.stateVersion = proposal.previousVersion ∧
    state.instrument = proposal.nextState.instrument ∧
    state.tradingDate = proposal.nextState.tradingDate) .staleProposal
  return (proposal.nextState, proposal.receipt)

def apply (hash : List UInt8 → Digest) (self : MarketStateReducer) (state : MarketState)
    (event : DomainEvent)
    (context : ReducerContext) : Except StateTransitionError (MarketState × TransitionReceipt) := do
  let proposal ← self.propose hash state event context
  commit state proposal

end MarketStateReducer

end Osmium
