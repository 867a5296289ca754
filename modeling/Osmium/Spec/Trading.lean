import Osmium.Spec.Orders
import Osmium.Spec.Replay

/-! Sessions and the trading context: which session phase an event falls in, how the market matches
at it, and which orders may be entered. -/

namespace Osmium
open Machine Bytes Result

inductive SessionKind | regular | afterHours
deriving DecidableEq

def SessionKind.discriminant : SessionKind → UInt8
  | .regular => 1
  | .afterHours => 2

theorem SessionKind.discriminant_injective : Function.Injective SessionKind.discriminant := by
  intro a b h; cases a <;> cases b <;> first | rfl | exact absurd h (by decide)

instance : Ord SessionKind := ⟨fun a b => compare a.discriminant b.discriminant⟩

instance : Std.TransOrd SessionKind :=
  Order.transCmp_of_key _ SessionKind.discriminant fun _ _ => rfl

instance : Std.LawfulEqOrd SessionKind :=
  Order.lawfulEqCmp_of_key _ SessionKind.discriminant
    (fun _ _ => rfl) SessionKind.discriminant_injective

inductive SessionPhase | warmUp | active | coolDown
deriving DecidableEq

inductive ContextError
  | invalidSessionWindow
  | sessionWindowOverflow
  | outsideReplayWindow
  | tradingDateMismatch
  | instrumentMismatch
  | segmentMismatch
  | stateVersionMismatch
  | missingAppliedEvent
  | eventIdentityMismatch
deriving DecidableEq

/-- Five minutes. -/
def warmUpMicroseconds : I64 := Signed.wrap 64 300000000

/-- A session window, with room for the warm-up before it and the cool-down after it. -/
@[ext] structure SessionSegment where
  id : SessionSegmentId
  kind : SessionKind
  tradingDate : TradingDate
  openTime : MatchTime
  closeTime : MatchTime
  window : openTime < closeTime
  bounded : (openTime.unixMicroseconds.checkedSub warmUpMicroseconds).isSome = true ∧
    (closeTime.unixMicroseconds.checkedAdd warmUpMicroseconds).isSome = true

instance : DecidableEq SessionSegment := fun _ _ => decidable_of_iff' _ SessionSegment.ext_iff

namespace SessionSegment

def new (id : SessionSegmentId) (kind : SessionKind) (tradingDate : TradingDate)
    (openTime closeTime : MatchTime) :
    Except ContextError SessionSegment :=
  if window : openTime < closeTime then
    if bounded : (openTime.unixMicroseconds.checkedSub warmUpMicroseconds).isSome = true ∧
        (closeTime.unixMicroseconds.checkedAdd warmUpMicroseconds).isSome = true then
      .ok ⟨id, kind, tradingDate, openTime, closeTime, window, bounded⟩
    else .error .sessionWindowOverflow
  else .error .invalidSessionWindow

def phase (self : SessionSegment) (matchTime : MatchTime) : Except ContextError SessionPhase := do
  let value := matchTime.unixMicroseconds
  let replayStart ← okOr .sessionWindowOverflow
      (self.openTime.unixMicroseconds.checkedSub warmUpMicroseconds)
  let replayEnd ← okOr .sessionWindowOverflow
      (self.closeTime.unixMicroseconds.checkedAdd warmUpMicroseconds)
  ensure (replayStart ≤ value ∧ value < replayEnd) .outsideReplayWindow
  return if matchTime < self.openTime then .warmUp
    else if matchTime ≤ self.closeTime then .active
    else .coolDown

end SessionSegment

structure SessionCallbackContext where
  segmentId : SessionSegmentId
  sessionKind : SessionKind
  phase : SessionPhase
deriving DecidableEq

structure TradingContext where
  eventFingerprint : EventFingerprint
  instrumentStateVersion : U64
  session : SessionCallbackContext
  newOrderEntry : NewOrderEntry
  matching : MatchingState
  auction : Option AuctionObservation
  marketSignal : Option MarketSignal
  marketRuleName : Text
  marketRuleVersion : U16
deriving DecidableEq

namespace MarketTradingContextEvaluator

def matchingForSignal (signal : Observation MarketSignal) (statePhase : StateField MarketPhase) :
    MatchingState × Option AuctionObservation :=
  match signal with
  | .set .continuous => (.enabled .continuous, none)
  | .set (.auctionCollecting observation) | .set (.auctionUncross observation) =>
    (.enabled .callAuction, some observation)
  | .set .closed => (.closed, none)
  | .noObservation =>
    match statePhase.known? with
    | some .continuous => (.enabled .continuous, none)
    | some (.auction auction) => (.enabled .callAuction, some auction.observation)
    | some .closed => (.closed, none)
    | none => (.unknown, none)
  | .clear | .unknown _ => (.unknown, none)

/-- Order entry while an auction collects orders: limit orders only before the opening. -/
def collectingEntry (observation : AuctionObservation) : NewOrderEntry :=
  if observation.purpose = .known .opening then .restricted .preOpenLimitOrdersOnly else
    .restricted .auctionCollecting

def orderEntryForSignal (signal : Observation MarketSignal) (matching : MatchingState)
    (auction : Option AuctionObservation) (sessionPhase : SessionPhase) : NewOrderEntry :=
  if sessionPhase = .coolDown then .blocked .coolDown
  else match signal with
    | .set (.auctionCollecting observation) => collectingEntry observation
    | .set (.auctionUncross observation) =>
      match observation.purpose with
      | .known .closing => .blocked .closingResult
      | .known .periodic => .restricted .auctionCollecting
      | .known .opening | .known .volatilityInterruption => .allowed
      | .noObservation | .unknown => .unknown
    | .set .closed => .blocked .closingResult
    | .set .continuous => .allowed
    | .noObservation =>
      match auction, matching with
      | some observation, _ => collectingEntry observation
      | none, .closed => .blocked .closingResult
      | none, .enabled _ => .allowed
      | none, .unknown => .unknown
    | .clear | .unknown _ => .unknown

def validateEventState (event : DomainEvent) (occurrence : EventOccurrence) (state : MarketState)
    (segment : SessionSegment) : Except ContextError Unit := do
  ensure (event.tradingDate = segment.tradingDate ∧ state.tradingDate = segment.tradingDate)
    .tradingDateMismatch
  ensure (event.instrument = state.instrument) .instrumentMismatch
  ensure (state.currentSegmentId = some segment.id) .segmentMismatch
  ensure (occurrence.instrumentStateVersion = state.stateVersion) .stateVersionMismatch
  let lastEvent ← okOr .missingAppliedEvent state.lastEvent
  ensure (lastEvent.eventFingerprint = occurrence.eventFingerprint ∧
    lastEvent.matchTime = event.matchTime)
    .eventIdentityMismatch

/-- market.signal -/
def ruleName : Text := ⟨[109, 97, 114, 107, 101, 116, 46, 115, 105, 103, 110, 97, 108], by decide⟩

def ruleVersion : U16 := ⟨3, by decide⟩

def evaluate (event : DomainEvent) (occurrence : EventOccurrence) (state : MarketState)
    (segment : SessionSegment) :
    Except ContextError TradingContext := do
  validateEventState event occurrence state segment
  let phase ← segment.phase event.matchTime
  let signal := event.payload.marketSignal
  let (matching, auction) := matchingForSignal signal state.phase
  return {
    eventFingerprint := occurrence.eventFingerprint
    instrumentStateVersion := occurrence.instrumentStateVersion
    session := ⟨segment.id, segment.kind, phase⟩
    newOrderEntry := orderEntryForSignal signal matching auction phase
    matching := matching
    auction := auction
    marketSignal := signal.asSet
    marketRuleName := ruleName
    marketRuleVersion := ruleVersion }

end MarketTradingContextEvaluator

inductive ScheduleError | emptyInstrument | overlaps | duplicated | empty
deriving DecidableEq

/-- The session segments of every instrument. -/
structure MultiSessionSchedule where
  segmentsOf : Std.ExtTreeMap InstrumentId (List SessionSegment)

namespace MultiSessionSchedule

def segmentBefore (a b : SessionSegment) : Prop := a.openTime ≤ b.openTime

instance (a b : SessionSegment) : Decidable (segmentBefore a b) :=
  inferInstanceAs (Decidable (_ ≤ _))

def addEntries : List (InstrumentId × List SessionSegment) →
    Std.ExtTreeMap InstrumentId (List SessionSegment) →
    Except ScheduleError (Std.ExtTreeMap InstrumentId (List SessionSegment))
  | [], segments => .ok segments
  | (instrument, windows) :: rest, segments => do
    ensure (windows ≠ []) .emptyInstrument
    let windows := windows.insertionSort segmentBefore
    ensure (anyAdjacent (fun a b => b.openTime ≤ a.closeTime) windows = false) .overlaps
    ensure (instrument ∉ segments) .duplicated
    addEntries rest (segments.insert instrument windows)

def new (entries : List (InstrumentId × List SessionSegment)) :
    Except ScheduleError MultiSessionSchedule := do
  let segments ← addEntries entries ∅
  ensure (segments.isEmpty = false) .empty
  return ⟨segments⟩

def segmentFor (self : MultiSessionSchedule) (instrument : InstrumentId) (matchTime : MatchTime) :
    Option SessionSegment :=
  self.segmentsOf[instrument]?.bind fun segments => segments.find? fun segment =>
    (segment.phase matchTime).isOk

def instruments (self : MultiSessionSchedule) : List InstrumentId := self.segmentsOf.keys

/-- The kinds that occur, in order and without repetition. -/
def sessions (self : MultiSessionSchedule) : List SessionKind :=
  (Std.ExtTreeSet.ofList (self.segmentsOf.values.flatten.map SessionSegment.kind)).toList

end MultiSessionSchedule

end Osmium
