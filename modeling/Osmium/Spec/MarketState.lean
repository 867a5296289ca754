import Osmium.Spec.Canonical

/-! The state of one instrument as the market-state crate keeps it: the last value of every
observable field with the event it came from, and the canonical bytes of a final state set. -/

namespace Osmium
open Machine Bytes Codec Result

/-- `AuctionObservation::periodic_with_evidence`. -/
def AuctionObservation.periodicWithEvidence (delayed disposal : AuctionEvidence Bool) :
    AuctionObservation :=
  ⟨.known .periodic, delayed, disposal, .noObservation⟩

/-- The hash of a canonical event frame. -/
@[ext] structure EventFingerprint where
  digest : Digest
deriving DecidableEq

instance : Ord EventFingerprint := ⟨fun a b => compare a.digest b.digest⟩

instance : Std.TransOrd EventFingerprint :=
  Order.transCmp_of_key _ EventFingerprint.digest fun _ _ => rfl

instance : Std.LawfulEqOrd EventFingerprint :=
  Order.lawfulEqCmp_of_key _ EventFingerprint.digest (fun _ _ => rfl) fun _ _ h =>
    EventFingerprint.ext h

instance : Ord SourceFormatId := ⟨fun a b => compare a.text b.text⟩

instance : Std.TransOrd SourceFormatId := Order.transCmp_of_key _ SourceFormatId.text fun _ _ => rfl

instance : Std.LawfulEqOrd SourceFormatId :=
  Order.lawfulEqCmp_of_key _ SourceFormatId.text (fun _ _ => rfl) fun _ _ h => SourceFormatId.ext h

instance : Ord Symbol := ⟨fun a b => compare a.text b.text⟩

instance : Std.TransOrd Symbol := Order.transCmp_of_key _ Symbol.text fun _ _ => rfl

instance : Std.LawfulEqOrd Symbol :=
  Order.lawfulEqCmp_of_key _ Symbol.text (fun _ _ => rfl) fun _ _ h => Symbol.ext h

def DomainEvent.fingerprint (hash : List UInt8 → Digest) (event : DomainEvent) :
    Except CanonicalEncodingError EventFingerprint := do
  return ⟨hash (← event.toCanonicalBytes)⟩

inductive SessionSegmentIdError | empty
deriving DecidableEq

/-- A non-empty, byte-exact session segment identifier from a market profile. -/
@[ext] structure SessionSegmentId where
  text : Text
  nonempty : text.isEmpty = false

instance : DecidableEq SessionSegmentId := fun _ _ => decidable_of_iff' _ SessionSegmentId.ext_iff

def SessionSegmentId.new (value : Text) : Except SessionSegmentIdError SessionSegmentId :=
  if h : value.isEmpty = false then .ok ⟨value, h⟩ else .error .empty

/-- STOCK_REALTIME -/
def stockRealtime : SourceFormatId :=
  ⟨⟨[83, 84, 79, 67, 75, 95, 82, 69, 65, 76, 84, 73, 77, 69], by decide⟩, by decide⟩

/-- Intermediate prints come before the quote of the same match time. -/
def sourcePhaseForEvent (event : DomainEvent) : UInt8 :=
  if event.instrument.market = .taifex ∨ event.sourceFormat ≠ stockRealtime then 0
  else match event.payload with
    | .tradeBatch _ => 10
    | .quoteSnapshot _ | .bookSnapshot _ | .marketStatus _ => 20
    | .indicativeAuction auction => if auction.book.asSet.isSome then 20 else 10

/-- Stable identity for one event applied to state. -/
@[ext] structure AppliedEventRef where
  matchTime : MatchTime
  sourceFormat : SourceFormatId
  sourcePhase : UInt8
  eventKind : EventKind
  sourceSequence : Option U64
  eventFingerprint : EventFingerprint
deriving DecidableEq

def AppliedEventRef.fromEvent (hash : List UInt8 → Digest) (event : DomainEvent) :
    Except CanonicalEncodingError AppliedEventRef := do
  return {
    matchTime := event.matchTime
    sourceFormat := event.sourceFormat
    sourcePhase := sourcePhaseForEvent event
    eventKind := event.payload.kind
    sourceSequence := event.sourceSequence
    eventFingerprint := ← event.fingerprint hash }

inductive UnavailableReason
  | initial
  | cleared (clearedAt : AppliedEventRef)
deriving DecidableEq

structure AuctionState where
  observation : AuctionObservation
deriving DecidableEq

/-- The reducer-owned state after applying the latest market signal. -/
inductive MarketPhase
  | continuous
  | auction (state : AuctionState)
  | closed
deriving DecidableEq

inductive StateField (α : Type)
  | unavailable (reason : UnavailableReason)
  | known (value : α) (observedAt : AppliedEventRef)
  | unknown (raw : UnknownValue) (observedAt : AppliedEventRef)
deriving DecidableEq

def StateField.initial {α : Type} : StateField α := .unavailable .initial

def StateField.known? {α : Type} : StateField α → Option α
  | .known value _ => some value
  | _ => none

/-- The latest source-observed trade value, never an unbounded history. -/
inductive TradeObservation
  | single (trade : ObservedTrade)
  | batch (trades : List ObservedTrade) (tradeOrder : TradeBatchOrdering) (nonempty : trades ≠ [])
deriving DecidableEq

theorem TradeBatch.trades_ne_nil (batch : TradeBatch) : batch.trades ≠ [] := by
  intro h
  have hvalid := batch.valid
  simp [validateBatch, h, validateTradeUnits, Except.mapError, bind, Except.bind] at hvalid

/-- The observation a batch leaves in the state. -/
def TradeBatch.observation (batch : TradeBatch) : TradeObservation :=
  .batch batch.trades batch.tradeOrder batch.trades_ne_nil

@[ext] structure MarketState where
  instrument : InstrumentId
  tradingDate : TradingDate
  currentSegmentId : Option SessionSegmentId
  book : StateField CompleteBookSnapshot
  recentTrade : StateField TradeObservation
  cumulativeVolume : StateField Volume
  indicativeAuction : StateField IndicativeAuction
  marketSignal : StateField MarketSignal
  phase : StateField MarketPhase
  lastEvent : Option AppliedEventRef
  stateVersion : U64
deriving DecidableEq

namespace MarketState

def new (instrument : InstrumentId) (tradingDate : TradingDate) : MarketState where
  instrument := instrument
  tradingDate := tradingDate
  currentSegmentId := none
  book := .initial
  recentTrade := .initial
  cumulativeVolume := .initial
  indicativeAuction := .initial
  marketSignal := .initial
  phase := .initial
  lastEvent := none
  stateVersion := 0

def lastMatchTime (self : MarketState) : Option MatchTime :=
  self.lastEvent.map AppliedEventRef.matchTime

def resetObservableFields (self : MarketState) : MarketState :=
  { self with
    book := .initial
    recentTrade := .initial
    cumulativeVolume := .initial
    indicativeAuction := .initial
    marketSignal := .initial
    phase := .initial }

def bestBid (self : MarketState) : Option BookLevel :=
  self.book.known?.bind fun book => book.bids.levels.head?

def bestAsk (self : MarketState) : Option BookLevel :=
  self.book.known?.bind fun book => book.asks.levels.head?

end MarketState

inductive LastTradeUnavailable
  | state (reason : UnavailableReason)
  | ambiguousBatchOrder
deriving DecidableEq

inductive LastTrade
  | known (trade : ObservedTrade)
  | unavailable (reason : LastTradeUnavailable)
  | unknown (raw : UnknownValue)
deriving DecidableEq

def MarketState.lastTrade (self : MarketState) : LastTrade :=
  match self.recentTrade with
  | .unavailable reason => .unavailable (.state reason)
  | .unknown raw _ => .unknown raw
  | .known (.single trade) _ => .known trade
  | .known (.batch trades .sourceSequencePreserved nonempty) _ => .known (trades.getLast nonempty)
  | .known (.batch _ .unspecified _) _ => .unavailable .ambiguousBatchOrder

section Canonical

def canonicalMarketStateVersion : U16 := ⟨7, by decide⟩

def marketStateVersion : U16 := ⟨7, by decide⟩

def canonicalFinalStateSetVersion : U16 := ⟨7, by decide⟩

def appendInstrument (instrument : InstrumentId) : Encoding :=
  .ok [instrument.market.discriminant] ++ appendBytes instrument.symbol.text.bytes

def appendEventRef (event : AppliedEventRef) : Encoding :=
  .ok (ofSigned 8 event.matchTime.unixMicroseconds) ++
  appendBytes event.sourceFormat.text.bytes ++
  .ok [event.sourcePhase] ++
  .ok [event.eventKind.discriminant] ++
  appendOptionalU64 event.sourceSequence ++
  .ok event.eventFingerprint.digest.bytes

def appendStateField {α : Type} (enc : α → Encoding) : StateField α → Encoding
  | .unavailable .initial => .ok [0]
  | .unavailable (.cleared clearedAt) => .ok [1] ++ appendEventRef clearedAt
  | .known value observedAt => .ok [2] ++ appendEventRef observedAt ++ enc value
  | .unknown raw observedAt => .ok [3] ++ appendEventRef observedAt ++ raw.appendCanonical

def MarketPhase.appendCanonical : MarketPhase → Encoding
  | .continuous => .ok [1]
  | .auction state => .ok [2] ++ state.observation.appendCanonical
  | .closed => .ok [3]

def TradeObservation.appendCanonical : TradeObservation → Encoding
  | .single trade => .ok [1] ++ trade.appendCanonical
  | .batch trades tradeOrder _ =>
    .ok [2] ++ .ok [tradeOrder.discriminant] ++ appendLength trades.length ++
      encodeAll ObservedTrade.appendCanonical trades

/-- A zero byte when absent, a one byte before the encoding when present. -/
def appendPresent {α : Type} (enc : α → Encoding) : Option α → Encoding
  | none => .ok [0]
  | some value => .ok [1] ++ enc value

def MarketState.toCanonicalBytes (self : MarketState) : Encoding :=
  .ok [79, 83, 77, 83] ++
  .ok (ofUnsigned 2 canonicalMarketStateVersion) ++
  .ok (ofUnsigned 2 marketStateVersion) ++
  appendInstrument self.instrument ++
  .ok self.tradingDate.toCanonicalBytes ++
  appendPresent (fun segment => appendBytes segment.text.bytes) self.currentSegmentId ++
  .ok (ofUnsigned 8 self.stateVersion) ++
  appendStateField CompleteBookSnapshot.appendCanonical self.book ++
  appendStateField TradeObservation.appendCanonical self.recentTrade ++
  appendStateField Volume.appendCanonical self.cumulativeVolume ++
  appendStateField IndicativeAuction.appendCanonical self.indicativeAuction ++
  appendStateField MarketSignal.appendCanonical self.marketSignal ++
  appendStateField MarketPhase.appendCanonical self.phase ++
  appendPresent appendEventRef self.lastEvent

inductive FinalStateEncodingError
  | canonical (error : CanonicalEncodingError)
  | duplicateInstrument
deriving DecidableEq

/-- Two neighbours of a list for which `p` holds. -/
def anyAdjacent {α : Type} (p : α → α → Bool) : List α → Bool
  | a :: b :: rest => p a b || anyAdjacent p (b :: rest)
  | _ => false

def instrumentBefore (a b : MarketState) : Prop := (compare a.instrument b.instrument).isLE = true

instance (a b : MarketState) : Decidable (instrumentBefore a b) :=
  inferInstanceAs (Decidable (_ = _))

/-- The length of a state's bytes, then the bytes. -/
def MarketState.framedBytes (self : MarketState) : Encoding :=
  do appendBytes (← self.toCanonicalBytes)

def canonicalFinalStateSet (states : List MarketState) :
    Except FinalStateEncodingError (List UInt8) := do
  let states := states.insertionSort instrumentBefore
  ensure (anyAdjacent (fun a b => a.instrument = b.instrument) states = false) .duplicateInstrument
  (.ok [79, 83, 77, 70] ++ .ok (ofUnsigned 2 canonicalFinalStateSetVersion) ++
    appendLength states.length ++
    encodeAll MarketState.framedBytes states : Encoding).mapError .canonical

end Canonical

end Osmium
