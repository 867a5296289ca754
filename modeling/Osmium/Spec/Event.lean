import Osmium.Spec.Book

/-! Observations, market signals, event payloads and domain events of the market-types crate.
Payload structures carry the unit checks of their constructors; an auction observation carries
none, because `merge` combines any two of them. -/

namespace Osmium
open Machine Bytes Result

/-- A losslessly encodable bounded scalar with unconfirmed domain meaning. -/
inductive UnknownValue
  | unsigned (value : U64)
  | signed (value : I64)
  | decimal (value : Decimal)
  | text (value : Text)
  | bytes (value : List UInt8)
deriving DecidableEq

def UnknownValue.discriminant : UnknownValue → UInt8
  | .unsigned _ => 1
  | .signed _ => 2
  | .decimal _ => 3
  | .text _ => 4
  | .bytes _ => 5

/-- An explicit source observation: leave the field, replace it, clear it, or an unknown scalar. -/
inductive Observation (α : Type)
  | noObservation
  | set (value : α)
  | clear
  | unknown (value : UnknownValue)
deriving DecidableEq

def Observation.discriminant {α : Type} : Observation α → UInt8
  | .noObservation => 0
  | .set _ => 1
  | .clear => 2
  | .unknown _ => 3

def Observation.asSet {α : Type} : Observation α → Option α
  | .set value => some value
  | _ => none

inductive AuctionPurpose | opening | closing | periodic | volatilityInterruption
deriving DecidableEq

def AuctionPurpose.discriminant : AuctionPurpose → UInt8
  | .opening => 1
  | .closing => 2
  | .periodic => 3
  | .volatilityInterruption => 4

def AuctionPurpose.fromDiscriminant : UInt8 → Option AuctionPurpose
  | 1 => some .opening
  | 2 => some .closing
  | 3 => some .periodic
  | 4 => some .volatilityInterruption
  | _ => none

inductive VolatilityDirection | down | up
deriving DecidableEq

def VolatilityDirection.discriminant : VolatilityDirection → UInt8
  | .down => 1
  | .up => 2

def VolatilityDirection.fromDiscriminant : UInt8 → Option VolatilityDirection
  | 1 => some .down
  | 2 => some .up
  | _ => none

/-- Knowledge state for one field of an auction observation. -/
inductive AuctionEvidence (α : Type)
  | noObservation
  | known (value : α)
  | unknown
deriving DecidableEq

def AuctionEvidence.isKnown {α : Type} : AuctionEvidence α → Bool
  | .known _ => true
  | _ => false

/-- Provider-neutral facts about one auction round; every field is partial knowledge. -/
@[ext] structure AuctionObservation where
  purpose : AuctionEvidence AuctionPurpose
  delayed : AuctionEvidence Bool
  disposal : AuctionEvidence Bool
  direction : AuctionEvidence VolatilityDirection
deriving DecidableEq

/-- A known opening, closing or periodic purpose, which admits no known direction. -/
def AuctionEvidence.isScheduledPurpose : AuctionEvidence AuctionPurpose → Bool
  | .known .opening | .known .closing | .known .periodic => true
  | _ => false

def AuctionObservation.fromParts (purpose : AuctionEvidence AuctionPurpose)
    (delayed disposal : AuctionEvidence Bool)
    (direction : AuctionEvidence VolatilityDirection) : Option AuctionObservation :=
  if direction.isKnown && purpose.isScheduledPurpose then none
  else some ⟨purpose, delayed, disposal, direction⟩

def AuctionObservation.new (purpose : AuctionPurpose) (delayed disposal : Bool) :
    AuctionObservation :=
  ⟨.known purpose, .known delayed, .known disposal, .noObservation⟩

def AuctionObservation.volatilityInterruption (direction : VolatilityDirection)
    (delayed disposal : Bool) :
    AuctionObservation :=
  ⟨.known .volatilityInterruption, .known delayed, .known disposal, .known direction⟩

def mergeEvidence {α : Type} (prior current : AuctionEvidence α) : AuctionEvidence α :=
  match current with
  | .noObservation => prior
  | .known value => .known value
  | .unknown => .unknown

def AuctionObservation.merge (self prior : AuctionObservation) : AuctionObservation where
  purpose := mergeEvidence prior.purpose self.purpose
  delayed := mergeEvidence prior.delayed self.delayed
  disposal := mergeEvidence prior.disposal self.disposal
  direction := mergeEvidence prior.direction self.direction

/-- Provider-neutral market regime observation carried by a domain event. -/
inductive MarketSignal
  | continuous
  | auctionCollecting (observation : AuctionObservation)
  | auctionUncross (observation : AuctionObservation)
  | closed
deriving DecidableEq

def MarketSignal.discriminant : MarketSignal → UInt8
  | .continuous => 1
  | .auctionCollecting _ => 2
  | .auctionUncross _ => 3
  | .closed => 4

def MarketSignal.auction : MarketSignal → Option AuctionObservation
  | .auctionCollecting observation | .auctionUncross observation => some observation
  | _ => none

def MarketSignal.fromDiscriminant (value : UInt8) (observation : Option AuctionObservation) :
    Option MarketSignal :=
  match value, observation with
  | 1, none => some .continuous
  | 2, observation => observation.map .auctionCollecting
  | 3, observation => observation.map .auctionUncross
  | 4, none => some .closed
  | _, _ => none

/-- The raw status and limit bytes of a quote header; each market keeps its own type. -/
@[ext] structure TwseQuoteAnnotations where
  statusFlagsRaw : UInt8
  limitFlagsRaw : UInt8
deriving DecidableEq

@[ext] structure TpexQuoteAnnotations where
  statusFlagsRaw : UInt8
  limitFlagsRaw : UInt8
deriving DecidableEq

inductive MarketAnnotations
  | none
  | twseQuote (flags : TwseQuoteAnnotations)
  | tpexQuote (flags : TpexQuoteAnnotations)
deriving DecidableEq

def MarketAnnotations.discriminant : MarketAnnotations → UInt8
  | .none => 0
  | .twseQuote _ => 1
  | .tpexQuote _ => 2

inductive TradeObservationKind | regular | intermediate
deriving DecidableEq

def TradeObservationKind.discriminant : TradeObservationKind → UInt8
  | .regular => 0
  | .intermediate => 1

@[ext] structure ObservedTrade where
  price : Price
  quantity : Quantity
  observationKind : TradeObservationKind
deriving DecidableEq

inductive TradeBatchOrdering | unspecified | sourceSequencePreserved
deriving DecidableEq

def TradeBatchOrdering.discriminant : TradeBatchOrdering → UInt8
  | .unspecified => 0
  | .sourceSequencePreserved => 1

inductive TradeError
  | empty
  | unitMismatch (expected actual : QuantityUnit) (index : ℕ)
deriving DecidableEq

def validateTradeUnitsFrom (first : QuantityUnit) : List ObservedTrade → ℕ → Except TradeError Unit
  | [], _ => .ok ()
  | trade :: rest, index => do
    ensure (trade.quantity.unit = first) (.unitMismatch first trade.quantity.unit index)
    validateTradeUnitsFrom first rest (index + 1)

def validateTradeUnits : List ObservedTrade → Except TradeError QuantityUnit
  | [] => .error .empty
  | trade :: rest => do
    validateTradeUnitsFrom trade.quantity.unit rest 1
    return trade.quantity.unit

inductive EventError
  | invalidTrades (error : TradeError)
  | quantityUnitMismatch (expected actual : QuantityUnit)
deriving DecidableEq

/-- Returns the expectation after one more unit was seen. -/
def validateUnit (expected : Option QuantityUnit) (actual : QuantityUnit) :
    Except EventError (Option QuantityUnit) :=
  match expected with
  | some unit => if unit ≠ actual then .error (.quantityUnitMismatch unit actual) else
      .ok (some unit)
  | none => .ok (some actual)

def validateOptionalUnit (expected : Option QuantityUnit) :
    Option QuantityUnit → Except EventError (Option QuantityUnit)
  | some actual => validateUnit expected actual
  | none => .ok expected

def validateSnapshotUnits (book : CompleteBookSnapshot) (trade : Observation ObservedTrade)
    (cumulativeVolume : Observation Volume) : Except EventError Unit := do
  let expected ← validateOptionalUnit book.quantityUnit (trade.asSet.map fun t => t.quantity.unit)
  let _ ← validateOptionalUnit expected (cumulativeVolume.asSet.map Volume.unit)

def validateAuctionUnits (quantity : Observation Quantity) (book : Observation CompleteBookSnapshot)
    (cumulativeVolume : Observation Volume) : Except EventError Unit := do
  let expected ← validateOptionalUnit none (quantity.asSet.map Quantity.unit)
  let expected ← validateOptionalUnit expected (book.asSet.bind CompleteBookSnapshot.quantityUnit)
  let _ ← validateOptionalUnit expected (cumulativeVolume.asSet.map Volume.unit)

def validateBatch (trades : List ObservedTrade) (cumulativeVolume : Observation Volume) :
    Except EventError Unit := do
  let unit ← (validateTradeUnits trades).mapError .invalidTrades
  match cumulativeVolume with
  | .set volume => ensure (volume.unit = unit) (.quantityUnitMismatch unit volume.unit)
  | _ => pure ()

@[ext] structure QuoteSnapshot where
  book : CompleteBookSnapshot
  trade : Observation ObservedTrade
  cumulativeVolume : Observation Volume
  annotations : MarketAnnotations
  marketSignal : Observation MarketSignal
  valid : validateSnapshotUnits book trade cumulativeVolume = .ok ()
deriving DecidableEq

def QuoteSnapshot.new (book : CompleteBookSnapshot) (trade : Observation ObservedTrade)
    (cumulativeVolume : Observation Volume) (annotations : MarketAnnotations) :
    Except EventError QuoteSnapshot :=
  match h : validateSnapshotUnits book trade cumulativeVolume with
  | .ok () => .ok ⟨book, trade, cumulativeVolume, annotations, .noObservation, h⟩
  | .error e => .error e

def QuoteSnapshot.withMarketSignal (self : QuoteSnapshot)
    (marketSignal : Observation MarketSignal) : QuoteSnapshot :=
  { self with marketSignal := marketSignal }

@[ext] structure BookSnapshot where
  book : CompleteBookSnapshot
  annotations : MarketAnnotations
  marketSignal : Observation MarketSignal
deriving DecidableEq

def BookSnapshot.new (book : CompleteBookSnapshot) (annotations : MarketAnnotations) :
    BookSnapshot :=
  ⟨book, annotations, .noObservation⟩

def BookSnapshot.withMarketSignal (self : BookSnapshot) (marketSignal : Observation MarketSignal) :
    BookSnapshot :=
  { self with marketSignal := marketSignal }

@[ext] structure TradeBatch where
  trades : List ObservedTrade
  tradeOrder : TradeBatchOrdering
  cumulativeVolume : Observation Volume
  annotations : MarketAnnotations
  marketSignal : Observation MarketSignal
  valid : validateBatch trades cumulativeVolume = .ok ()
deriving DecidableEq

def TradeBatch.new (trades : List ObservedTrade) (tradeOrder : TradeBatchOrdering)
    (cumulativeVolume : Observation Volume) (annotations : MarketAnnotations) :
    Except EventError TradeBatch :=
  match h : validateBatch trades cumulativeVolume with
  | .ok () => .ok ⟨trades, tradeOrder, cumulativeVolume, annotations, .noObservation, h⟩
  | .error e => .error e

def TradeBatch.withMarketSignal (self : TradeBatch) (marketSignal : Observation MarketSignal) :
    TradeBatch :=
  { self with marketSignal := marketSignal }

@[ext] structure IndicativeAuction where
  observation : AuctionObservation
  price : Observation Price
  quantity : Observation Quantity
  book : Observation CompleteBookSnapshot
  cumulativeVolume : Observation Volume
  annotations : MarketAnnotations
  valid : validateAuctionUnits quantity book cumulativeVolume = .ok ()
deriving DecidableEq

def IndicativeAuction.new (observation : AuctionObservation) (price : Observation Price)
    (quantity : Observation Quantity) (book : Observation CompleteBookSnapshot)
    (cumulativeVolume : Observation Volume) (annotations : MarketAnnotations) :
    Except EventError IndicativeAuction :=
  match h : validateAuctionUnits quantity book cumulativeVolume with
  | .ok () => .ok ⟨observation, price, quantity, book, cumulativeVolume, annotations, h⟩
  | .error e => .error e

def IndicativeAuction.withObservation (self : IndicativeAuction)
    (observation : AuctionObservation) :
    IndicativeAuction :=
  { self with observation := observation }

/-- A source observation that changes market status without publishing a book or trade. -/
@[ext] structure MarketStatusObservation where
  cumulativeVolume : Observation Volume
  annotations : MarketAnnotations
  marketSignal : Observation MarketSignal
deriving DecidableEq

def MarketStatusObservation.new (cumulativeVolume : Observation Volume)
    (annotations : MarketAnnotations) :
    MarketStatusObservation :=
  ⟨cumulativeVolume, annotations, .noObservation⟩

def MarketStatusObservation.withMarketSignal (self : MarketStatusObservation)
    (marketSignal : Observation MarketSignal) : MarketStatusObservation :=
  { self with marketSignal := marketSignal }

inductive EventPayload
  | quoteSnapshot (snapshot : QuoteSnapshot)
  | bookSnapshot (snapshot : BookSnapshot)
  | tradeBatch (batch : TradeBatch)
  | indicativeAuction (auction : IndicativeAuction)
  | marketStatus (status : MarketStatusObservation)
deriving DecidableEq

inductive EventKind | quoteSnapshot | bookSnapshot | tradeBatch | indicativeAuction | marketStatus
deriving DecidableEq

def EventKind.discriminant : EventKind → UInt8
  | .quoteSnapshot => 10
  | .bookSnapshot => 20
  | .tradeBatch => 30
  | .indicativeAuction => 40
  | .marketStatus => 50

def EventPayload.kind : EventPayload → EventKind
  | .quoteSnapshot _ => .quoteSnapshot
  | .bookSnapshot _ => .bookSnapshot
  | .tradeBatch _ => .tradeBatch
  | .indicativeAuction _ => .indicativeAuction
  | .marketStatus _ => .marketStatus

def EventPayload.discriminant (payload : EventPayload) : UInt8 := payload.kind.discriminant

def EventPayload.marketSignal : EventPayload → Observation MarketSignal
  | .quoteSnapshot snapshot => snapshot.marketSignal
  | .bookSnapshot snapshot => snapshot.marketSignal
  | .tradeBatch batch => batch.marketSignal
  | .indicativeAuction auction => .set (.auctionCollecting auction.observation)
  | .marketStatus status => status.marketSignal

/-- A source-independent, validated market event. -/
@[ext] structure DomainEvent where
  instrument : InstrumentId
  tradingDate : TradingDate
  sourceFormat : SourceFormatId
  matchTime : MatchTime
  sourceSequence : Option U64
  payload : EventPayload
deriving DecidableEq

end Osmium
