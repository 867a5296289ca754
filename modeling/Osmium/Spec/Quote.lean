import Osmium.Lib.Grouping
import Osmium.Spec.Decimal
import Osmium.Spec.Event
import Osmium.Spec.MarketState
import Osmium.Spec.Reducer
import Osmium.Spec.Sessions
import Osmium.Spec.Timestamp

/-! The normalizer of equity quotes. Records are read one by one, and realtime records of one match
time that hold intermediate prints are then put together into groups. The reader of JSON objects is
a parameter. -/

namespace Osmium
open Machine Bytes Result

section Annotations

inductive LimitPosition | normal | lowerLimit | upperLimit | reserved
deriving DecidableEq

def LimitPosition.fromBits (bits : UInt8) : LimitPosition :=
  if bits = 0 then .normal else if bits = 1 then .lowerLimit else if bits = 2 then
    .upperLimit else .reserved

inductive InstantTrend | normal | volatilityInterruptionDown | volatilityInterruptionUp | reserved
deriving DecidableEq

def InstantTrend.fromBits (bits : UInt8) : InstantTrend :=
  if bits = 0 then .normal else if bits = 1 then .volatilityInterruptionDown
  else if bits = 2 then .volatilityInterruptionUp else .reserved

def InstantTrend.interrupts : InstantTrend → Bool
  | .volatilityInterruptionDown | .volatilityInterruptionUp => true
  | .normal | .reserved => false

inductive QuoteMarket | twse | tpex
deriving DecidableEq

def QuoteMarket.marketId : QuoteMarket → MarketId
  | .twse => .twse
  | .tpex => .tpex

/-- twse, tpex -/
def QuoteMarket.wireName : QuoteMarket → Text
  | .twse => ⟨[116, 119, 115, 101], Eq.refl true⟩
  | .tpex => ⟨[116, 112, 101, 120], Eq.refl true⟩

/-- The two bytes of a quote header. Both markets use the same positions. -/
inductive QuoteAnnotations
  | twse (value : TwseQuoteAnnotations)
  | tpex (value : TpexQuoteAnnotations)
deriving DecidableEq

namespace QuoteAnnotations

def new (market : QuoteMarket) (status limits : UInt8) : QuoteAnnotations :=
  match market with
  | .twse => .twse ⟨status, limits⟩
  | .tpex => .tpex ⟨status, limits⟩

def statusFlagsRaw : QuoteAnnotations → UInt8
  | .twse value => value.statusFlagsRaw
  | .tpex value => value.statusFlagsRaw

def limitFlagsRaw : QuoteAnnotations → UInt8
  | .twse value => value.limitFlagsRaw
  | .tpex value => value.limitFlagsRaw

def intoMarketAnnotations : QuoteAnnotations → MarketAnnotations
  | .twse value => .twseQuote value
  | .tpex value => .tpexQuote value

variable (self : QuoteAnnotations)

def trial : Bool := self.statusFlagsRaw &&& 0x80 ≠ 0

def delayedOpen : Bool := self.trial && self.statusFlagsRaw &&& 0x40 ≠ 0

def delayedClose : Bool := self.trial && self.statusFlagsRaw &&& 0x20 ≠ 0

def openingMarker : Bool := self.statusFlagsRaw &&& 0x08 ≠ 0

def closingMarker : Bool := self.statusFlagsRaw &&& 0x04 ≠ 0

def reservedBits : UInt8 := self.statusFlagsRaw &&& 0x03

def tradeLimit : LimitPosition := .fromBits ((self.limitFlagsRaw >>> 6) &&& 0x03)

def bestBidLimit : LimitPosition := .fromBits ((self.limitFlagsRaw >>> 4) &&& 0x03)

def bestAskLimit : LimitPosition := .fromBits ((self.limitFlagsRaw >>> 2) &&& 0x03)

def instantTrend : InstantTrend := .fromBits (self.limitFlagsRaw &&& 0x03)

end QuoteAnnotations

def AuctionObservation.openingWithEvidence (delayed disposal : AuctionEvidence Bool) :
    AuctionObservation :=
  ⟨.known .opening, delayed, disposal, .noObservation⟩

def AuctionObservation.closingWithEvidence (delayed disposal : AuctionEvidence Bool) :
    AuctionObservation :=
  ⟨.known .closing, delayed, disposal, .noObservation⟩

def AuctionObservation.unclassified : AuctionObservation :=
  ⟨.noObservation, .noObservation, .noObservation, .noObservation⟩

/-- The interruption that the trend of a quote tells of; none for a trend that tells of none, where
the source aborts. -/
def volatilityObservation (annotations : QuoteAnnotations) : Option AuctionObservation :=
  match annotations.instantTrend with
  | .volatilityInterruptionDown =>
    some ⟨.known .volatilityInterruption, .noObservation, .noObservation, .known .down⟩
  | .volatilityInterruptionUp =>
    some ⟨.known .volatilityInterruption, .noObservation, .noObservation, .known .up⟩
  | .normal | .reserved => none

end Annotations

section Config

inductive InstrumentClass | equity | warrant
deriving DecidableEq

inductive ConfigError
  | wrongMarket (expected actual : MarketId)
  | invalidReplayWindow
deriving DecidableEq

/-- The identity of a source partition, and the half-open replay window. -/
structure NormalizerConfig where
  market : QuoteMarket
  instrument : InstrumentId
  tradingDate : TradingDate
  replayStart : MatchTime
  replayEndExclusive : MatchTime
  profile : InstrumentClass
  ownMarket : instrument.market = market.marketId
  window : replayStart < replayEndExclusive

def NormalizerConfig.new (market : QuoteMarket) (instrument : InstrumentId)
    (tradingDate : TradingDate)
    (replayStart replayEndExclusive : MatchTime) (profile : InstrumentClass) :
    Except ConfigError NormalizerConfig :=
  if ownMarket : instrument.market = market.marketId then
    if window : replayStart < replayEndExclusive then
      .ok ⟨market, instrument, tradingDate, replayStart, replayEndExclusive, profile,
        ownMarket, window⟩
    else .error .invalidReplayWindow
  else .error (.wrongMarket market.marketId instrument.market)

end Config

section Wire

structure WireEnvelope where
  recordType : Text
  market : Text
  format : Text
  symbol : Text
  matchTime : Text
  receivedAt : Text

/-- The price is the text of a JSON value that is not read yet. -/
structure WireLevel where
  price : Text
  quantity : U64

structure WireQuote where
  bids : List WireLevel
  asks : List WireLevel
  deal : Text
  cumVolume : U64
  limitFlags : UInt8
  statusFlags : UInt8
  intermediatePrint : Bool

structure WireDeal where
  price : Text
  quantity : U64

/-- The reader of JSON objects, by the type it is asked for. A refusal has a message. -/
structure QuoteReader where
  envelope : Text → Except Text WireEnvelope
  quote : Text → Except Text WireQuote
  deal : Text → Except Text WireDeal

structure RecordContext where
  market : QuoteMarket
  instrument : InstrumentId
  tradingDate : TradingDate
  sourceFormat : Option Text
  matchTimeText : Option Text
  matchTime : Option MatchTime
deriving DecidableEq

def RecordContext.partition (config : NormalizerConfig) : RecordContext :=
  ⟨config.market, config.instrument, config.tradingDate, none, none, none⟩

inductive KnownSkipReason | intradayOddLot
deriving DecidableEq

structure KnownSkipped where
  context : RecordContext
  reason : KnownSkipReason
deriving DecidableEq

inductive WarningKind
  | reservedStatusBits (bits : UInt8)
  | reservedTradeLimit
  | reservedBestBidLimit
  | reservedBestAskLimit
  | reservedInstantTrend
deriving DecidableEq

structure NormalizationWarning where
  context : RecordContext
  kind : WarningKind
deriving DecidableEq

inductive RealtimeGroupError
  | expectedOneIntermediateAndOneFinal (records : ℕ)
  | intermediateDealMissing
  | finalDealMissing
  | cumulativeVolumeMismatch
  | mixedAuctionTrialState
deriving DecidableEq

inductive PriceError
  | invalidDecimal (error : DecimalError)
  | nonPositive
deriving DecidableEq

inductive IdentityField | recordType | market | symbol
deriving DecidableEq

inductive PriceFieldName | bookLevelPrice | dealPrice
deriving DecidableEq

inductive QuantityFieldName | bookLevelQuantity | dealQuantity
deriving DecidableEq

/-- The messages of refused payloads. -/
inductive PayloadFault
  | snapshotIsIntermediate
  | zeroQuantityDeal
  | intermediateNotRealtime
  | intermediateWithBook
  | intermediateWithoutDeal
  | marketOrderLevelNotFirst
  | finalWithoutBook
  | delayedOpenAndClose
  | notOneAuctionPhase
deriving DecidableEq

/-- `panicked` stands for the `expect`s and the unreachable branch. -/
inductive NormalizationErrorKind
  | invalidJson (message : Text)
  | invalidIdentity (field : IdentityField) (expected actual : Text)
  | unsupportedFormat (format : Text)
  | invalidMatchTime (error : MatchTimeError)
  | invalidReceivedAt (error : MatchTimeError)
  | invalidPrice (field : PriceFieldName) (error : PriceError)
  | invalidQuantity (field : QuantityFieldName) (error : QuantityError)
  | invalidBook (error : BookError)
  | invalidEvent (error : EventError)
  | invalidPayload (fault : PayloadFault)
  | unsupportedRealtimeMatchGroup (error : RealtimeGroupError)
  | panicked
deriving DecidableEq

structure NormalizationError where
  recordNumber : ℕ
  context : RecordContext
  kind : NormalizationErrorKind
deriving DecidableEq

inductive WireFormat | stockSnapshot | stockRealtime
deriving DecidableEq

structure ValidatedRecord where
  recordNumber : ℕ
  context : RecordContext
  format : WireFormat
  sourceFormat : SourceFormatId
  matchTime : MatchTime
  intermediate : Bool
  book : Option CompleteBookSnapshot
  deal : Option ObservedTrade
  dealZeroQuantity : Bool
  cumulativeVolume : Volume
  annotations : QuoteAnnotations
deriving DecidableEq

inductive ClassifiedRecord
  | accepted (record : ValidatedRecord) (warnings : List NormalizationWarning)
  | outsideReplayWindow (context : RecordContext)
  | knownSkipped (skipped : KnownSkipped)

end Wire

section Record
variable (recordNumber : ℕ) (context : RecordContext)

def validateIdentity (field : IdentityField) (expected actual : Text) :
    Except NormalizationError Unit :=
  ensure (expected = actual) ⟨recordNumber, context, .invalidIdentity field expected actual⟩

def Price.positive (value : Decimal) : Except PriceError Price :=
  if 0 < value.atoms.val then .ok ⟨value⟩ else .error .nonPositive

def Price.parse (input : Text) : Except PriceError Price :=
  ((Decimal.parse input.bytes).map Price.mk).mapError .invalidDecimal

def Price.parsePositive (input : Text) : Except PriceError Price := do
  let value ← (Decimal.parse input.bytes).mapError .invalidDecimal
  Price.positive value

def parsePrice (field : PriceFieldName) (raw : Text) : Except NormalizationError Price :=
  (Price.parsePositive raw).mapError fun error => ⟨recordNumber, context, .invalidPrice field error⟩

/-- A price of zero stands for the orders at the market, and is none. -/
def parseBookPrice (raw : Text) : Except NormalizationError (Option Price) := do
  let refuse (error : PriceError) : NormalizationError :=
    ⟨recordNumber, context, .invalidPrice .bookLevelPrice error⟩
  let price ← (Price.parse raw).mapError refuse
  if price.atoms.val = 0 then return none
  else return some (← (Price.positive price.value).mapError refuse)

def BookSide.withMarketOrderQuantity (kind : BookSideKind) (marketOrderQuantity : Option Quantity)
    (levels : List BookLevel) : Except BookError BookSide := do
  ensure (levels.length ≤ bookDepth) (.tooManyLevels kind levels.length)
  BookSide.fromParts kind marketOrderQuantity (Vector.ofFn fun index => levels[index.val]?)

/-- The loop of `parse_side`: the levels from an index on, and the quantity at the market when it
comes first. -/
def parseLevels : List WireLevel → ℕ → Except NormalizationError (Option Quantity × List BookLevel)
  | [], _ => .ok (none, [])
  | wire :: rest, index => do
    let quantity ← (Quantity.new wire.quantity .tradingUnit).mapError fun error =>
      ⟨recordNumber, context, .invalidQuantity .bookLevelQuantity error⟩
    match ← parseBookPrice recordNumber context wire.price with
    | some price =>
      let (marketOrderQuantity, levels) ← parseLevels rest (index + 1)
      return (marketOrderQuantity, ⟨price, quantity⟩ :: levels)
    | none =>
      ensure (index = 0) ⟨recordNumber, context, .invalidPayload .marketOrderLevelNotFirst⟩
      let (_, levels) ← parseLevels rest (index + 1)
      return (some quantity, levels)

def parseSide (kind : BookSideKind) (wireLevels : List WireLevel) :
    Except NormalizationError BookSide := do
  let (marketOrderQuantity, levels) ← parseLevels recordNumber context wireLevels 0
  (BookSide.withMarketOrderQuantity kind marketOrderQuantity levels).mapError fun error =>
    ⟨recordNumber, context, .invalidBook error⟩

def parseBook (bids asks : List WireLevel) : Except NormalizationError CompleteBookSnapshot := do
  let bids ← parseSide recordNumber context .bid bids
  let asks ← parseSide recordNumber context .ask asks
  (CompleteBookSnapshot.new bids asks).mapError fun error =>
    ⟨recordNumber, context, .invalidBook error⟩

/-- null -/
def nullText : List UInt8 := [110, 117, 108, 108]

/-- The deal of a quote, and whether it is one of quantity zero. -/
def parseDeal (reader : QuoteReader) (raw : Text) :
    Except NormalizationError (Option ObservedTrade × Bool) :=
  if raw.bytes = nullText then .ok (none, false)
  else do
    let wire ← (reader.deal raw).mapError fun message =>
        ⟨recordNumber, context, .invalidJson message⟩
    let price ← parsePrice recordNumber context .dealPrice wire.price
    if wire.quantity.val = 0 then return (none, true)
    else
      let quantity ← (Quantity.new wire.quantity .tradingUnit).mapError fun error =>
        ⟨recordNumber, context, .invalidQuantity .dealQuantity error⟩
      return (some ⟨price, quantity, .regular⟩, false)

def annotationWarnings (annotations : QuoteAnnotations) : List NormalizationWarning :=
  let warn (reserved : Bool) (kind : WarningKind) : List NormalizationWarning :=
    if reserved then [⟨context, kind⟩] else []
  warn (annotations.reservedBits ≠ 0) (.reservedStatusBits annotations.reservedBits) ++
    warn (annotations.tradeLimit = .reserved) .reservedTradeLimit ++
    warn (annotations.bestBidLimit = .reserved) .reservedBestBidLimit ++
    warn (annotations.bestAskLimit = .reserved) .reservedBestAskLimit ++
    warn (annotations.instantTrend = .reserved) .reservedInstantTrend

/-- INTRADAY_ODDLOT_REALTIME -/
def intradayOddlotRealtime : Text :=
  ⟨[73, 78, 84, 82, 65, 68, 65, 89, 95, 79, 68, 68, 76, 79, 84, 95, 82, 69, 65, 76, 84, 73, 77,
    69], by decide⟩

/-- What a format of the wire is for an instrument class. -/
def wireFormat (profile : InstrumentClass) (format : Text) : Option WireFormat :=
  match profile with
  | .equity =>
    if format = MarketStateProfile.stockSnapshot.text then some .stockSnapshot
    else if format = stockRealtime.text then some .stockRealtime else none
  | .warrant =>
    if format = MarketStateProfile.warrantSnapshot.text then some .stockSnapshot
    else if format = MarketStateProfile.warrantRealtime.text then some .stockRealtime else none

/-- The book of a record: none for an intermediate print, which must have empty sides and a deal. -/
def recordBook (format : WireFormat) (wire : WireQuote) (deal : Option ObservedTrade) :
    Except NormalizationError (Option CompleteBookSnapshot) :=
  let refuse (fault : PayloadFault) : NormalizationError :=
    ⟨recordNumber, context, .invalidPayload fault⟩
  if wire.intermediatePrint = true then do
    ensure (format = .stockRealtime) (refuse .intermediateNotRealtime)
    ensure (wire.bids.isEmpty = true ∧ wire.asks.isEmpty = true) (refuse .intermediateWithBook)
    ensure (deal.isSome = true) (refuse .intermediateWithoutDeal)
    return none
  else return some (← parseBook recordNumber context wire.bids wire.asks)

/-- What is read of a record inside the replay window. -/
def parseQuote (config : NormalizerConfig) (reader : QuoteReader) (json : Text)
    (envelope : WireEnvelope)
    (format : WireFormat) (matchTime : MatchTime) : Except NormalizationError ClassifiedRecord := do
  let refuse (fault : PayloadFault) : NormalizationError :=
    ⟨recordNumber, context, .invalidPayload fault⟩
  let wire ← (reader.quote json).mapError fun message =>
      ⟨recordNumber, context, .invalidJson message⟩
  ensure (¬ (format = .stockSnapshot ∧ wire.intermediatePrint = true))
    (refuse .snapshotIsIntermediate)
  let annotations := QuoteAnnotations.new config.market wire.statusFlags wire.limitFlags
  let (deal, dealZeroQuantity) ← parseDeal recordNumber context reader wire.deal
  ensure (dealZeroQuantity = true → annotations.instantTrend.interrupts = true ∧
    wire.intermediatePrint = false ∧
    wire.bids.isEmpty = true ∧ wire.asks.isEmpty = true) (refuse .zeroQuantityDeal)
  let book ← recordBook recordNumber context format wire deal
  let sourceFormat ← (SourceFormatId.new envelope.format).mapError fun _ =>
      ⟨recordNumber, context, .panicked⟩
  return .accepted {
    recordNumber := recordNumber
    context := context
    format := format
    sourceFormat := sourceFormat
    matchTime := matchTime
    intermediate := wire.intermediatePrint
    book := book
    deal := deal
    dealZeroQuantity := dealZeroQuantity
    cumulativeVolume := ⟨wire.cumVolume, .tradingUnit⟩
    annotations := annotations } (annotationWarnings context annotations)

end Record

/-- quote -/
def quoteType : Text := ⟨[113, 117, 111, 116, 101], Eq.refl true⟩

def parseRecord (config : NormalizerConfig) (reader : QuoteReader) (recordNumber : ℕ)
    (json : Text) :
    Except NormalizationError ClassifiedRecord := do
  let partition := RecordContext.partition config
  let envelope ← (reader.envelope json).mapError fun message =>
      ⟨recordNumber, partition, .invalidJson message⟩
  let context :=
    { partition with
      sourceFormat := some envelope.format, matchTimeText := some envelope.matchTime }
  validateIdentity recordNumber context .recordType quoteType envelope.recordType
  validateIdentity recordNumber context .market config.market.wireName envelope.market
  validateIdentity recordNumber context .symbol config.instrument.symbol.text envelope.symbol
  let matchTime ← (MatchTime.parse envelope.matchTime.bytes).mapError fun error =>
    ⟨recordNumber, context, .invalidMatchTime error⟩
  let context := { context with matchTime := some matchTime }
  let _ ← (MatchTime.parse envelope.receivedAt.bytes).mapError fun error =>
    ⟨recordNumber, context, .invalidReceivedAt error⟩
  match wireFormat config.profile envelope.format with
  | some format =>
    if matchTime < config.replayStart ∨
      config.replayEndExclusive ≤ matchTime then return .outsideReplayWindow context
    else parseQuote recordNumber context config reader json envelope format matchTime
  | none =>
    if envelope.format = intradayOddlotRealtime then return .knownSkipped ⟨context, .intradayOddLot⟩
    else throw ⟨recordNumber, context, .unsupportedFormat envelope.format⟩

namespace QuoteNormalizer

section Events
variable (config : NormalizerConfig)

def invalidPayload (record : ValidatedRecord) (fault : PayloadFault) : NormalizationError :=
  ⟨record.recordNumber, record.context, .invalidPayload fault⟩

def groupError (record : ValidatedRecord) (error : RealtimeGroupError) : NormalizationError :=
  ⟨record.recordNumber, record.context, .unsupportedRealtimeMatchGroup error⟩

def eventError (record : ValidatedRecord) (error : EventError) : NormalizationError :=
  ⟨record.recordNumber, record.context, .invalidEvent error⟩

def domainEvent (record : ValidatedRecord) (payload : EventPayload) : DomainEvent :=
  ⟨config.instrument, config.tradingDate, record.sourceFormat, record.matchTime, none, payload⟩

def sessionTime (record : ValidatedRecord) (time : List UInt8) :
    Except NormalizationError MatchTime :=
  (MatchTime.parse (config.tradingDate.display ++ [84] ++ time ++ taipeiOffset)).mapError fun _ =>
    ⟨record.recordNumber, record.context, .panicked⟩

/-- The auction of a trial quote by the auctions that its markers and its time speak for. -/
def trialPhase (record : ValidatedRecord) :
    (opening closing : Bool) → Except NormalizationError (Option AuctionObservation)
  | true, false => .ok (some (.openingWithEvidence .noObservation .noObservation))
  | false, true => .ok (some (.closingWithEvidence .noObservation .noObservation))
  | false, false => .ok (some .unclassified)
  | true, true => .error (invalidPayload record .notOneAuctionPhase)

/-- The auction a trial quote belongs to. -/
def auctionPhase (record : ValidatedRecord) :
    Except NormalizationError (Option AuctionObservation) :=
  let annotations := record.annotations
  if annotations.trial = false then .ok none
  else if annotations.delayedOpen = true ∧ annotations.delayedClose = true then
    .error (invalidPayload record .delayedOpenAndClose)
  else if annotations.delayedOpen = true then
    .ok (some (.openingWithEvidence (.known true) .noObservation))
  else if annotations.delayedClose = true then
    .ok (some (.closingWithEvidence (.known true) .noObservation))
  else do
    let openingWindowStart ← sessionTime config record (clockText 8 30 0)
    let openingWindowEnd ← sessionTime config record (clockText 9 0 0)
    let closingWindowStart ← sessionTime config record (clockText 13 25 0)
    let closingWindowEnd ← sessionTime config record (clockText 13 30 0)
    let inOpeningWindow :=
      openingWindowStart ≤ record.matchTime ∧ record.matchTime < openingWindowEnd
    let inClosingWindow :=
      closingWindowStart ≤ record.matchTime ∧ record.matchTime < closingWindowEnd
    let opening := annotations.delayedOpen || annotations.openingMarker || inOpeningWindow
    let closing := annotations.delayedClose || annotations.closingMarker || inClosingWindow
    trialPhase record opening closing

def firmMarketSignal (record : ValidatedRecord) : Observation MarketSignal :=
  let annotations := record.annotations
  if annotations.reservedBits ≠ 0 ∨ annotations.instantTrend = .reserved ∨
    annotations.tradeLimit = .reserved ∨
      annotations.bestBidLimit = .reserved ∨ annotations.bestAskLimit = .reserved then
    .unknown
      (.unsigned
        (Unsigned.wrap 64
          (annotations.statusFlagsRaw.toNat * 256 + annotations.limitFlagsRaw.toNat)))
  else .set (
    if annotations.openingMarker = true then
      .auctionUncross (.openingWithEvidence .noObservation .noObservation)
    else if annotations.closingMarker = true then
      .auctionUncross (.closingWithEvidence .noObservation .noObservation)
    else match volatilityObservation annotations with
      | some observation => .auctionCollecting observation
      | none => .continuous)

def isStatusOnlyPause (record : ValidatedRecord) : Bool :=
  !record.annotations.trial && record.annotations.instantTrend.interrupts && record.deal.isNone &&
    record.book.any fun book => book.bids.marketOrderQuantity.isNone &&
      book.asks.marketOrderQuantity.isNone &&
      book.bids.levels.isEmpty && book.asks.levels.isEmpty

def auctionEvent (record : ValidatedRecord) (observation : AuctionObservation)
    (book : Observation CompleteBookSnapshot) : Except NormalizationError DomainEvent := do
  let (price, quantity) := match record.deal with
    | some trade => (Observation.set trade.price, Observation.set trade.quantity)
    | none => (.noObservation, .noObservation)
  let auction ←
      (IndicativeAuction.new observation price quantity book (.set record.cumulativeVolume)
      record.annotations.intoMarketAnnotations).mapError (eventError record)
  return domainEvent config record (.indicativeAuction auction)

/-- A quote that only says that matching is paused is a status. -/
def pauseEvent (record : ValidatedRecord) : Except NormalizationError DomainEvent := do
  let observation ← okOr ⟨record.recordNumber, record.context, .panicked⟩
      (volatilityObservation record.annotations)
  let status := (MarketStatusObservation.new (.set record.cumulativeVolume)
    record.annotations.intoMarketAnnotations).withMarketSignal
      (.set (.auctionCollecting observation))
  return domainEvent config record (.marketStatus status)

def snapshotEvent (record : ValidatedRecord) (book : CompleteBookSnapshot) :
    Except NormalizationError DomainEvent := do
  let trade := match record.deal with
    | some trade => .set trade
    | none => .noObservation
  let snapshot ← (QuoteSnapshot.new book trade (.set record.cumulativeVolume)
    record.annotations.intoMarketAnnotations).mapError (eventError record)
  return domainEvent config record
    (.quoteSnapshot (snapshot.withMarketSignal (firmMarketSignal record)))

def finalEvent (record : ValidatedRecord) : Except NormalizationError DomainEvent :=
  if record.intermediate = true then
    .error (groupError record (.expectedOneIntermediateAndOneFinal 1))
  else if isStatusOnlyPause record = true then pauseEvent config record
  else do
    let book ← okOr (invalidPayload record .finalWithoutBook) record.book
    match ← auctionPhase config record with
    | some phase => auctionEvent config record phase (.set book)
    | none => snapshotEvent config record book

/-- The deal of an intermediate print. -/
def intermediateTrade (record : ValidatedRecord) : Except NormalizationError ObservedTrade := do
  let trade ← okOr (groupError record .intermediateDealMissing) record.deal
  return { trade with observationKind := .intermediate }

/-- A batch of trades at the annotations of one record and the cumulative volume of another. -/
def batchEvent (record : ValidatedRecord) (trades : List ObservedTrade)
    (cumulativeVolume : Volume) :
    Except NormalizationError DomainEvent := do
  let batch ← (TradeBatch.new trades .sourceSequencePreserved (.set cumulativeVolume)
    record.annotations.intoMarketAnnotations).mapError (eventError record)
  return domainEvent config record (.tradeBatch (batch.withMarketSignal (firmMarketSignal record)))

def intermediateEvent (record : ValidatedRecord) : Except NormalizationError DomainEvent := do
  let trade ← intermediateTrade record
  match ← auctionPhase config record with
  | some phase => auctionEvent config record phase .noObservation
  | none => batchEvent config record [trade] record.cumulativeVolume

/-- All intermediate prints of a group as one batch; the group has at least the first. -/
def intermediateBatchEvent (first : ValidatedRecord) (rest : List ValidatedRecord) :
    Except NormalizationError DomainEvent := do
  let trades ← (first :: rest).mapM intermediateTrade
  batchEvent config first trades ((first :: rest).getLast (by simp)).cumulativeVolume

end Events

section Groups
variable (config : NormalizerConfig)

def Volume.checkedAdd (self other : Volume) : Option Volume :=
  if self.unit = other.unit then (self.value.checkedAdd other.value).map fun value =>
    ⟨value, self.unit⟩ else none

/-- Every intermediate print must be of the phase of the first. -/
def checkPhases (first : ValidatedRecord) (phase : Option AuctionObservation) :
    List ValidatedRecord → Except NormalizationError Unit
  | [] => .ok ()
  | record :: rest => do
    let own ← auctionPhase config record
    ensure (own = phase) (groupError first .mixedAuctionTrialState)
    checkPhases first phase rest

/-- The cumulative volume that the final record of a group must report. -/
def expectedFinal (first last final : ValidatedRecord) : Except NormalizationError Volume :=
  match final.deal with
  | some trade => okOr (groupError first .cumulativeVolumeMismatch)
    (Volume.checkedAdd last.cumulativeVolume ⟨trade.quantity.value, trade.quantity.unit⟩)
  | none =>
    if final.dealZeroQuantity = true then .ok last.cumulativeVolume else
      .error (groupError first .finalDealMissing)

/-- A group of intermediate prints, `head` and `tail`, and the one final record. -/
def groupEvents (first head : ValidatedRecord) (tail : List ValidatedRecord)
    (final : ValidatedRecord) :
    Except NormalizationError (List DomainEvent) := do
  let intermediatePhase ← auctionPhase config head
  let finalPhase ← auctionPhase config final
  checkPhases config first intermediatePhase (head :: tail)
  ensure (intermediatePhase = finalPhase) (groupError first .mixedAuctionTrialState)
  if intermediatePhase.isSome = true then
    let events ← (head :: tail).mapM (intermediateEvent config)
    return events ++ [← finalEvent config final]
  else
    let expected ← expectedFinal first ((head :: tail).getLast (by simp)) final
    ensure (final.cumulativeVolume = expected) (groupError first .cumulativeVolumeMismatch)
    let batch ← intermediateBatchEvent config head tail
    return [batch, ← finalEvent config final]

def normalizeIntermediateGroup (first : ValidatedRecord) (rest : List ValidatedRecord) :
    Except NormalizationError (List DomainEvent) :=
  let group := first :: rest
  match group.filter (fun record => record.intermediate),
    group.filter (fun record => !record.intermediate) with
  | head :: tail, [final] => groupEvents config first head tail final
  | _, _ => .error (groupError first (.expectedOneIntermediateAndOneFinal group.length))

/-- The positions of the realtime records of each match time. -/
def realtimeGroups (records : List ValidatedRecord) : Std.ExtTreeMap MatchTime (List ℕ) :=
  records.zipIdx.foldl (Grouping.collect (fun entry => entry.1.format = .stockRealtime)
    (fun entry => entry.1.matchTime)
    Prod.snd) ∅

/-- The events of the groups at the position of their first record, and the records they took. -/
structure GroupedEvents where
  events : Std.ExtTreeMap ℕ (List DomainEvent)
  consumed : List Bool

def groupIntermediates (records : List ValidatedRecord) : List (List ℕ) → GroupedEvents →
    Except NormalizationError GroupedEvents
  | [], grouped => .ok grouped
  | indices :: rest, grouped =>
    match indices.filterMap fun index => records[index]? with
    | [] => groupIntermediates records rest grouped
    | first :: others =>
      if (first :: others).any (fun record => record.intermediate) = false then
        groupIntermediates records rest grouped
      else do
        let anchor := indices.min?.getD 0
        let events ← normalizeIntermediateGroup config first others
        groupIntermediates records rest ⟨grouped.events.insert anchor events,
          indices.foldl (fun consumed index => consumed.set index true) grouped.consumed⟩

def emitEvents (grouped : GroupedEvents) :
    List (ValidatedRecord × ℕ) → Except NormalizationError (List DomainEvent)
  | [] => .ok []
  | (record, index) :: rest => do
    let group := grouped.events[index]?.getD []
    if grouped.consumed[index]?.getD false = true then return group ++ (← emitEvents grouped rest)
    else
      let event ← finalEvent config record
      return group ++ event :: (← emitEvents grouped rest)

def normalizeGroups (records : List ValidatedRecord) :
    Except NormalizationError (List DomainEvent) := do
  let grouped ← groupIntermediates config records ((realtimeGroups records).toList.map Prod.snd)
    ⟨∅, List.replicate records.length false⟩
  emitEvents config grouped records.zipIdx

end Groups

section Lines
variable (config : NormalizerConfig) (reader : QuoteReader)

structure NormalizationReport where
  inputRecords : ℕ
  events : List DomainEvent
  outsideReplayWindow : List RecordContext
  knownSkipped : List KnownSkipped
  warnings : List NormalizationWarning

/-- The records of the lines from an index on, by class. -/
structure ClassifiedLines where
  inputRecords : ℕ
  records : List ValidatedRecord
  outsideReplayWindow : List RecordContext
  knownSkipped : List KnownSkipped
  warnings : List NormalizationWarning

def ClassifiedLines.add (later : ClassifiedLines) (classified : ClassifiedRecord) :
    ClassifiedLines :=
  let counted := { later with inputRecords := later.inputRecords + 1 }
  match classified with
  | .accepted record warnings =>
    { counted with records := record :: later.records, warnings := warnings ++ later.warnings }
  | .outsideReplayWindow context =>
    { counted with outsideReplayWindow := context :: later.outsideReplayWindow }
  | .knownSkipped skipped => { counted with knownSkipped := skipped :: later.knownSkipped }

def classifyLines : List Text → ℕ → Except NormalizationError ClassifiedLines
  | [], _ => .ok ⟨0, [], [], [], []⟩
  | line :: rest, index => do
    let classified ← parseRecord config reader (index + 1) line
    let later ← classifyLines rest (index + 1)
    return later.add classified

def normalizeJsonLines (lines : List Text) : Except NormalizationError NormalizationReport := do
  let classified ← classifyLines config reader lines 0
  let events ← normalizeGroups config classified.records
  return {
    inputRecords := classified.inputRecords
    events := events
    outsideReplayWindow := classified.outsideReplayWindow
    knownSkipped := classified.knownSkipped
    warnings := classified.warnings }

end Lines

end QuoteNormalizer

end Osmium
