import Osmium.Lib.Codec
import Osmium.Spec.Event

/-! The canonical event frame. Encoders return the bytes that `append_canonical` appends; the
parser state is the input that is still to be read. -/

namespace Osmium
open Machine Bytes Codec Result

inductive CanonicalEncodingError | lengthOverflow | invalidMatchTime
deriving DecidableEq

abbrev Encoding := Except CanonicalEncodingError (List UInt8)

def appendLength (length : ℕ) : Encoding := do
  let length ← okOr .lengthOverflow (Unsigned.ofNat? 32 length)
  return ofUnsigned 4 length

def appendBytes (value : List UInt8) : Encoding := appendLength value.length ++ .ok value

def appendOptionalU64 : Option U64 → Encoding
  | none => .ok [0]
  | some value => .ok (1 :: ofUnsigned 8 value)

def Decimal.toCanonicalBytes (d : Decimal) : List UInt8 := ofSigned 16 d.atoms

def Price.toCanonicalBytes (p : Price) : List UInt8 := p.value.toCanonicalBytes

def Quantity.toCanonicalBytes (q : Quantity) : List UInt8 :=
  q.unit.discriminant :: ofUnsigned 8 q.value

def Volume.toCanonicalBytes (v : Volume) : List UInt8 := v.unit.discriminant :: ofUnsigned 8 v.value

def TradingDate.toCanonicalBytes (d : TradingDate) : List UInt8 := ofSigned 4 d.epochDays

/-- A zero byte for an absent value, a one byte before a present one. -/
def appendOption {α : Type} (bytes : α → List UInt8) : Option α → Encoding
  | none => .ok [0]
  | some value => .ok (1 :: bytes value)

def BookLevel.toCanonicalBytes (level : BookLevel) : List UInt8 :=
  level.price.toCanonicalBytes ++ level.displayedQuantity.toCanonicalBytes

def BookSide.appendCanonical (side : BookSide) : Encoding :=
  appendOption Quantity.toCanonicalBytes side.marketOrderQuantity ++
    encodeAll (appendOption BookLevel.toCanonicalBytes) side.slots.toList

def CompleteBookSnapshot.appendCanonical (book : CompleteBookSnapshot) : Encoding :=
  book.bids.appendCanonical ++ book.asks.appendCanonical

def ObservedTrade.appendCanonical (trade : ObservedTrade) : Encoding :=
  .ok (trade.price.toCanonicalBytes ++ trade.quantity.toCanonicalBytes ++
    [trade.observationKind.discriminant])

def Volume.appendCanonical (v : Volume) : Encoding := .ok v.toCanonicalBytes

def Price.appendCanonical (p : Price) : Encoding := .ok p.toCanonicalBytes

def Quantity.appendCanonical (q : Quantity) : Encoding := .ok q.toCanonicalBytes

def MarketAnnotations.appendCanonical (annotations : MarketAnnotations) : Encoding :=
  .ok (annotations.discriminant :: match annotations with
    | .twseQuote flags => [flags.statusFlagsRaw, flags.limitFlagsRaw]
    | .tpexQuote flags => [flags.statusFlagsRaw, flags.limitFlagsRaw]
    | .none => [])

def UnknownValue.appendCanonical (value : UnknownValue) : Encoding :=
  .ok [value.discriminant] ++ match value with
    | .unsigned value => .ok (ofUnsigned 8 value)
    | .signed value => .ok (ofSigned 8 value)
    | .decimal value => .ok value.toCanonicalBytes
    | .text value => appendBytes value.bytes
    | .bytes value => appendBytes value

def Observation.appendCanonical {α : Type} (enc : α → Encoding)
    (observation : Observation α) : Encoding :=
  .ok [observation.discriminant] ++ match observation with
    | .set value => enc value
    | .unknown value => value.appendCanonical
    | .noObservation | .clear => .ok []

/-- The three encoders of auction evidence differ in the byte of a known value. -/
def AuctionEvidence.appendCanonical {α : Type} (discriminant : α → UInt8) :
    AuctionEvidence α → Encoding
  | .noObservation => .ok [0]
  | .known value => .ok [1, discriminant value]
  | .unknown => .ok [2]

def AuctionObservation.appendCanonical (observation : AuctionObservation) : Encoding :=
  observation.purpose.appendCanonical AuctionPurpose.discriminant ++
  observation.delayed.appendCanonical Bool.toUInt8 ++
  observation.disposal.appendCanonical Bool.toUInt8 ++
  observation.direction.appendCanonical VolatilityDirection.discriminant

def MarketSignal.appendCanonical (signal : MarketSignal) : Encoding :=
  .ok [signal.discriminant] ++ match signal with
    | .auctionCollecting observation | .auctionUncross observation => observation.appendCanonical
    | .continuous | .closed => .ok []

def IndicativeAuction.appendCanonical (auction : IndicativeAuction) : Encoding :=
  auction.observation.appendCanonical ++
  auction.price.appendCanonical Price.appendCanonical ++
  auction.quantity.appendCanonical Quantity.appendCanonical ++
  auction.book.appendCanonical CompleteBookSnapshot.appendCanonical ++
  auction.cumulativeVolume.appendCanonical Volume.appendCanonical ++
  auction.annotations.appendCanonical

def encodePayload : EventPayload → Encoding
  | .quoteSnapshot snapshot =>
    snapshot.book.appendCanonical ++
    snapshot.trade.appendCanonical ObservedTrade.appendCanonical ++
    snapshot.cumulativeVolume.appendCanonical Volume.appendCanonical ++
    snapshot.annotations.appendCanonical ++
    snapshot.marketSignal.appendCanonical MarketSignal.appendCanonical
  | .bookSnapshot snapshot =>
    snapshot.book.appendCanonical ++
    snapshot.annotations.appendCanonical ++
    snapshot.marketSignal.appendCanonical MarketSignal.appendCanonical
  | .tradeBatch batch =>
    appendLength batch.trades.length ++
    encodeAll ObservedTrade.appendCanonical batch.trades ++
    .ok [batch.tradeOrder.discriminant] ++
    batch.cumulativeVolume.appendCanonical Volume.appendCanonical ++
    batch.annotations.appendCanonical ++
    batch.marketSignal.appendCanonical MarketSignal.appendCanonical
  | .indicativeAuction auction => auction.appendCanonical
  | .marketStatus status =>
    status.cumulativeVolume.appendCanonical Volume.appendCanonical ++
    status.annotations.appendCanonical ++
    status.marketSignal.appendCanonical MarketSignal.appendCanonical

def eventSchemaVersion : U16 := ⟨9, by decide⟩

def canonicalEventVersion : U16 := ⟨9, by decide⟩

/-- The bytes of `OSME`. -/
def canonicalMagic : List UInt8 := [79, 83, 77, 69]

def canonicalTradeBytes : ℕ := 16 + 9 + 1

def minTradeBatchSuffixBytes : ℕ := 1 + 1 + 1

/-- Encodes the current canonical event frame. -/
def DomainEvent.toCanonicalBytes (e : DomainEvent) : Encoding :=
  if e.matchTime.isUtcIso8601Representable = false then .error .invalidMatchTime
  else
    .ok canonicalMagic ++
    .ok (ofUnsigned 2 canonicalEventVersion) ++
    .ok (ofUnsigned 2 eventSchemaVersion) ++
    .ok [e.instrument.market.discriminant] ++
    appendBytes e.instrument.symbol.text.bytes ++
    .ok e.tradingDate.toCanonicalBytes ++
    appendBytes e.sourceFormat.text.bytes ++
    .ok (ofSigned 8 e.matchTime.unixMicroseconds) ++
    appendOptionalU64 e.sourceSequence ++
    .ok [e.payload.discriminant] ++
    encodePayload e.payload

inductive CanonicalDecodingError
  | truncated | lengthOutOfBounds | unsupportedHeader | invalidUtf8 | invalidValue | trailingBytes
deriving DecidableEq

abbrev CanonicalParser := Parser CanonicalDecodingError

namespace CanonicalParser

/-- A constructor's refusal, whatever its reason, is `InvalidValue`. -/
def validated {ε α : Type} (x : Except ε α) : CanonicalParser α :=
  liftM (x.mapError fun _ => CanonicalDecodingError.invalidValue)

def present {α : Type} (x : Option α) : CanonicalParser α :=
  liftM (okOr CanonicalDecodingError.invalidValue x)

def take (length : ℕ) : CanonicalParser (List UInt8) := Codec.take .truncated length

def u8 : CanonicalParser UInt8 := do return (← take 1).headD 0

def u16 : CanonicalParser U16 := do return toUnsigned 16 (← take 2)

def u32 : CanonicalParser U32 := do return toUnsigned 32 (← take 4)

def i32 : CanonicalParser I32 := do return toSigned 32 (← take 4)

def u64 : CanonicalParser U64 := do return toUnsigned 64 (← take 8)

def i64 : CanonicalParser I64 := do return toSigned 64 (← take 8)

def i128 : CanonicalParser I128 := do return toSigned 128 (← take 16)

def bytes : CanonicalParser (List UInt8) := do
  let length ← u32
  take length.val

def string : CanonicalParser Text := do
  let value ← bytes
  if h : isUtf8 value = true then return ⟨value, h⟩ else throw .invalidUtf8

def price : CanonicalParser Price := do return ⟨⟨← i128⟩⟩

def quantity : CanonicalParser Quantity := do
  let unit ← validated (QuantityUnit.fromDiscriminant (← u8))
  validated (Quantity.new (← u64) unit)

def volume : CanonicalParser Volume := do
  let unit ← validated (QuantityUnit.fromDiscriminant (← u8))
  return ⟨← u64, unit⟩

def tradeObservationKind : CanonicalParser TradeObservationKind := do
  match ← u8 with
  | 0 => return .regular
  | 1 => return .intermediate
  | _ => throw .invalidValue

def trade : CanonicalParser ObservedTrade := do
  let price ← price
  let quantity ← quantity
  let kind ← tradeObservationKind
  return ⟨price, quantity, kind⟩

/-- A presence byte, then the value when it is one. -/
def option {α : Type} (decode : CanonicalParser α) : CanonicalParser (Option α) := do
  match ← u8 with
  | 0 => return none
  | 1 => return some (← decode)
  | _ => throw .invalidValue

def bookLevel : CanonicalParser BookLevel := do return ⟨← price, ← quantity⟩

def bookSide (kind : BookSideKind) : CanonicalParser BookSide := do
  let marketOrderQuantity ← option quantity
  let slots : Slots :=
    #v[← option bookLevel, ← option bookLevel, ← option bookLevel, ← option bookLevel,
      ← option bookLevel]
  validated (BookSide.fromParts kind marketOrderQuantity slots)

def book : CanonicalParser CompleteBookSnapshot := do
  let bids ← bookSide .bid
  let asks ← bookSide .ask
  validated (CompleteBookSnapshot.new bids asks)

def unknown : CanonicalParser UnknownValue := do
  match ← u8 with
  | 1 => return .unsigned (← u64)
  | 2 => return .signed (← i64)
  | 3 => return .decimal ⟨← i128⟩
  | 4 => return .text (← string)
  | 5 => return .bytes (← bytes)
  | _ => throw .invalidValue

def observation {α : Type} (decode : CanonicalParser α) : CanonicalParser (Observation α) := do
  match ← u8 with
  | 0 => return .noObservation
  | 1 => return .set (← decode)
  | 2 => return .clear
  | 3 => return .unknown (← unknown)
  | _ => throw .invalidValue

/-- The three decoders of auction evidence differ in how the byte of a known value is read. -/
def auctionEvidence {α : Type} (fromDiscriminant : UInt8 → Option α) :
    CanonicalParser (AuctionEvidence α) := do
  match ← u8 with
  | 0 => return .noObservation
  | 1 => return .known (← present (fromDiscriminant (← u8)))
  | 2 => return .unknown
  | _ => throw .invalidValue

def boolFromByte : UInt8 → Option Bool
  | 0 => some false
  | 1 => some true
  | _ => none

def auctionPurpose : CanonicalParser (AuctionEvidence AuctionPurpose) :=
  auctionEvidence AuctionPurpose.fromDiscriminant

def auctionBool : CanonicalParser (AuctionEvidence Bool) := auctionEvidence boolFromByte

def auctionDirection : CanonicalParser (AuctionEvidence VolatilityDirection) :=
  auctionEvidence VolatilityDirection.fromDiscriminant

def auctionObservation : CanonicalParser AuctionObservation := do
  let purpose ← auctionPurpose
  let delayed ← auctionBool
  let disposal ← auctionBool
  let direction ← auctionDirection
  present (AuctionObservation.fromParts purpose delayed disposal direction)

/-- Only an auction regime is followed by an observation. -/
def signalObservation : UInt8 → CanonicalParser (Option AuctionObservation)
  | 2 | 3 => some <$> auctionObservation
  | 1 | 4 => pure none
  | _ => throw .invalidValue

def marketSignal : CanonicalParser MarketSignal := do
  let discriminant ← u8
  let observation ← signalObservation discriminant
  present (MarketSignal.fromDiscriminant discriminant observation)

def annotations : CanonicalParser MarketAnnotations := do
  match ← u8 with
  | 0 => return .none
  | 1 => return .twseQuote ⟨← u8, ← u8⟩
  | 2 => return .tpexQuote ⟨← u8, ← u8⟩
  | _ => throw .invalidValue

/-- The three header comparisons stop at the first difference. -/
def expectHeader {α : Type} [DecidableEq α] (decode : CanonicalParser α) (expected : α) :
    CanonicalParser Unit := do
  let value ← decode
  liftM (ensure (value = expected) CanonicalDecodingError.unsupportedHeader)

def header : CanonicalParser Unit := do
  expectHeader (take 4) canonicalMagic
  expectHeader u16 canonicalEventVersion
  expectHeader u16 eventSchemaVersion

def quoteSnapshot : CanonicalParser QuoteSnapshot := do
  let book ← book
  let trade ← observation trade
  let cumulativeVolume ← observation volume
  let annotations ← annotations
  let snapshot ← validated (QuoteSnapshot.new book trade cumulativeVolume annotations)
  return snapshot.withMarketSignal (← observation marketSignal)

def bookSnapshot : CanonicalParser BookSnapshot := do
  let book ← book
  let annotations ← annotations
  return (BookSnapshot.new book annotations).withMarketSignal (← observation marketSignal)

def tradeOrder : CanonicalParser TradeBatchOrdering := do
  match ← u8 with
  | 0 => return .unspecified
  | 1 => return .sourceSequencePreserved
  | _ => throw .invalidValue

/-- What follows the trade count. -/
def tradeBatchBody (count : ℕ) : CanonicalParser TradeBatch := do
  let trades ← replicate trade count
  let order ← tradeOrder
  let cumulativeVolume ← observation volume
  let annotations ← annotations
  let batch ← validated (TradeBatch.new trades order cumulativeVolume annotations)
  return batch.withMarketSignal (← observation marketSignal)

def tradeBatch : CanonicalParser TradeBatch := do
  let count ← u32
  checkRemaining
    (fun remaining => count.val ≤ (remaining - minTradeBatchSuffixBytes) / canonicalTradeBytes)
    .lengthOutOfBounds
  tradeBatchBody count.val

def indicativeAuction : CanonicalParser IndicativeAuction := do
  let auction ← auctionObservation
  let price ← observation price
  let quantity ← observation quantity
  let book ← observation book
  let cumulativeVolume ← observation volume
  let annotations ← annotations
  validated (IndicativeAuction.new auction price quantity book cumulativeVolume annotations)

def marketStatus : CanonicalParser MarketStatusObservation := do
  let cumulativeVolume ← observation volume
  let annotations ← annotations
  return (MarketStatusObservation.new cumulativeVolume annotations).withMarketSignal
    (← observation marketSignal)

def payload : CanonicalParser EventPayload := do
  match ← u8 with
  | 10 => return .quoteSnapshot (← quoteSnapshot)
  | 20 => return .bookSnapshot (← bookSnapshot)
  | 30 => return .tradeBatch (← tradeBatch)
  | 40 => return .indicativeAuction (← indicativeAuction)
  | 50 => return .marketStatus (← marketStatus)
  | _ => throw .invalidValue

def event : CanonicalParser DomainEvent := do
  header
  let market ← validated (MarketId.fromDiscriminant (← u8))
  let symbol ← validated (Symbol.new (← string))
  let tradingDate ← validated (TradingDate.fromEpochDays (← i32))
  let sourceFormat ← validated (SourceFormatId.new (← string))
  let matchTime : MatchTime := ⟨← i64⟩
  liftM (ensure (matchTime.isUtcIso8601Representable = true) CanonicalDecodingError.invalidValue)
  let sourceSequence ← option u64
  let payload ← payload
  return ⟨⟨market, symbol⟩, tradingDate, sourceFormat, matchTime, sourceSequence, payload⟩

end CanonicalParser

/-- Decodes and validates one complete current-version canonical event frame. -/
def DomainEvent.fromCanonicalBytes (bytes : List UInt8) :
    Except CanonicalDecodingError DomainEvent := do
  let (event, rest) ← CanonicalParser.event.run bytes
  if rest ≠ [] then throw .trailingBytes
  return event

end Osmium
