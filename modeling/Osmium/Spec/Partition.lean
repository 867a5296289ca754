import Osmium.Lib.Blocks
import Osmium.Lib.Hex
import Osmium.Spec.Sessions
import Osmium.Spec.Storage

/-! Partitions: what an archive is kept under for one source, instrument and date, and the
directories they get. -/

namespace Osmium
open Machine Bytes Result Files

inductive SourceIdError | empty | tooLong | unsafeCharacter
deriving DecidableEq

def sourceIdMaxBytes : ℕ := 64

/-- Letters, digits, hyphens and underscores. -/
def isSafeByte (byte : UInt8) : Bool := isAsciiAlphanumeric byte || byte = 45 || byte = 95

structure SourceId where
  text : Text
  nonempty : text.isEmpty = false
  short : text.bytes.length ≤ sourceIdMaxBytes
  safe : text.bytes.all isSafeByte = true

namespace SourceId

def new (value : Text) : Except SourceIdError SourceId :=
  if nonempty : value.isEmpty = false then
    if short : value.bytes.length ≤ sourceIdMaxBytes then
      if safe : value.bytes.all isSafeByte = true then .ok ⟨value, nonempty, short, safe⟩
      else .error .unsafeCharacter
    else .error .tooLong
  else .error .empty

/-- Where the artifacts of a source's adapter are kept. -/
def storageNamespace (self : SourceId) : List UInt8 := self.text.bytes

end SourceId

def sourcePartitionKeyVersion : U16 := ⟨2, Unsigned.two_fits⟩

inductive SourcePartitionKeyError | emptySessions | canonicalLengthOverflow
deriving DecidableEq

structure SourcePartitionKey where
  source : SourceId
  instrument : InstrumentId
  tradingDate : TradingDate
  sessionKinds : List SessionKind
  sessionPlanIdentity : Digest
  canonical : List UInt8
  identity : Digest

namespace SourcePartitionKey

/-- The bytes led by OSPK. -/
def canonicalBytes (source : SourceId) (instrument : InstrumentId) (tradingDate : TradingDate)
    (sessionKinds : List SessionKind)
    (sessionPlanIdentity : Digest) : Except SourcePartitionKeyError (List UInt8) := do
  let sourceLength ← okOr .canonicalLengthOverflow (Unsigned.ofNat? 32 source.text.bytes.length)
  let symbolLength ← okOr .canonicalLengthOverflow
      (Unsigned.ofNat? 32 instrument.symbol.text.bytes.length)
  let kindCount ← okOr .canonicalLengthOverflow (Unsigned.ofNat? 32 sessionKinds.length)
  return [79, 83, 80, 75] ++ ofUnsigned 2 sourcePartitionKeyVersion ++ ofUnsigned 4 sourceLength ++
    source.text.bytes ++
    [instrument.market.discriminant] ++ ofUnsigned 4 symbolLength ++ instrument.symbol.text.bytes ++
    tradingDate.toCanonicalBytes ++ ofUnsigned 4 kindCount ++
      sessionKinds.map SessionKind.discriminant ++
    sessionPlanIdentity.bytes

def new (hash : List UInt8 → Digest) (source : SourceId) (instrument : InstrumentId)
    (tradingDate : TradingDate) (sessionKinds : List SessionKind) (sessionPlanIdentity : Digest) :
    Except SourcePartitionKeyError SourcePartitionKey := do
  let kinds := (sessionKinds.insertionSort sessionKindBefore).destutter (· ≠ ·)
  ensure (kinds ≠ []) .emptySessions
  let canonical ← canonicalBytes source instrument tradingDate kinds sessionPlanIdentity
  return ⟨source, instrument, tradingDate, kinds, sessionPlanIdentity, canonical, hash canonical⟩

end SourcePartitionKey

section Paths

def symbolComponentChars : ℕ := 180

/-- twse, tpex, taifex -/
def marketName (instrument : InstrumentId) : List UInt8 :=
  match instrument.market with
  | .twse => [116, 119, 115, 101]
  | .tpex => [116, 112, 101, 120]
  | .taifex => [116, 97, 105, 102, 101, 120]

/-- A safe byte stands for itself, any other is written %hh. -/
def encodedByte (byte : UInt8) : List UInt8 :=
  if isSafeByte byte then [byte] else [37, Hex.digit (byte >>> 4), Hex.digit (byte &&& 15)]

def encodedSymbol (value : List UInt8) : List UInt8 := value.flatMap encodedByte

/-- A long symbol is cut into nested directories, wherever the cut falls. -/
def encodedSymbolPath (value : List UInt8) : FilePath :=
  Blocks.cut symbolComponentChars (encodedSymbol value)

def keyedRoot (dataRoot : FilePath) (directory : FilePath) (source : SourceId)
    (instrument : InstrumentId) (tradingDate : TradingDate) : FilePath :=
  dataRoot ++ directory ++ [source.storageNamespace, marketName instrument, tradingDate.display] ++
    encodedSymbolPath instrument.symbol.text.bytes

/-- cache/replay -/
def cacheDirectory : FilePath := [[99, 97, 99, 104, 101], [114, 101, 112, 108, 97, 121]]

def partitionRoot (dataRoot : FilePath) (key : SourcePartitionKey) : FilePath :=
  keyedRoot dataRoot [sourceName] key.source key.instrument key.tradingDate

def cachePartitionRoot (dataRoot : FilePath) (key : SourcePartitionKey) : FilePath :=
  keyedRoot dataRoot cacheDirectory key.source key.instrument key.tradingDate

end Paths

end Osmium
