import Osmium.Spec.Cache

/-! Reading a replay cache. The reader checks the descriptor and the header when it is opened, each
event when it is read, and the length of the file, its hash and the bounds of the match times after
the last event. -/

namespace Osmium
open Machine Bytes Result Stateful Directories
open Files (FilePath)

inductive CacheReadError
  | io (error : IoError)
  /-- The end of the file in the middle of a read of a given length. -/
  | unexpectedEof
  | descriptor (message : Text)
  | header
  | incompatibleDescriptor
  | staleSourceLineage
  | canonical (error : CanonicalDecodingError)
  | ordering (error : OrderingError)
  | orderingRegression
  | coverageMismatch
  | bindingMismatch
  | payloadChecksum
  | boundsMismatch
  | eventTooLarge
  | trailingBytes
deriving DecidableEq

section Reading

/-- Reads from what is left of a file. -/
abbrev ReadOp (α : Type) := EStateM CacheReadError (List UInt8) α

/-- Reads just as many bytes. -/
def readExact (length : ℕ) : ReadOp (List UInt8) := do
  let bytes ← get
  if length ≤ bytes.length then
    set (bytes.drop length)
    return bytes.take length
  else
    set ([] : List UInt8)
    throw .unexpectedEof

def readU16 : ReadOp U16 := do return toUnsigned 16 (← readExact 2)

def readU32 : ReadOp U32 := do return toUnsigned 32 (← readExact 4)

def readU64 : ReadOp U64 := do return toUnsigned 64 (← readExact 8)

end Reading

def validateDescriptor (descriptor : CacheDescriptor) : Except CacheReadError Unit :=
  ensure (isCompatible descriptor = true) .incompatibleDescriptor

/-- The event is of the instrument and the date of the descriptor. -/
def validateEvent (descriptor : CacheDescriptor) (event : DomainEvent) :
    Except CacheReadError Unit :=
  ensure (event.instrument.market.discriminant = descriptor.instrumentMarket ∧
    event.instrument.symbol.text = descriptor.instrumentSymbol ∧
    event.tradingDate.epochDays = descriptor.tradingDateEpochDays) .coverageMismatch

def validateEventRecordLength (length : U32) : Except CacheReadError ℕ := do
  ensure (length ≤ maxCacheEventRecordBytes) .eventTooLarge
  return length.val

structure CacheRecord where
  ordinal : U64
  event : DomainEvent

/-- An open cache: what is left of its file, and `hasher`, the bytes that have been hashed. -/
structure CacheReader where
  reader : List UInt8
  descriptor : CacheDescriptor
  remaining : U64
  ordinal : U64
  hasher : List UInt8
  previousKey : Option OrderingKey
  firstMatchTime : Option I64
  lastMatchTime : Option I64
  finished : Bool

namespace CacheReader
variable (env : CacheEnv)

abbrev Op (α : Type) := EStateM CacheReadError CacheReader α

section Opening

def readFile (nodes : Nodes) (path : FilePath) : Except CacheReadError (List UInt8) :=
  ((runOn (read path) nodes).mapError .io).map Prod.fst

/-- The header must be that of the descriptor; returns the number of events. -/
def readHeader (descriptor : CacheDescriptor) : ReadOp U64 := do
  let magic ← readExact cacheMagic.length
  lift (ensure (magic = cacheMagic) .header)
  let version ← readU16
  let count ← readU64
  lift (ensure (version = cacheFormatVersion ∧ count = descriptor.eventCount) .header)
  return count

def openInner (nodes : Nodes) (path : FilePath) (expectedSourceRevision : Option Text) :
    Except CacheReadError CacheReader := do
  let text ← readFile nodes (path ++ [descriptorName])
  let descriptor ← (env.descriptorFromSlice text).mapError .descriptor
  validateDescriptor descriptor
  ensure (∀ expected ∈ expectedSourceRevision, descriptor.sourceRevisionIdentity = expected)
    .staleSourceLineage
  let file ← readFile nodes (path ++ [eventsName])
  let header ← runOn (readHeader descriptor) file
  return {
    reader := header.2
    descriptor := descriptor
    remaining := header.1
    ordinal := 0
    hasher := []
    previousKey := none
    firstMatchTime := none
    lastMatchTime := none
    finished := false }

/-- Opens a cache of whatever revision. -/
def openUnbound (nodes : Nodes) (path : FilePath) : Except CacheReadError CacheReader :=
  openInner env nodes path none

def openBound (nodes : Nodes) (path : FilePath) (expectedSourceRevision : Text) :
    Except CacheReadError CacheReader :=
  openInner env nodes path (some expectedSourceRevision)

end Opening

section Records

def onFile {α : Type} (op : ReadOp α) : Op α :=
  zoom reader (fun self reader => { self with reader := reader }) id op

/-- After the last event: nothing may be left, and the whole must be what the descriptor tells of.
-/
def finish : Op (Option CacheRecord) := do
  let self ← get
  match self.reader with
  | _ :: rest =>
    set { self with reader := rest }
    throw .trailingBytes
  | [] =>
    lift (ensure (Hex.text (env.sha256 self.hasher).bytes = self.descriptor.payloadSha256)
      .payloadChecksum)
    lift (ensure (self.firstMatchTime = self.descriptor.firstMatchTimeMicros ∧
      self.lastMatchTime = self.descriptor.lastMatchTimeMicros) .boundsMismatch)
    set { self with finished := true }
    return none

/-- The bytes of the next record. They are hashed before they are looked at. -/
def readRecordBytes : Op (List UInt8) := do
  let recordLength ← onFile readU32
  let bufferLength ← lift (validateEventRecordLength recordLength)
  let bytes ← onFile (readExact bufferLength)
  modify fun self => { self with hasher := self.hasher ++ (ofUnsigned 4 recordLength ++ bytes) }
  return bytes

def readRecord : Op CacheRecord := do
  let bytes ← readRecordBytes
  let self ← get
  let event ← lift ((DomainEvent.fromCanonicalBytes bytes).mapError .canonical)
  lift (validateEvent self.descriptor event)
  let key ← lift ((OrderingKey.forEvent env.hash event).mapError .ordering)
  lift (ensure (∀ previous ∈ self.previousKey, previous ≤ key) .orderingRegression)
  set { self with
    previousKey := some key
    firstMatchTime := self.firstMatchTime.or (some event.matchTime.unixMicroseconds)
    lastMatchTime := some event.matchTime.unixMicroseconds
    ordinal := Unsigned.wrap 64 (self.ordinal.val + 1)
    remaining := self.remaining.wrappingSub (Unsigned.wrap 64 1) }
  return ⟨self.ordinal, event⟩

def nextRecord : Op (Option CacheRecord) := do
  let self ← get
  if self.finished = true then return none
  else if self.remaining.val = 0 then finish env
  else return some (← readRecord env)

def nextEvent : Op (Option DomainEvent) := do return (← nextRecord env).map CacheRecord.event

/-- The reader as a stream: what its calls yield up to the first that fails or yields nothing. Of
the calls there are at most one more than the records that remain. -/
def stream (display : CacheReadError → Text) : ℕ → CacheReader → EventStream
  | 0, _ => ⟨[], none⟩
  | calls + 1, self =>
    match nextEvent env self with
    | .ok (some event) next =>
      let rest := stream display calls next
      ⟨event :: rest.events, rest.failure⟩
    | .ok none _ => ⟨[], none⟩
    | .error error _ => ⟨[], some (display error)⟩

end Records

end CacheReader

/-- Where the caches of an instrument's trading date are. -/
def cacheInstrumentRoot (dataRoot : FilePath) (source : SourceId) (instrument : InstrumentId)
    (tradingDate : TradingDate) :
    FilePath := keyedRoot dataRoot cacheDirectory source instrument tradingDate

structure LocalCacheFactory where
  dataRoot : FilePath
  partitionedSource : Option SourceId

namespace LocalCacheFactory

def cacheRoot (self : LocalCacheFactory) (binding : ReplayStreamBinding) : FilePath :=
  match self.partitionedSource with
  | some source => cacheInstrumentRoot self.dataRoot source binding.instrument binding.tradingDate
  | none => self.dataRoot ++ [derivedName, cacheName]

/-- Opens the cache of a binding, which must be that of its revision, its instrument and its date.
-/
def openCache (env : CacheEnv) (self : LocalCacheFactory) (nodes : Nodes)
    (binding : ReplayStreamBinding) :
    Except CacheReadError CacheReader := do
  let cacheIdentity := Hex.text binding.cacheIdentity.bytes
  let sourceRevision := Hex.text binding.sourceRevisionIdentity.bytes
  let reader ← CacheReader.openBound env nodes
      (self.cacheRoot binding ++ [cacheIdentity.bytes]) sourceRevision
  ensure (reader.descriptor.cacheIdentity = cacheIdentity ∧
    reader.descriptor.instrumentMarket = binding.instrument.market.discriminant ∧
    reader.descriptor.instrumentSymbol = binding.instrument.symbol.text ∧
    reader.descriptor.tradingDateEpochDays = binding.tradingDate.epochDays) .bindingMismatch
  return reader

/-- The factory of the streams of a frozen plan, on the files as they are. -/
def openStream (env : CacheEnv) (display : CacheReadError → Text) (self : LocalCacheFactory)
    (nodes : Nodes) : ReplayStreamFactory :=
  fun binding => ((self.openCache env nodes binding).mapError display).map fun reader =>
    reader.stream env display (reader.remaining.val + 1)

end LocalCacheFactory

end Osmium
