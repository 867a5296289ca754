import Osmium.Lib.Directories
import Osmium.Spec.Partition
import Osmium.Spec.Streams
import Osmium.Spec.Verify

/-! Replay caches: the events of a verified source revision in one file with a descriptor beside it,
built in a directory of their own that is renamed when it is complete, and the catalogue of the
caches of a partition. -/

namespace Osmium
open Machine Bytes Result Stateful Directories
open Files (FilePath)

/-- OSMCACHE1 -/
def cacheMagic : List UInt8 := [79, 83, 77, 67, 65, 67, 72, 69, 49]

def cacheFormatVersion : U16 := ⟨3, Unsigned.three_fits⟩

def marketTypesVersion : U16 := ⟨11, by decide⟩

/-- 16 MiB. Bounds what is allocated for one event when the cache is read. -/
def maxCacheEventRecordBytes : U32 := ⟨16777216, by decide⟩

inductive MappingIdentityError | emptyName | zeroVersion
deriving DecidableEq

structure NormalizerMappingIdentity where
  name : Text
  version : U16
  named : name.isBlank = false
  versioned : version.val ≠ 0

def NormalizerMappingIdentity.new (name : Text) (version : U16) :
    Except MappingIdentityError NormalizerMappingIdentity :=
  if named : name.isBlank = false then
    if versioned : version.val ≠ 0 then .ok ⟨name, version, named, versioned⟩ else
      .error .zeroVersion
  else .error .emptyName

structure CacheDescriptor where
  cacheFormatVersion : U16
  cacheIdentity : Text
  sourceRevisionIdentity : Text
  instrumentMarket : UInt8
  instrumentSymbol : Text
  tradingDateEpochDays : I32
  eventCount : U64
  firstMatchTimeMicros : Option I64
  lastMatchTimeMicros : Option I64
  payloadSha256 : Text
  marketTypesVersion : U16
  eventSchemaVersion : U16
  canonicalEventVersion : U16
  orderingRuleVersion : U16
  partitionIdentity : Option Text
  normalizerMappingName : Text
  normalizerMappingVersion : U16
deriving DecidableEq

structure PublishedCache where
  path : FilePath
  descriptor : CacheDescriptor

/-- The hashes, and the reader and the writer of descriptors. -/
structure CacheEnv where
  hash : List UInt8 → Digest
  sha256 : List UInt8 → Digest
  descriptorToVec : CacheDescriptor → List UInt8
  descriptorFromSlice : List UInt8 → Except Text CacheDescriptor

inductive CacheBuildError
  | io (error : IoError)
  | verification (error : VerificationError)
  | sourceManifest
  | ordering (error : OrderingError)
  | canonical (error : CanonicalEncodingError)
  | eventTooLarge
  | buildAlreadyExists
  | cacheAlreadyExists (identity : Text)
deriving DecidableEq

section Names

/-- cache-build -/
def cacheBuildName : List UInt8 := [99, 97, 99, 104, 101, 45, 98, 117, 105, 108, 100]

/-- events.bin -/
def eventsName : List UInt8 := [101, 118, 101, 110, 116, 115, 46, 98, 105, 110]

/-- events.bin.tmp -/
def eventsTemporaryName : List UInt8 := eventsName ++ [46, 116, 109, 112]

/-- descriptor -/
def descriptorStem : List UInt8 := [100, 101, 115, 99, 114, 105, 112, 116, 111, 114]

/-- descriptor.yaml -/
def descriptorName : List UInt8 := descriptorStem ++ 46 :: yamlExtension

/-- derived -/
def derivedName : List UInt8 := [100, 101, 114, 105, 118, 101, 100]

/-- cache -/
def cacheName : List UInt8 := [99, 97, 99, 104, 101]

end Names

namespace CacheBuilder
variable (env : CacheEnv)

abbrev BuildOp (α : Type) := EStateM CacheBuildError Nodes α

def io {α : Type} (op : EStateM IoError Nodes α) : BuildOp α :=
  zoom id (fun _ nodes => nodes) .io op

def optionalText (value : Option Text) : List UInt8 := value.elim [] Text.bytes

/-- The hash of what is led by OSCI. -/
def cacheIdentity (source : VerificationReport) (instrument : InstrumentId)
    (tradingDate : TradingDate)
    (mapping : NormalizerMappingIdentity) (partitionIdentity : Option Text) (payloadSha256 : Text)
    (eventCount : U64) : Text :=
  Hex.text
    (env.hash ([79, 83, 67, 73] ++ ofUnsigned 2 cacheFormatVersion ++ source.revision.bytes ++
    [instrument.market.discriminant] ++ instrument.symbol.text.bytes ++
      tradingDate.toCanonicalBytes ++
    ofUnsigned 4 (Unsigned.wrap 32 mapping.name.bytes.length) ++ mapping.name.bytes ++
      ofUnsigned 2 mapping.version ++
    ofUnsigned 2 marketTypesVersion ++ ofUnsigned 2 eventSchemaVersion ++
      ofUnsigned 2 canonicalEventVersion ++
    ofUnsigned 2 orderingRuleVersion ++ optionalText partitionIdentity ++ ofUnsigned 8 eventCount ++
      payloadSha256.bytes)).bytes

/-- An event as it is written, behind its length. -/
def eventRecord (event : DomainEvent) : Except CacheBuildError (List UInt8) := do
  let bytes ← event.toCanonicalBytes.mapError .canonical
  let length ← okOr .eventTooLarge (Unsigned.ofNat? 32 bytes.length)
  ensure (length ≤ maxCacheEventRecordBytes) .eventTooLarge
  return ofUnsigned 4 length ++ bytes

/-- Writes the events one by one and gives what the hasher has seen. -/
def writeEvents (path : FilePath) : List DomainEvent → BuildOp (List UInt8)
  | [] => pure []
  | event :: rest => do
    let bytes ← lift (eventRecord event)
    io (append path bytes)
    return bytes ++ (← writeEvents path rest)

/-- The file is written under a temporary name, which must not be taken, and moved into its place.
-/
def writeAtomic (path : FilePath) (bytes : List UInt8) : EStateM IoError Nodes Unit := do
  let tmp := Files.withExtension path temporaryExtension
  createNew tmp
  append tmp bytes
  syncAll tmp
  rename tmp path

def buildDescriptor (source : VerificationReport) (instrument : InstrumentId)
    (tradingDate : TradingDate)
    (partitionIdentity : Option Text) (mapping : NormalizerMappingIdentity)
    (events : List DomainEvent) (payload : List UInt8) : CacheDescriptor :=
  let payloadSha256 := Hex.text (env.sha256 payload).bytes
  let eventCount := Unsigned.wrap 64 events.length
  { cacheFormatVersion := cacheFormatVersion
    cacheIdentity :=
      cacheIdentity env source instrument tradingDate mapping partitionIdentity
        payloadSha256 eventCount
    sourceRevisionIdentity := source.manifest.revisionIdentity
    instrumentMarket := instrument.market.discriminant
    instrumentSymbol := instrument.symbol.text
    tradingDateEpochDays := tradingDate.epochDays
    eventCount := eventCount
    firstMatchTimeMicros := events.head?.map fun event => event.matchTime.unixMicroseconds
    lastMatchTimeMicros := events.getLast?.map fun event => event.matchTime.unixMicroseconds
    payloadSha256 := payloadSha256
    marketTypesVersion := marketTypesVersion
    eventSchemaVersion := eventSchemaVersion
    canonicalEventVersion := canonicalEventVersion
    orderingRuleVersion := orderingRuleVersion
    partitionIdentity := partitionIdentity
    normalizerMappingName := mapping.name
    normalizerMappingVersion := mapping.version }

/-- The events in a directory of their own. -/
def stageEvents (attempt : FilePath) (events : List DomainEvent) : BuildOp (List UInt8) := do
  io (createDirAll attempt)
  let eventsTmp := attempt ++ [eventsTemporaryName]
  io (createNew eventsTmp)
  io
    (append eventsTmp (cacheMagic ++ ofUnsigned 2 cacheFormatVersion ++
      ofUnsigned 8 (Unsigned.wrap 64 events.length)))
  let payload ← writeEvents eventsTmp events
  io (syncAll eventsTmp)
  io (rename eventsTmp (attempt ++ [eventsName]))
  return payload

/-- The directory under its published name, which must not be taken. -/
def publishAttempt (attempt cacheRoot : FilePath) (descriptor : CacheDescriptor) :
    BuildOp PublishedCache := do
  io (createDirAll cacheRoot)
  let publishedPath := cacheRoot ++ [descriptor.cacheIdentity.bytes]
  let nodes ← get
  lift (ensure (publishedPath ∉ nodes) (.cacheAlreadyExists descriptor.cacheIdentity))
  io (rename attempt publishedPath)
  io (syncAll cacheRoot)
  return ⟨publishedPath, descriptor⟩

def publishEvents (source : VerificationReport) (stagingRoot cacheRoot : FilePath)
    (instrument : InstrumentId) (tradingDate : TradingDate) (partitionIdentity : Option Text)
    (mapping : NormalizerMappingIdentity) (events : List DomainEvent) : BuildOp PublishedCache := do
  let attempt := stagingRoot ++ [cacheBuildName]
  let nodes ← get
  lift (ensure (attempt ∉ nodes) .buildAlreadyExists)
  let payload ← stageEvents attempt events
  let descriptor :=
    buildDescriptor env source instrument tradingDate partitionIdentity mapping events payload
  io (writeAtomic (attempt ++ [descriptorName]) (env.descriptorToVec descriptor))
  io (syncAll attempt)
  publishAttempt attempt cacheRoot descriptor

/-- Publishes events of a partition's current revision. They are put in order first, and must be of
the partition. -/
def buildExternalPartition (storage : StorageEnv) (dataRoot : FilePath) (key : SourcePartitionKey)
    (mapping : NormalizerMappingIdentity) (events : List DomainEvent) : BuildOp PublishedCache := do
  let nodes ← get
  let source ← lift
      ((verifyCurrent storage (files nodes) (partitionRoot dataRoot key)).mapError .verification)
  let cacheRoot := cachePartitionRoot dataRoot key
  let events ← lift ((orderEvents env.hash events).mapError .ordering)
  lift
    (ensure (∀ event ∈ events, event.instrument = key.instrument ∧
      event.tradingDate = key.tradingDate) .sourceManifest)
  publishEvents env source cacheRoot cacheRoot key.instrument key.tradingDate
    (some (Hex.text key.identity.bytes)) mapping events

/-- Publishes events of the source without partitions. -/
def buildExternalCurrent (storage : StorageEnv) (dataRoot : FilePath) (instrument : InstrumentId)
    (tradingDate : TradingDate)
    (mapping : NormalizerMappingIdentity) (events : List DomainEvent) : BuildOp PublishedCache := do
  let nodes ← get
  let source ← lift
      ((verifyCurrent storage (files nodes) (dataRoot ++ [sourceName])).mapError .verification)
  let events ← lift ((orderEvents env.hash events).mapError .ordering)
  lift (ensure (∀ event ∈ events, event.instrument = instrument ∧ event.tradingDate = tradingDate)
    .sourceManifest)
  publishEvents env source (dataRoot ++ [derivedName, stagingName])
    (dataRoot ++ [derivedName, cacheName]) instrument
    tradingDate none mapping events

end CacheBuilder

inductive DescriptorFault | json (message : Text) | bindingMismatch | multipleCurrent
deriving DecidableEq

inductive CacheCatalogError
  | io (error : IoError)
  | descriptor (fault : DescriptorFault)
deriving DecidableEq

structure PartitionCacheEntry where
  path : FilePath
  descriptor : CacheDescriptor
deriving DecidableEq

inductive PartitionCacheInspection
  | missing
  | current (entry : PartitionCacheEntry)
  | stale
deriving DecidableEq

/-- A descriptor of the versions of this code. -/
def isCompatible (descriptor : CacheDescriptor) : Bool :=
  descriptor.cacheFormatVersion = cacheFormatVersion &&
    descriptor.marketTypesVersion = marketTypesVersion &&
    descriptor.eventSchemaVersion = eventSchemaVersion &&
      descriptor.canonicalEventVersion = canonicalEventVersion &&
    descriptor.orderingRuleVersion = orderingRuleVersion

namespace PartitionCacheCatalog
variable (env : CacheEnv)

/-- What has been found in the directories seen so far. -/
structure CatalogScan where
  sawStale : Bool
  current : Option PartitionCacheEntry

/-- One directory of a partition's caches. Only a descriptor of the same revision and partition
counts. -/
def scanEntry (key : SourcePartitionKey) (sourceRevisionIdentity : Text)
    (mapping : NormalizerMappingIdentity)
    (path : FilePath) (descriptor : CacheDescriptor) (scan : CatalogScan) :
    Except CacheCatalogError CatalogScan :=
  if descriptor.sourceRevisionIdentity = sourceRevisionIdentity ∧
      descriptor.partitionIdentity = some (Hex.text key.identity.bytes) then
    if isCompatible descriptor = false ∨ descriptor.normalizerMappingName ≠ mapping.name ∨
        descriptor.normalizerMappingVersion ≠ mapping.version then
          .ok { scan with sawStale := true }
    else if descriptor.instrumentMarket ≠ key.instrument.market.discriminant ∨
        descriptor.instrumentSymbol ≠ key.instrument.symbol.text ∨
        descriptor.tradingDateEpochDays ≠ key.tradingDate.epochDays ∨
        path.getLast? ≠ some descriptor.cacheIdentity.bytes then
          .error (.descriptor .bindingMismatch)
    else if scan.current.isSome = true then .error (.descriptor .multipleCurrent)
    else .ok { scan with current := some ⟨path, descriptor⟩ }
  else .ok scan

def scanEntries (nodes : Nodes) (key : SourcePartitionKey) (sourceRevisionIdentity : Text)
    (mapping : NormalizerMappingIdentity) :
    List FilePath → CatalogScan → Except CacheCatalogError CatalogScan
  | [], scan => .ok scan
  | path :: rest, scan =>
    match nodes[path ++ [descriptorName]]? with
    | some (.file bytes) => do
      let descriptor ← (env.descriptorFromSlice bytes).mapError (.descriptor ∘ .json)
      let scan ← scanEntry key sourceRevisionIdentity mapping path descriptor scan
      scanEntries nodes key sourceRevisionIdentity mapping rest scan
    | _ => scanEntries nodes key sourceRevisionIdentity mapping rest scan

def inspect (nodes : Nodes) (dataRoot : FilePath) (key : SourcePartitionKey)
    (sourceRevisionIdentity : Text)
    (mapping : NormalizerMappingIdentity) : Except CacheCatalogError PartitionCacheInspection := do
  let root := cachePartitionRoot dataRoot key
  if isDir nodes root = false then return .missing
  else
    let scan ← scanEntries env nodes key sourceRevisionIdentity mapping (entries nodes root)
        ⟨false, none⟩
    match scan.current with
    | some entry => return .current entry
    | none => if scan.sawStale = true then return .stale else return .missing

end PartitionCacheCatalog

end Osmium
