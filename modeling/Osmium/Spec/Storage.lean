import Osmium.Lib.Calendar
import Osmium.Spec.Cursor

/-! Source revisions on disk: pages staged under an attempt, and the publication of an attempt as
the current revision. -/

namespace Osmium
open Machine Bytes Result Stateful Files Calendar

inductive ObjectKind | tickPage | dailyInstrument
deriving DecidableEq

inductive CompressionPolicy | zstdPerPageV1
deriving DecidableEq

structure PageMetadata where
  kind : ObjectKind
  ordinal : U32
  relativePath : Text
  recordCount : U64
  uncompressedBytes : U64
  compressedBytes : U64
  uncompressedSha256 : Text
  compressedSha256 : Text
  compression : CompressionPolicy
  zstdImplementation : Text
  zstdVersion : Text
  queryIdentity : Text
deriving DecidableEq

structure SourceManifest where
  manifestVersion : U16
  revisionIdentity : Text
  queryIdentity : Text
  terminalCursorReached : Bool
  tickRecordCount : U64
  pages : List PageMetadata
  dailyInstrument : PageMetadata
deriving DecidableEq

/-- What is not in this repository: the digests, the compression and the JSON reader and writers. -/
structure StorageEnv where
  hash : List UInt8 → Digest
  sha256 : List UInt8 → Digest
  compress : List UInt8 → List UInt8
  decompress : List UInt8 → Option (List UInt8)
  zstdVersion : Text
  fromSlice : List UInt8 → Except Text Json
  metadataToVec : PageMetadata → List UInt8
  metadataFromSlice : List UInt8 → Except Text PageMetadata
  manifestToVec : SourceManifest → List UInt8
  manifestFromSlice : List UInt8 → Except Text SourceManifest

inductive StagingError
  | io (error : IoError)
  | invalidAttemptId
  | invalidJson (message : Text)
  | roundTripMismatch
  | nonContiguousPages
  | countOverflow
  | invalidChecksum
  | cursorNotTerminal
  | dailyInstrumentMissing
  | revisionAlreadyExists (identity : Text)
  | checkpointPageMismatch
  | interruptedPageChanged
  | manifest (message : Text)
deriving DecidableEq

section Paths

def isAsciiAlphanumeric (byte : UInt8) : Bool :=
  isDigit byte || (65 ≤ byte && byte ≤ 90) || (97 ≤ byte && byte ≤ 122)

inductive PathComponent | rootDir | curDir | parentDir | normal (name : List UInt8)
deriving DecidableEq

/-- The parts between the slashes. A dot is kept only where the path begins with it. -/
def components (path : List UInt8) : List PathComponent :=
  (if path.head? = some 47 then [.rootDir] else []) ++
    (path.splitOn 47).zipIdx.filterMap fun part =>
    if part.1 = [] then none
    else if part.1 = [46] then if part.2 = 0 then some .curDir else none
    else if part.1 = [46, 46] then some .parentDir
    else some (.normal part.1)

def PathComponent.name : PathComponent → Option (List UInt8)
  | .normal name => some name
  | _ => none

def PathComponent.isNormal (component : PathComponent) : Bool := component.name.isSome

/-- A path under a directory. It must have normal components only. -/
def join (root : FilePath) (relative : Text) : FilePath :=
  root ++ (components relative.bytes).filterMap PathComponent.name

/-- A number in at least eight digits. -/
def pageNumeral (n : U32) : List UInt8 :=
  padded (if n.val < 10 ^ 8 then 8 else if n.val < 10 ^ 9 then 9 else 10) n.val

/-- ticks -/
def ticksName : List UInt8 := [116, 105, 99, 107, 115]

/-- pages -/
def pagesName : List UInt8 := [112, 97, 103, 101, 115]

/-- instrument -/
def instrumentName : List UInt8 := [105, 110, 115, 116, 114, 117, 109, 101, 110, 116]

/-- yaml -/
def yamlExtension : List UInt8 := [121, 97, 109, 108]

/-- zst.tmp -/
def compressedTemporaryExtension : List UInt8 := [122, 115, 116, 46, 116, 109, 112]

/-- tmp -/
def temporaryExtension : List UInt8 := CursorCheckpoint.temporaryExtension

/-- current.yaml -/
def currentName : List UInt8 := [99, 117, 114, 114, 101, 110, 116, 46, 121, 97, 109, 108]

/-- manifest.yaml -/
def manifestName : List UInt8 := [109, 97, 110, 105, 102, 101, 115, 116, 46, 121, 97, 109, 108]

/-- revisions -/
def revisionsName : List UInt8 := [114, 101, 118, 105, 115, 105, 111, 110, 115]

/-- staging -/
def stagingName : List UInt8 := [115, 116, 97, 103, 105, 110, 103]

/-- source -/
def sourceName : List UInt8 := [115, 111, 117, 114, 99, 101]

/-- checkpoint.json -/
def checkpointName : List UInt8 :=
  [99, 104, 101, 99, 107, 112, 111, 105, 110, 116, 46, 106, 115, 111, 110]

/-- instrument/daily.yaml -/
def dailyMetadataPath : FilePath :=
  [instrumentName, [100, 97, 105, 108, 121, 46, 121, 97, 109, 108]]

/-- The directory of the pages in an attempt. -/
def pagesPath : FilePath := [ticksName, pagesName]

/-- ticks/pages/00000000.yaml -/
def pageMetadataPath (ordinal : U32) : FilePath :=
  pagesPath ++ [pageNumeral ordinal ++ 46 :: yamlExtension]

/-- instrument/daily.json.zst -/
def dailyObjectPath : Text :=
  ⟨[105, 110, 115, 116, 114, 117, 109, 101, 110, 116, 47, 100, 97, 105, 108, 121, 46, 106, 115, 111,
  110, 46, 122, 115, 116], by decide⟩

theorem ascii_of_all {bytes : List UInt8} (h : bytes.all (fun byte => decide (byte ≤ 0x7F)) = true)
    (byte : UInt8)
    (hbyte : byte ∈ bytes) : byte ≤ 0x7F := of_decide_eq_true (List.all_eq_true.1 h byte hbyte)

theorem ascii_padded (width n : ℕ) (byte : UInt8) (h : byte ∈ padded width n) : byte ≤ 0x7F := by
  have hdigit := List.all_eq_true.1 (all_isDigit_padded width n) byte h
  simp only [isDigit, Bool.and_eq_true, decide_eq_true_eq] at hdigit
  exact UInt8.le_trans hdigit.2 (by decide)

/-- The name of a page: 00000000.json.zst -/
def pageObjectName (ordinal : U32) : List UInt8 :=
  pageNumeral ordinal ++ [46, 106, 115, 111, 110, 46, 122, 115, 116]

/-- ticks/pages/00000000.json.zst -/
def pageObjectPath (ordinal : U32) : Text where
  bytes := ticksName ++ [47] ++ pagesName ++ [47] ++ pageObjectName ordinal
  utf8 := by
    apply Hex.isUtf8_of_ascii
    intro byte hbyte
    simp only [pageObjectName, pageNumeral, List.mem_append] at hbyte
    rcases hbyte with (((h | h) | h) | h) | h | h
    · exact ascii_of_all (by decide) byte h
    · exact ascii_of_all (by decide) byte h
    · exact ascii_of_all (by decide) byte h
    · exact ascii_of_all (by decide) byte h
    · exact ascii_padded _ _ byte h
    · exact ascii_of_all (by decide) byte h

end Paths

structure SourcePage where
  ordinal : U32
  queryIdentity : Digest
  body : List UInt8
  bodyFingerprint : Digest
  recordCount : U64

namespace SourcePage

def new (env : StorageEnv) (ordinal : U32) (queryIdentity : Digest) (body : List UInt8)
    (recordCount : U64) : SourcePage :=
  ⟨ordinal, queryIdentity, body, env.hash body, recordCount⟩

def commitReceipt (self : SourcePage) : PageCommitReceipt := ⟨self.ordinal, self.bodyFingerprint⟩

end SourcePage

def PendingPage.sourcePage (env : StorageEnv) (self : PendingPage) : SourcePage :=
  SourcePage.new env self.ordinal self.queryIdentity self.body self.recordCount

structure StagedPage where
  metadata : PageMetadata
  receipt : PageCommitReceipt

section Manifest
variable (env : StorageEnv)

/-- The kind, the place, the length and the digest of an object. -/
def appendSemanticObject (metadata : PageMetadata) : Except StagingError (List UInt8) := do
  let checksum ← okOr .invalidChecksum (Hex.decode32 true metadata.uncompressedSha256.bytes)
  return (match metadata.kind with
    | .tickPage => 1
    | .dailyInstrument => 2) :: ofUnsigned 4 metadata.ordinal ++
        ofUnsigned 8 metadata.uncompressedBytes ++ checksum.bytes

def appendSemanticObjects : List PageMetadata → Except StagingError (List UInt8)
  | [] => .ok []
  | page :: rest => do
    let bytes ← appendSemanticObject page
    return bytes ++ (← appendSemanticObjects rest)

/-- The place is compared after it is cut to 32 bits. -/
def checkContiguous : ℕ → List PageMetadata → Except StagingError Unit
  | _, [] => .ok ()
  | expected, page :: rest => do
    ensure (page.kind = .tickPage ∧ page.ordinal = Unsigned.wrap 32 expected) .nonContiguousPages
    checkContiguous (expected + 1) rest

def sumRecords : U64 → List PageMetadata → Option U64
  | total, [] => some total
  | total, page :: rest => do
    let total ← total.checkedAdd page.recordCount
    sumRecords total rest

def SourceManifest.version : U16 := Unsigned.wrap 16 1

/-- Pages are put in order of their ordinals. The identity is over OSSR, the version and the
objects. -/
def SourceManifest.build (queryIdentity : Digest) (terminalCursorReached : Bool)
    (pages : List PageMetadata)
    (dailyInstrument : PageMetadata) : Except StagingError SourceManifest := do
  ensure (terminalCursorReached = true) .cursorNotTerminal
  let pages := pages.insertionSort fun a b => a.ordinal ≤ b.ordinal
  checkContiguous 0 pages
  let tickRecordCount ← okOr .countOverflow (sumRecords 0 pages)
  let daily ← appendSemanticObject dailyInstrument
  let objects ← appendSemanticObjects pages
  let semantic := [79, 83, 83, 82] ++ ofUnsigned 2 SourceManifest.version ++ daily ++ objects
  return {
    manifestVersion := SourceManifest.version
    revisionIdentity := Hex.text (env.sha256 semantic).bytes
    queryIdentity := Hex.text queryIdentity.bytes
    terminalCursorReached := terminalCursorReached
    tickRecordCount := tickRecordCount
    pages := pages
    dailyInstrument := dailyInstrument }

end Manifest

structure StagingRevision where
  publishRoot : FilePath
  attemptPath : FilePath
  pages : List PageMetadata
  dailyInstrument : Option PageMetadata

structure PublishedRevision where
  path : FilePath
  manifest : SourceManifest

section Staging
variable (env : StorageEnv)

abbrev StagingOp (α : Type) := EStateM StagingError Disk α

def io {α : Type} (op : EStateM IoError Disk α) : StagingOp α := zoom id (fun _ disk => disk) .io op

/-- The object is written under a temporary name, which must not be taken, read back and moved into
its place. -/
def writeCompressedObject (root : FilePath) (relativePath : Text) (kind : ObjectKind)
    (ordinal : U32) (recordCount : U64)
    (queryIdentity : Digest) (body : List UInt8) : StagingOp PageMetadata := do
  let finalPath := join root relativePath
  let tmpPath := withExtension finalPath compressedTemporaryExtension
  io (createNew tmpPath)
  io (writeAll tmpPath (env.compress body))
  let compressed ← io (read tmpPath)
  let decoded ← lift (okOr (.io .invalidData) (env.decompress compressed))
  lift (ensure (decoded = body) .roundTripMismatch)
  let _ ← lift ((env.fromSlice decoded).mapError .invalidJson)
  io (renameFile tmpPath finalPath)
  io (syncDirectory finalPath.dropLast)
  return {
    kind := kind
    ordinal := ordinal
    relativePath := relativePath
    recordCount := recordCount
    uncompressedBytes := Unsigned.wrap 64 body.length
    compressedBytes := Unsigned.wrap 64 compressed.length
    uncompressedSha256 := Hex.text (env.sha256 body).bytes
    compressedSha256 := Hex.text (env.sha256 compressed).bytes
    compression := .zstdPerPageV1
    zstdImplementation := ⟨[122, 115, 116, 100], by decide⟩
    zstdVersion := env.zstdVersion
    queryIdentity := Hex.text queryIdentity.bytes }

def writeAtomicFile (path : FilePath) (bytes : List UInt8) : StagingOp Unit :=
  io (writeAtomic (withExtension path temporaryExtension) path bytes)

namespace StagingRevision

/-- Letters, digits, hyphens and underscores. -/
def validateAttemptId (attemptId : Text) : Except StagingError Unit :=
  ensure (attemptId.isEmpty = false ∧
    attemptId.bytes.all (fun byte => isAsciiAlphanumeric byte || byte = 45 || byte = 95) = true)
    .invalidAttemptId

def create (dataRoot : FilePath) (attemptId : Text) : Except StagingError StagingRevision := do
  validateAttemptId attemptId
  return ⟨dataRoot ++ [sourceName], dataRoot ++ [stagingName, attemptId.bytes], [], none⟩

/-- The attempt of a partition, whose revisions are beside it. -/
def createAt (root : FilePath) (attemptId : Text) : Except StagingError StagingRevision := do
  validateAttemptId attemptId
  return ⟨root, root ++ [stagingName, attemptId.bytes], [], none⟩

def readMetadata (path : FilePath) : StagingOp PageMetadata := do
  let bytes ← io (read path)
  lift ((env.metadataFromSlice bytes).mapError .manifest)

def readAllMetadata : List FilePath → StagingOp (List PageMetadata)
  | [] => pure []
  | path :: rest => do
    let metadata ← readMetadata env path
    return metadata :: (← readAllMetadata rest)

def readDailyMetadata (attemptPath : FilePath) : StagingOp (Option PageMetadata) := do
  let disk ← get
  let dailyPath := attemptPath ++ dailyMetadataPath
  if present disk.contents dailyPath = true then some <$> readMetadata env dailyPath else pure none

/-- The metadata files, in the order of their names, up to the number of committed pages. -/
def resumeAt (publishRoot attemptPath : FilePath) (committedPages : U32) :
    StagingOp StagingRevision := do
  let disk ← get
  let metadataPaths := (listing disk.contents (attemptPath ++ pagesPath)).filter fun path =>
    path.getLast?.bind extension = some yamlExtension
  let pages ← readAllMetadata env metadataPaths
  lift (ensure (committedPages.val ≤ pages.length) .checkpointPageMismatch)
  let dailyInstrument ← readDailyMetadata env attemptPath
  return ⟨publishRoot, attemptPath, pages.take committedPages.val, dailyInstrument⟩

/-- A page whose metadata is there already must be the page it describes. -/
def stagePage (self : StagingRevision) (page : SourcePage) :
    StagingOp (StagingRevision × StagedPage) := do
  lift (ensure (page.ordinal = Unsigned.wrap 32 self.pages.length) .nonContiguousPages)
  let metadataPath := self.attemptPath ++ pageMetadataPath page.ordinal
  let disk ← get
  if present disk.contents metadataPath = true then
    let metadata ← readMetadata env metadataPath
    lift (ensure (metadata.recordCount = page.recordCount ∧
      metadata.uncompressedBytes = Unsigned.wrap 64 page.body.length ∧
      metadata.uncompressedSha256 = Hex.text (env.sha256 page.body).bytes) .interruptedPageChanged)
    return ({ self with pages := self.pages ++ [metadata] }, ⟨metadata, page.commitReceipt⟩)
  let metadata ← writeCompressedObject env self.attemptPath
      (pageObjectPath page.ordinal) .tickPage page.ordinal page.recordCount
    page.queryIdentity page.body
  writeAtomicFile metadataPath (env.metadataToVec metadata)
  return ({ self with pages := self.pages ++ [metadata] }, ⟨metadata, page.commitReceipt⟩)

def stageDailyInstrument (self : StagingRevision) (queryIdentity : Digest) (body : List UInt8) :
    StagingOp (StagingRevision × PageMetadata) := do
  let _ ← lift ((env.fromSlice body).mapError .invalidJson)
  let metadata ← writeCompressedObject env self.attemptPath dailyObjectPath .dailyInstrument 0
      (Unsigned.wrap 64 1)
    queryIdentity body
  writeAtomicFile (self.attemptPath ++ dailyMetadataPath) (env.metadataToVec metadata)
  return ({ self with dailyInstrument := some metadata }, metadata)

def removeIfPresent (path : FilePath) : StagingOp Unit := do
  let disk ← get
  if present disk.contents path = true then io (removeFile path)

/-- The attempt loses what only staging needs, gets its manifest, is moved to its identity and made
the current one. -/
def publish (self : StagingRevision) (queryIdentity : Digest) (terminalCursorReached : Bool) :
    StagingOp PublishedRevision := do
  let dailyInstrument ← lift (okOr .dailyInstrumentMissing self.dailyInstrument)
  let manifest ← lift
      (SourceManifest.build env queryIdentity terminalCursorReached self.pages dailyInstrument)
  each removeIfPresent [self.attemptPath ++ [checkpointName], self.attemptPath ++ dailyMetadataPath]
  each (fun page => removeIfPresent (self.attemptPath ++ pageMetadataPath page.ordinal))
    manifest.pages
  writeAtomicFile (self.attemptPath ++ [manifestName]) (env.manifestToVec manifest)
  io (syncDirectory self.attemptPath)
  let revisions := self.publishRoot ++ [revisionsName]
  let publishedPath := revisions ++ [manifest.revisionIdentity.bytes]
  let disk ← get
  lift (ensure (present disk.contents publishedPath = false)
    (.revisionAlreadyExists manifest.revisionIdentity))
  io (renameDirectory self.attemptPath publishedPath)
  io (syncDirectory revisions)
  writeAtomicFile (self.publishRoot ++ [currentName]) manifest.revisionIdentity.bytes
  return ⟨publishedPath, manifest⟩

end StagingRevision

end Staging

end Osmium
