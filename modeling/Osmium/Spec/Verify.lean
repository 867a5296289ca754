import Osmium.Spec.Storage

/-! What a reader of the current revision checks before it trusts it. -/

namespace Osmium
open Machine Bytes Result Files

inductive VerificationError
  | io (error : IoError)
  | invalidCurrentPointer
  | manifest (message : Text)
  | rebuild (error : StagingError)
  | manifestInvariant
  | noTickPages
  | dailyInstrumentMissing
  | unsafeObjectPath
  | compressedChecksumMismatch
  | compressionFrameInvalid
  | uncompressedChecksumMismatch
  | payloadJson (message : Text)
  | payloadEnvelope
  | recordCountMismatch
  | countOverflow
  | revisionMismatch
deriving DecidableEq

structure VerificationReport where
  revision : Digest
  manifest : SourceManifest
  revisionRoot : FilePath
deriving DecidableEq

section Text

/-- The length of the white space a text begins with, if it begins with any. -/
def leadingBlank : List UInt8 → ℕ
  | [] => 0
  | a :: rest =>
    if (0x09 ≤ a && a ≤ 0x0D) || a == 0x20 then 1
    else match rest with
      | [] => 0
      | b :: rest =>
        if a == 0xC2 && (b == 0x85 || b == 0xA0) then 2
        else match rest with
          | [] => 0
          | c :: _ => if whitespaceOfThree a b c then 3 else 0

def trimStart (text : List UInt8) : List UInt8 :=
  if _h : leadingBlank text = 0 then text else trimStart (text.drop (leadingBlank text))
termination_by text.length
decreasing_by
  cases text with
  | nil => exact absurd rfl _h
  | cons a rest =>
    rw [List.length_drop, List.length_cons]
    omega

def trimEnd : List UInt8 → List UInt8
  | [] => []
  | a :: rest => if isBlank (a :: rest) = true then [] else a :: trimEnd rest

def trim (text : List UInt8) : List UInt8 := trimEnd (trimStart text)

end Text

section Verify
variable (env : StorageEnv) (contents : Contents)

/-- A directory can be opened but not read. -/
def readFile (path : FilePath) : Except VerificationError (List UInt8) :=
  okOr (.io (if present contents path = true then .isDirectory else .notFound)) contents[path]?

def recordsOf (kind : ObjectKind) (value : Json) : Except VerificationError U64 :=
  match kind with
  | .tickPage => do
    let items ← okOr .payloadEnvelope ((value.get? itemsName).bind Json.asArray)
    return Unsigned.wrap 64 items.length
  | .dailyInstrument => .ok (Unsigned.wrap 64 1)

def verifyObject (root : FilePath) (metadata : PageMetadata) : Except VerificationError Unit := do
  ensure ((components metadata.relativePath.bytes).all PathComponent.isNormal = true)
    .unsafeObjectPath
  let compressed ← readFile contents (join root metadata.relativePath)
  ensure (Hex.text (env.sha256 compressed).bytes = metadata.compressedSha256 ∧
    Unsigned.wrap 64 compressed.length = metadata.compressedBytes) .compressedChecksumMismatch
  let body ← okOr .compressionFrameInvalid (env.decompress compressed)
  ensure (Unsigned.wrap 64 body.length = metadata.uncompressedBytes ∧
    Hex.text (env.sha256 body).bytes = metadata.uncompressedSha256) .uncompressedChecksumMismatch
  let value ← (env.fromSlice body).mapError .payloadJson
  let actualRecords ← recordsOf metadata.kind value
  ensure (actualRecords = metadata.recordCount) .recordCountMismatch

def verifyPages (root : FilePath) : ℕ → U64 → List PageMetadata → Except VerificationError U64
  | _, tickRecords, [] => .ok tickRecords
  | expected, tickRecords, page :: rest => do
    ensure (page.kind = .tickPage ∧ page.ordinal = Unsigned.wrap 32 expected) .manifestInvariant
    verifyObject env contents root page
    let tickRecords ← okOr .countOverflow (tickRecords.checkedAdd page.recordCount)
    verifyPages root (expected + 1) tickRecords rest

/-- The text of the pointer file. -/
def readPointer (sourceRoot : FilePath) : Except VerificationError (List UInt8) := do
  let text ← readFile contents (sourceRoot ++ [currentName])
  ensure (isUtf8 text = true) (.io .invalidData)
  return trim text

def verifyCurrent (sourceRoot : FilePath) : Except VerificationError VerificationReport := do
  let revisionText ← readPointer contents sourceRoot
  let revision ← okOr .invalidCurrentPointer (Hex.decode32 true revisionText)
  let revisionPath := sourceRoot ++ [revisionsName, revisionText]
  let manifestBytes ← readFile contents (revisionPath ++ [manifestName])
  let manifest ← (env.manifestFromSlice manifestBytes).mapError .manifest
  ensure (manifest.manifestVersion = SourceManifest.version ∧
    manifest.revisionIdentity.bytes = revisionText ∧
    manifest.terminalCursorReached = true) .manifestInvariant
  ensure (manifest.pages ≠ []) .noTickPages
  let tickRecords ← verifyPages env contents revisionPath 0 0 manifest.pages
  ensure (manifest.dailyInstrument.kind = .dailyInstrument) .dailyInstrumentMissing
  verifyObject env contents revisionPath manifest.dailyInstrument
  ensure (tickRecords = manifest.tickRecordCount) .recordCountMismatch
  let queryIdentity ← okOr .manifestInvariant (Hex.decode32 true manifest.queryIdentity.bytes)
  let rebuilt ← (SourceManifest.build env queryIdentity true manifest.pages
      manifest.dailyInstrument).mapError .rebuild
  ensure (rebuilt.revisionIdentity = manifest.revisionIdentity) .revisionMismatch
  return ⟨revision, manifest, revisionPath⟩

end Verify

end Osmium
