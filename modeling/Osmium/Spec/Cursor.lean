import Osmium.Lib.Files
import Osmium.Lib.Hex
import Osmium.Spec.Query

/-! The paged download: the cursor machine that asks for one page after the other, and the
checkpoint it is resumed from. -/

namespace Osmium
open Machine Bytes Result Stateful Files

inductive CursorState | ready | requestInFlight | awaitingDurableCommit | terminal | invalid
deriving DecidableEq

inductive CursorAction | requestNext | requestFailed | acceptResponse | commitPage
deriving DecidableEq

/-- The fields a tick must have. -/
inductive TickField | type | market | symbol | format | matchTime | receivedAt
deriving DecidableEq

/-- type, market, symbol, format, match_time, received_at -/
def TickField.name : TickField → Text
  | .type => ⟨[116, 121, 112, 101], by decide⟩
  | .market => ⟨[109, 97, 114, 107, 101, 116], by decide⟩
  | .symbol => ⟨[115, 121, 109, 98, 111, 108], by decide⟩
  | .format => ⟨[102, 111, 114, 109, 97, 116], by decide⟩
  | .matchTime => ⟨[109, 97, 116, 99, 104, 95, 116, 105, 109, 101], by decide⟩
  | .receivedAt => ⟨[114, 101, 99, 101, 105, 118, 101, 100, 95, 97, 116], by decide⟩

inductive CursorError
  | queryIsNotPaged
  | emptyCursor
  | queryDrift
  | cursorDrift
  | cursorDidNotAdvance
  | duplicatePage
  | invalidEnvelope
  | invalidTickEnvelope
  | missingTickField (field : TickField)
  | tickIdentityMismatch (field : TickField)
  | invalidJson (message : Text)
  | commitReceiptMismatch
  | invalidTransition (state : CursorState) (action : CursorAction)
  | panicked
deriving DecidableEq

/-- An opaque, non-empty place in the results of a query. -/
@[ext] structure TeralionCursor where
  value : Text
  nonempty : value.isEmpty = false

instance : DecidableEq TeralionCursor := fun _ _ => decidable_of_iff' _ TeralionCursor.ext_iff

def TeralionCursor.new (value : Text) : Except CursorError TeralionCursor :=
  if nonempty : value.isEmpty = false then .ok ⟨value, nonempty⟩ else .error .emptyCursor

def TeralionCursor.digest (hash : List UInt8 → Digest) (self : TeralionCursor) : Digest :=
  hash self.value.bytes

structure TeralionRequest where
  query : TeralionQuery
  queryIdentity : Digest
  cursor : Option TeralionCursor
deriving DecidableEq

structure PendingPage where
  ordinal : U32
  queryIdentity : Digest
  body : List UInt8
  bodyFingerprint : Digest
  recordCount : U64
  nextCursor : Option TeralionCursor
deriving DecidableEq

structure PageCommitReceipt where
  ordinal : U32
  bodyFingerprint : Digest
deriving DecidableEq

@[ext] structure CursorCheckpoint where
  queryIdentity : Digest
  committedPages : U32
  nextCursor : Option TeralionCursor
  seenCursorDigests : Std.ExtTreeSet Digest
  seenPageFingerprints : Std.ExtTreeSet Digest
  terminal : Bool

section Page

/-- items -/
def itemsName : Text := ⟨[105, 116, 101, 109, 115], by decide⟩

/-- next_cursor -/
def nextCursorName : Text := ⟨[110, 101, 120, 116, 95, 99, 117, 114, 115, 111, 114], by decide⟩

structure ParsedPage where
  recordCount : U64
  nextCursor : Option TeralionCursor

def requiredString (item : Json) (field : TickField) : Except CursorError Text :=
  okOr (.missingTickField field) ((item.get? field.name).bind Json.asString)

def validateTick (item : Json) (instrument : InstrumentId) (kinds : List ArchiveKind)
    (archiveMarket : ArchiveMarket) :
    Except CursorError Unit := do
  let _ ← okOr .invalidTickEnvelope item.asObject
  let kind ← requiredString item .type
  ensure (kinds.any (fun expected => expected.slug = kind) = true) (.tickIdentityMismatch .type)
  let market ← requiredString item .market
  ensure (market = archiveMarket.wireMarket) (.tickIdentityMismatch .market)
  let symbol ← requiredString item .symbol
  ensure (symbol = instrument.symbol.text) (.tickIdentityMismatch .symbol)
  let format ← requiredString item .format
  ensure (format.isEmpty = false) .invalidTickEnvelope
  let matchTime ← requiredString item .matchTime
  ensure (matchTime.isEmpty = false) .invalidTickEnvelope
  let receivedAt ← requiredString item .receivedAt
  ensure (receivedAt.isEmpty = false) .invalidTickEnvelope

def validateTicks (query : TeralionQuery) : List Json → Except CursorError Unit
  | [] => .ok ()
  | item :: rest => do
    match query with
    | .ticks instrument _ _ kinds _ archiveMarket =>
      validateTick item instrument kinds
        (archiveMarket.getD (ArchiveMarket.forInstrument instrument))
    | _ => .ok ()
    validateTicks query rest

def parseNextCursor : Option Json → Except CursorError (Option TeralionCursor)
  | some .null => .ok none
  | some (.string value) => some <$> TeralionCursor.new value
  | _ => .error .invalidEnvelope

/-- The JSON parser is a parameter. -/
def parsePage (fromSlice : List UInt8 → Except Text Json) (query : TeralionQuery)
    (body : List UInt8) :
    Except CursorError ParsedPage := do
  let value ← (fromSlice body).mapError .invalidJson
  let _ ← okOr .invalidEnvelope value.asObject
  let items ← okOr .invalidEnvelope ((value.get? itemsName).bind Json.asArray)
  validateTicks query items
  let nextCursor ← parseNextCursor (value.get? nextCursorName)
  return ⟨Unsigned.wrap 64 items.length, nextCursor⟩

end Page

/-- The checkpoint after a page. The counter wraps. -/
def CursorCheckpoint.advance (hash : List UInt8 → Digest) (checkpoint : CursorCheckpoint)
    (pending : PendingPage) :
    CursorCheckpoint where
  queryIdentity := checkpoint.queryIdentity
  committedPages := Unsigned.wrap 32 (checkpoint.committedPages.val + 1)
  nextCursor := pending.nextCursor
  seenCursorDigests := match pending.nextCursor with
    | some cursor => checkpoint.seenCursorDigests.insert (cursor.digest hash)
    | none => checkpoint.seenCursorDigests
  seenPageFingerprints := checkpoint.seenPageFingerprints.insert pending.bodyFingerprint
  terminal := pending.nextCursor.isNone

structure CursorStateMachine where
  query : TeralionQuery
  checkpoint : CursorCheckpoint
  state : CursorState
  pending : Option PendingPage

namespace CursorStateMachine

abbrev Op (α : Type) := EStateM CursorError CursorStateMachine α

section Construction
variable (hash : List UInt8 → Digest)

def new (query : TeralionQuery) : Except CursorError CursorStateMachine := do
  ensure (query.isPaged = true) .queryIsNotPaged
  return ⟨query, ⟨query.identity hash, 0, none, ∅, ∅, false⟩, .ready, none⟩

def resume (query : TeralionQuery) (checkpoint : CursorCheckpoint) :
    Except CursorError CursorStateMachine := do
  ensure (query.identity hash = checkpoint.queryIdentity) .queryDrift
  return ⟨query, checkpoint, if checkpoint.terminal then .terminal else .ready, none⟩

end Construction

section Calls
variable (hash : List UInt8 → Digest) (fromSlice : List UInt8 → Except Text Json)

def requestNext : Op TeralionRequest := do
  let self ← get
  lift (ensure (self.state = .ready) (.invalidTransition self.state .requestNext))
  set { self with state := .requestInFlight }
  return ⟨self.query, self.checkpoint.queryIdentity, self.checkpoint.nextCursor⟩

/-- A request that is not the one the checkpoint asks for makes the machine invalid, whatever its
state was. -/
def validateRequest (request : TeralionRequest) : Op Unit := do
  let self ← get
  if request.queryIdentity ≠ self.checkpoint.queryIdentity ∨
    request.query.identity hash ≠ self.checkpoint.queryIdentity then
    set { self with state := .invalid }
    throw .queryDrift
  if request.cursor ≠ self.checkpoint.nextCursor then
    set { self with state := .invalid }
    throw .cursorDrift

def requestFailed (request : TeralionRequest) : Op Unit := do
  validateRequest hash request
  let self ← get
  lift (ensure (self.state = .requestInFlight) (.invalidTransition self.state .requestFailed))
  set { self with state := .ready }

/-- Whether the next cursor was the last one or was seen before. -/
def revisits (self : CursorStateMachine) (request : TeralionRequest)
    (next : TeralionCursor) : Bool :=
  request.cursor = some next || self.checkpoint.seenCursorDigests.contains (next.digest hash)

def acceptResponse (request : TeralionRequest) (body : List UInt8) : Op PendingPage := do
  validateRequest hash request
  let self ← get
  lift (ensure (self.state = .requestInFlight) (.invalidTransition self.state .acceptResponse))
  let parsed ← lift (parsePage fromSlice self.query body)
  let bodyFingerprint := hash body
  if self.checkpoint.seenPageFingerprints.contains bodyFingerprint = true then
    set { self with state := .invalid }
    throw .duplicatePage
  if parsed.nextCursor.any (self.revisits hash request) = true then
    set { self with state := .invalid }
    throw .cursorDidNotAdvance
  let pending :=
    ⟨self.checkpoint.committedPages, self.checkpoint.queryIdentity, body, bodyFingerprint,
      parsed.recordCount,
    parsed.nextCursor⟩
  set { self with pending := some pending, state := .awaitingDurableCommit }
  return pending

def commitPage (receipt : PageCommitReceipt) : Op Unit := do
  let self ← get
  lift (ensure (self.state = .awaitingDurableCommit) (.invalidTransition self.state .commitPage))
  let pending ← lift (okOr .panicked self.pending)
  lift
    (ensure (receipt.ordinal = pending.ordinal ∧ receipt.bodyFingerprint = pending.bodyFingerprint)
      .commitReceiptMismatch)
  let checkpoint := CursorCheckpoint.advance hash self.checkpoint pending
  set { self with
    checkpoint := checkpoint
    state := if checkpoint.terminal then .terminal else .ready
    pending := none }

end Calls

end CursorStateMachine

section File

inductive CheckpointField | queryIdentity | committedPages | nextCursor | seenCursorDigests |
    seenPageFingerprints | terminal
deriving DecidableEq

/-- query_identity, committed_pages, next_cursor, seen_cursor_digests, seen_page_fingerprints,
terminal -/
def CheckpointField.name : CheckpointField → Text
  | .queryIdentity =>
    ⟨[113, 117, 101, 114, 121, 95, 105, 100, 101, 110, 116, 105, 116, 121], by decide⟩
  | .committedPages =>
    ⟨[99, 111, 109, 109, 105, 116, 116, 101, 100, 95, 112, 97, 103, 101, 115], by decide⟩
  | .nextCursor => nextCursorName
  | .seenCursorDigests =>
    ⟨[115, 101, 101, 110, 95, 99, 117, 114, 115, 111, 114, 95, 100, 105, 103, 101, 115, 116,
      115], by decide⟩
  | .seenPageFingerprints =>
    ⟨[115, 101, 101, 110, 95, 112, 97, 103, 101, 95, 102, 105, 110, 103, 101, 114, 112,
      114, 105, 110, 116, 115], by decide⟩
  | .terminal => ⟨[116, 101, 114, 109, 105, 110, 97, 108], by decide⟩

inductive CheckpointError
  | io (error : IoError)
  | json (message : Text)
  | invalidData (field : CheckpointField)
  | cursor (error : CursorError)
deriving DecidableEq

namespace CursorCheckpoint

def digestsToJson (digests : Std.ExtTreeSet Digest) : Json :=
  .array (digests.toList.map fun digest => .string (Hex.text digest.bytes))

/-- The document a checkpoint is saved as, its fields in the order of their names. -/
def toJson (self : CursorCheckpoint) : Json :=
  .object [
    (CheckpointField.committedPages.name, .number (Unsigned.ofNat? 64 self.committedPages.val)),
    (CheckpointField.nextCursor.name,
      (self.nextCursor.map fun cursor => Json.string cursor.value).getD .null),
    (CheckpointField.queryIdentity.name, .string (Hex.text self.queryIdentity.bytes)),
    (CheckpointField.seenCursorDigests.name, digestsToJson self.seenCursorDigests),
    (CheckpointField.seenPageFingerprints.name, digestsToJson self.seenPageFingerprints),
    (CheckpointField.terminal.name, .bool self.terminal)]

def decodeDigests (field : CheckpointField) : List Json → Except CheckpointError (List Digest)
  | [] => .ok []
  | item :: rest => do
    let digest ← okOr (.invalidData field)
        (item.asString.bind fun text => Hex.decode32 false text.bytes)
    return digest :: (← decodeDigests field rest)

def digestSet (value : Json) (field : CheckpointField) :
    Except CheckpointError (Std.ExtTreeSet Digest) := do
  let items ← okOr (.invalidData field) ((value.get? field.name).bind Json.asArray)
  return .ofList (← decodeDigests field items)

def readNextCursor : Option Text → Except CheckpointError (Option TeralionCursor)
  | some text => (some <$> TeralionCursor.new text).mapError .cursor
  | none => .ok none

def ofJson (value : Json) : Except CheckpointError CursorCheckpoint := do
  let identityText ← okOr (.invalidData .queryIdentity)
      ((value.get? CheckpointField.queryIdentity.name).bind Json.asString)
  let queryIdentity ← okOr (.invalidData .queryIdentity) (Hex.decode32 false identityText.bytes)
  let committedPages ← okOr (.invalidData .committedPages)
    (((value.get? CheckpointField.committedPages.name).bind Json.asUnsigned).bind fun count =>
      Unsigned.ofNat? 32 count.val)
  let nextCursor ← readNextCursor ((value.get? CheckpointField.nextCursor.name).bind Json.asString)
  let seenCursorDigests ← digestSet value .seenCursorDigests
  let seenPageFingerprints ← digestSet value .seenPageFingerprints
  let terminal ← okOr (.invalidData .terminal)
      ((value.get? CheckpointField.terminal.name).bind Json.asBool)
  return ⟨queryIdentity, committedPages, nextCursor, seenCursorDigests,
    seenPageFingerprints, terminal⟩

/-- tmp -/
def temporaryExtension : List UInt8 := [116, 109, 112]

/-- The JSON writer is a parameter. -/
def save (toVecPretty : Json → List UInt8) (self : CursorCheckpoint) (path : FilePath) :
    EStateM IoError Disk Unit :=
  writeAtomic (withExtension path temporaryExtension) path (toVecPretty self.toJson)

def load (fromSlice : List UInt8 → Except Text Json) (contents : Contents) (path : FilePath) :
    Except CheckpointError CursorCheckpoint := do
  let bytes ← okOr (.io .notFound) contents[path]?
  let value ← (fromSlice bytes).mapError .json
  ofJson value

end CursorCheckpoint

end File

end Osmium
