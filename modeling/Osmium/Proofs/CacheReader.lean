import Osmium.Proofs.Cache
import Osmium.Sanity.CacheReader

/-! Caches read back. Whatever a reader reads to its end is a file of just these events, and the
cache that a build has published is read back exactly when every event of it can be decoded. -/

namespace Osmium
open Machine Bytes Result Stateful Directories
open Files (FilePath)

namespace CacheReader
open CacheBuilder (payloadOf eventsHeader)
variable {env : CacheEnv} {nodes : Nodes} {path : FilePath}

section Conformity

/-- The file of these events, in order, as the descriptor tells of it. -/
structure IsCacheOf (env : CacheEnv) (descriptor : CacheDescriptor) (file : List UInt8)
    (events : List DomainEvent) : Prop where
  bytes : ∃ payload, payloadOf events = .ok payload ∧ file = eventsHeader events ++ payload ∧
    Hex.text (env.sha256 payload).bytes = descriptor.payloadSha256
  count : descriptor.eventCount.val = events.length
  wellFormed : ∀ event ∈ events, event.AuctionsWellFormed
  covers : ∀ event ∈ events, Covers descriptor event
  ordered : InOrder env.hash events
  first : events.head?.map (fun event => event.matchTime.unixMicroseconds) =
    descriptor.firstMatchTimeMicros
  last : events.getLast?.map (fun event => event.matchTime.unixMicroseconds) =
      descriptor.lastMatchTimeMicros

theorem headerOf_eq {descriptor : CacheDescriptor} {events : List DomainEvent}
    (h : descriptor.eventCount.val = events.length) :
    headerOf descriptor = eventsHeader events := by
  rw [headerOf, eventsHeader, ← h, Unsigned.wrap_val]

theorem readsAll_fresh (descriptor : CacheDescriptor) (rest : List UInt8)
    (events : List DomainEvent) :
    ReadsAll env events (fresh descriptor rest) ↔
    IsCacheOf env descriptor (headerOf descriptor ++ rest) events := by
  rw [readsAll_iff rfl]
  constructor
  · intro h
    exact {
      bytes := ⟨rest, h.payload, by rw [headerOf_eq h.count], h.hash⟩
      count := h.count
      wellFormed := h.wellFormed
      covers := h.covers
      ordered := (ascends_none _ _).1 h.ascends
      first := h.first
      last := Option.or_none.symm.trans h.last }
  · intro h
    obtain ⟨payload, hpayload, hfile, hhash⟩ := h.bytes
    rw [headerOf_eq h.count, List.append_cancel_left_eq] at hfile
    subst hfile
    exact {
      payload := hpayload
      count := h.count
      wellFormed := h.wellFormed
      covers := h.covers
      ascends := (ascends_none _ _).2 h.ordered
      hash := hhash
      first := h.first
      last := Option.or_none.trans h.last }

/-- A reader yields events and then none just where the file it was opened on is the cache of these
events. -/
theorem readsAll_opened {expected : Option Text} {reader : CacheReader}
    (hopen : openInner env nodes path expected = .ok reader)
    (events : List DomainEvent) : ReadsAll env events reader ↔
      ∃ file, nodes[path ++ [eventsName]]? = some (.file file) ∧
      IsCacheOf env reader.descriptor file events := by
  obtain ⟨_, rest, -, -, -, -, hfile, hreader⟩ := openInner_ok.1 hopen
  rw [hreader, readsAll_fresh, ← hreader]
  constructor
  · exact fun h => ⟨_, hfile, h⟩
  · rintro ⟨file, hother, h⟩
    rw [hfile, Option.some.injEq, Node.file.injEq] at hother
    rwa [hother]

/-- What follows the header, if a file is long enough. -/
def payloadBytes (file : List UInt8) : List UInt8 := file.drop 19

theorem payloadBytes_header (descriptor : CacheDescriptor) (rest : List UInt8) :
    payloadBytes (headerOf descriptor ++ rest) = rest := by
  have hlength : (headerOf descriptor).length = 19 := by
    rw [headerOf, List.length_append, List.length_append, length_ofUnsigned, length_ofUnsigned]
    rfl
  rw [payloadBytes, ← hlength, List.drop_left]

/-- Two files that are read to their ends under one descriptor are one file of the same events,
unless their hashes collide. -/
theorem IsCacheOf.unique {descriptor : CacheDescriptor} {file file' : List UInt8}
    {events events' : List DomainEvent}
    (h : IsCacheOf env descriptor file events) (h' : IsCacheOf env descriptor file' events')
    (hfree : env.sha256 (payloadBytes file) = env.sha256 (payloadBytes file') →
      payloadBytes file = payloadBytes file') :
    file = file' ∧ events = events' := by
  obtain ⟨payload, -, rfl, hhash⟩ := id h.bytes
  obtain ⟨payload', -, rfl, hhash'⟩ := id h'.bytes
  rw [← headerOf_eq h.count] at h hfree ⊢
  rw [← headerOf_eq h'.count] at h' hfree ⊢
  rw [payloadBytes_header, payloadBytes_header] at hfree
  have hsame : payload = payload' := by
    refine hfree (Digest.ext (Hex.encode_injective ?_))
    exact congrArg Text.bytes (hhash.trans hhash'.symm)
  subst hsame
  exact ⟨rfl, readsAll_unique ((readsAll_fresh _ _ _).2 h) ((readsAll_fresh _ _ _).2 h')⟩

end Conformity

end CacheReader

namespace CacheBuilder
variable {env : CacheEnv} {dataRoot : FilePath} {tree : Tree} {place : Place}

section Published

theorem io_ok {α : Type} {op : EStateM IoError Nodes α} {nodes next : Nodes} {a : α}
    (h : io op nodes = .ok a next) :
    op nodes = .ok a next := by
  obtain ⟨_, hop, rfl⟩ := (zoom_ok _ _ _ _ _ _ _).1 h
  exact hop

theorem publishAttempt_ok {attempt cacheRoot : FilePath} {descriptor : CacheDescriptor}
    {published : PublishedCache} {now after : Nodes}
    (h : publishAttempt attempt cacheRoot descriptor now = .ok published after) :
    published = ⟨cacheRoot ++ [descriptor.cacheIdentity.bytes], descriptor⟩ ∧
      after = renamed attempt (cacheRoot ++ [descriptor.cacheIdentity.bytes])
        (withDirectories cacheRoot now) := by
  obtain ⟨_, made, hmade, h⟩ := (bind_ok _ _ _ _ _).1 h
  obtain ⟨_, rfl⟩ := createDirAll_ok.1 (io_ok hmade)
  rw [get_bind] at h
  obtain ⟨_, -, h⟩ := lift_bind_ok.1 h
  obtain ⟨_, _, hrename, h⟩ := (bind_ok _ _ _ _ _).1 h
  obtain rfl := rename_ok (io_ok hrename)
  obtain ⟨_, _, hsync, h⟩ := (bind_ok _ _ _ _ _).1 h
  obtain ⟨-, rfl⟩ := syncAll_ok.1 (io_ok hsync)
  obtain ⟨rfl, rfl⟩ := (pure_ok _ _ _ _).1 h
  exact ⟨rfl, rfl⟩

/-- A build that succeeds has written all its events, and its two files are in the published
directory. -/
theorem publishEvents_ok {source : VerificationReport} {instrument : InstrumentId}
    {tradingDate : TradingDate}
    {partitionIdentity : Option Text} {mapping : NormalizerMappingIdentity}
    {events : List DomainEvent} {published : PublishedCache} {after : Nodes}
    (h : publishEvents env source (place.stagingRoot dataRoot)
      (place.cacheRoot dataRoot) instrument tradingDate partitionIdentity mapping events
        tree.nodes = .ok published after) :
    ∃ payload, payloadOf events = .ok payload ∧
      published.descriptor =
        buildDescriptor env source instrument tradingDate partitionIdentity mapping events payload ∧
      published.path = place.cacheRoot dataRoot ++ [published.descriptor.cacheIdentity.bytes] ∧
      ∀ name, after[published.path ++ [name]]? =
        built (eventsHeader events ++ payload) (env.descriptorToVec published.descriptor) name := by
  by_cases htaken : place.attempt dataRoot ∈ tree.nodes
  · rw [publishEvents_refused env source instrument tradingDate partitionIdentity mapping htaken]
      at h
    cases h
  by_cases hblocked : blocked tree.nodes (place.attempt dataRoot) = true
  · rw [publishEvents_blocked env source instrument tradingDate partitionIdentity mapping htaken
      hblocked] at h
    cases h
  have hopen : blocked tree.nodes (place.attempt dataRoot) = false := Bool.eq_false_iff.2 hblocked
  cases hpayload : payloadOf events with
  | error error =>
    obtain ⟨_, hfails, -⟩ :=
      publishEvents_unwritten env source instrument tradingDate partitionIdentity mapping
        htaken hopen
      hpayload
    rw [hfails] at h
    cases h
  | ok payload =>
    obtain ⟨filled, hfilled, hrun⟩ :=
      publishEvents_written env source instrument tradingDate partitionIdentity mapping htaken
      hopen hpayload
    rw [hrun] at h
    obtain ⟨rfl, rfl⟩ := publishAttempt_ok h
    refine ⟨payload, rfl, rfl, rfl, fun name => ?_⟩
    have habove : ¬ place.attempt dataRoot ++ [name] <+: place.cacheRoot dataRoot := fun hleads =>
      (Place.attempt_apart dataRoot place (by decide : ([] : List UInt8) ≠ cacheBuildName)).1
        ((List.prefix_append _ _).trans hleads)
    rw [getElem?_renamed_target, getElem?_withDirectories, if_neg habove, hfilled.inside]

theorem isCompatible_buildDescriptor (source : VerificationReport) (instrument : InstrumentId)
    (tradingDate : TradingDate)
    (partitionIdentity : Option Text) (mapping : NormalizerMappingIdentity)
    (events : List DomainEvent) (payload : List UInt8) :
    isCompatible (buildDescriptor env source instrument tradingDate partitionIdentity mapping events
      payload) = true := by
  simp [isCompatible, buildDescriptor]

/-- The published cache of events in order opens for its revision, and is read to its end as just
these events where all of them can be decoded and counted. -/
theorem publishEvents_reads (hjson :
    ∀ descriptor, env.descriptorFromSlice (env.descriptorToVec descriptor) = .ok descriptor)
    {source : VerificationReport} {instrument : InstrumentId} {tradingDate : TradingDate}
    {partitionIdentity : Option Text} {mapping : NormalizerMappingIdentity}
    {events : List DomainEvent}
    {published : PublishedCache} {after : Nodes} (hordered : InOrder env.hash events)
    (hcovers : ∀ event ∈ events, event.instrument = instrument ∧ event.tradingDate = tradingDate)
    (h : publishEvents env source (place.stagingRoot dataRoot)
      (place.cacheRoot dataRoot) instrument tradingDate partitionIdentity mapping events
        tree.nodes = .ok published after)
    {expected : Option Text}
    (hexpected : ∀ revision ∈ expected, source.manifest.revisionIdentity = revision) :
    ∃ reader, CacheReader.openInner env after published.path expected = .ok reader ∧
      (CacheReader.ReadsAll env events reader ↔
        (∀ event ∈ events, event.AuctionsWellFormed) ∧ events.length < 2 ^ 64) := by
  obtain ⟨payload, hpayload, hdescriptor, -, hfiles⟩ := publishEvents_ok h
  have hevents : after[published.path ++ [eventsName]]? =
      some (.file (CacheReader.headerOf published.descriptor ++ payload)) := by
    rw [hfiles, built, Function.update_of_ne (by decide), only, Function.update_self, hdescriptor]
    rfl
  have hopen : CacheReader.openInner env after published.path expected =
      .ok (CacheReader.fresh published.descriptor payload) := by
    refine CacheReader.openInner_ok.2
      ⟨env.descriptorToVec published.descriptor, payload, ?_, hjson _, ?_, ?_, hevents, rfl⟩
    · rw [hfiles, built, Function.update_self]
    · rw [hdescriptor]
      exact isCompatible_buildDescriptor ..
    · rw [hdescriptor]
      exact hexpected
  refine ⟨_, hopen, ?_⟩
  rw [CacheReader.readsAll_fresh]
  constructor
  · intro hcache
    refine ⟨hcache.wellFormed, ?_⟩
    rw [← hcache.count]
    exact Unsigned.lt _
  · rintro ⟨hwell, hsize⟩
    have hcount : published.descriptor.eventCount.val = events.length := by
      rw [hdescriptor]
      exact Unsigned.val_wrap hsize
    exact {
      bytes := ⟨payload, hpayload, by rw [CacheReader.headerOf_eq hcount], by rw [hdescriptor]; rfl⟩
      count := hcount
      wellFormed := hwell
      covers := fun event hevent => by
        obtain ⟨hinstrument, hdate⟩ := hcovers event hevent
        rw [hdescriptor, Covers, hinstrument, hdate]
        exact ⟨rfl, rfl, rfl⟩
      ordered := hordered
      first := by rw [hdescriptor]; rfl
      last := by rw [hdescriptor]; rfl }

theorem buildExternalPartition_ok {storage : StorageEnv} {key : SourcePartitionKey}
    {mapping : NormalizerMappingIdentity}
    {events : List DomainEvent} {published : PublishedCache} {nodes after : Nodes}
    (h : buildExternalPartition env storage dataRoot key mapping events nodes =
      .ok published after) :
    ∃ source ordered, orderEvents env.hash events = .ok ordered ∧
      (∀ event ∈ ordered, event.instrument = key.instrument ∧ event.tradingDate = key.tradingDate) ∧
      publishEvents env source (Place.stagingRoot dataRoot (.partition key))
        (Place.cacheRoot dataRoot (.partition key))
        key.instrument key.tradingDate (some (Hex.text key.identity.bytes)) mapping ordered nodes =
          .ok published after := by
  rw [buildExternalPartition, get_bind] at h
  obtain ⟨source, -, h⟩ := lift_bind_ok.1 h
  obtain ⟨ordered, hordered, h⟩ := lift_bind_ok.1 h
  obtain ⟨_, hall, h⟩ := lift_bind_ok.1 h
  exact ⟨source, ordered, (mapError_eq_ok _ _ _).1 hordered, (ensure_eq_ok _ _ _).1 hall, h⟩

theorem buildExternalCurrent_ok {storage : StorageEnv} {instrument : InstrumentId}
    {tradingDate : TradingDate}
    {mapping : NormalizerMappingIdentity} {events : List DomainEvent} {published : PublishedCache}
    {nodes after : Nodes}
    (h : buildExternalCurrent env storage dataRoot instrument tradingDate mapping events nodes =
      .ok published after) :
    ∃ source ordered, orderEvents env.hash events = .ok ordered ∧
      (∀ event ∈ ordered, event.instrument = instrument ∧ event.tradingDate = tradingDate) ∧
      publishEvents env source (Place.stagingRoot dataRoot .current)
        (Place.cacheRoot dataRoot .current) instrument
        tradingDate none mapping ordered nodes = .ok published after := by
  rw [buildExternalCurrent, get_bind] at h
  obtain ⟨source, -, h⟩ := lift_bind_ok.1 h
  obtain ⟨ordered, hordered, h⟩ := lift_bind_ok.1 h
  obtain ⟨_, hall, h⟩ := lift_bind_ok.1 h
  exact ⟨source, ordered, (mapError_eq_ok _ _ _).1 hordered, (ensure_eq_ok _ _ _).1 hall, h⟩

/-- What a published cache is read back as, and what a file is that is read to its end. -/
theorem cache_round_trip_iff (env : CacheEnv) :
    (∀ (storage : StorageEnv) (tree : Tree) (dataRoot : FilePath) (key : SourcePartitionKey)
        (mapping : NormalizerMappingIdentity) (events : List DomainEvent)
        (published : PublishedCache) (after : Nodes),
      (∀ descriptor, env.descriptorFromSlice (env.descriptorToVec descriptor) = .ok descriptor) →
      buildExternalPartition env storage dataRoot key mapping events tree.nodes =
        .ok published after →
      ((∃ ordered reader, orderEvents env.hash events = .ok ordered ∧
          CacheReader.openUnbound env after published.path = .ok reader ∧
          CacheReader.ReadsAll env ordered reader) ↔
        (∀ event ∈ events, event.AuctionsWellFormed) ∧ events.length < 2 ^ 64)) ∧
    (∀ (nodes : Nodes) (path : FilePath) (expected : Option Text) (reader : CacheReader)
      (events : List DomainEvent),
      CacheReader.openInner env nodes path expected = .ok reader →
      CacheReader.ReadsAll env events reader →
      ∃ file, nodes[path ++ [eventsName]]? = some (.file file) ∧
        CacheReader.IsCacheOf env reader.descriptor file events) ∧
    (∀ (descriptor : CacheDescriptor) (file file' : List UInt8) (events events' : List DomainEvent),
      CacheReader.IsCacheOf env descriptor file events →
      CacheReader.IsCacheOf env descriptor file' events' →
      (env.sha256 (CacheReader.payloadBytes file) = env.sha256 (CacheReader.payloadBytes file') →
        CacheReader.payloadBytes file = CacheReader.payloadBytes file') → file = file' ∧
        events = events') := by
  refine ⟨fun storage tree dataRoot key mapping events published after hjson hbuild =>
    ?_, fun nodes path expected reader events
    hopen hreads => (CacheReader.readsAll_opened hopen events).1 hreads,
    fun descriptor file file' events events' h h' hfree =>
    h.unique h' hfree⟩
  obtain ⟨source, ordered, hordered, hcovers, hpublish⟩ := buildExternalPartition_ok hbuild
  obtain ⟨hinorder, hperm⟩ := orderEvents_inOrder hordered
  have hnone : ∀ revision ∈ (none : Option Text), source.manifest.revisionIdentity = revision :=
    fun revision h => by cases h
  obtain ⟨reader, hopen, hreads⟩ := publishEvents_reads hjson hinorder hcovers hpublish hnone
  have hsame : (∀ event ∈ ordered, event.AuctionsWellFormed) ∧ ordered.length < 2 ^ 64 ↔
      (∀ event ∈ events, event.AuctionsWellFormed) ∧ events.length < 2 ^ 64 := by
    simp only [hperm.mem_iff, hperm.length_eq]
  rw [← hsame, ← hreads]
  constructor
  · rintro ⟨ordered', reader', hordered', hopen', hreads'⟩
    cases hordered.symm.trans hordered'
    cases hopen.symm.trans hopen'
    exact hreads'
  · exact fun hreads => ⟨ordered, reader, hordered, hopen, hreads⟩

end Published

section Samples

theorem readLong_sampleLong (value : Option I64) : readLong (sampleLong value) = value := by
  cases value with
  | none => rfl
  | some value =>
    have hne : ofSigned 8 value ≠ [] := by
      rw [← List.length_pos_iff, length_ofSigned]
      norm_num
    rw [sampleLong, Option.elim_some, readLong, if_neg hne,
      toSigned_ofSigned 8 (by norm_num) (by norm_num)]

theorem sampleDescriptor_law (descriptor : CacheDescriptor) :
    sampleCacheEnv.descriptorFromSlice (sampleCacheEnv.descriptorToVec descriptor) =
      .ok descriptor := by
  have hshort : ∀ value : U16, toUnsigned 16 (sampleShort value) = value :=
    toUnsigned_ofUnsigned 2 (by norm_num)
  have hlong : ∀ value : U64, toUnsigned 64 (ofUnsigned 8 value) = value :=
    toUnsigned_ofUnsigned 8 (by norm_num)
  have hdate : ∀ value : I32, toSigned 32 (ofSigned 4 value) = value :=
    toSigned_ofSigned 4 (by norm_num) (by norm_num)
  have htext : ∀ text : Option Text, readText (text.elim [] fun text => 0 :: text.bytes) =
      some text := by
    intro text
    cases text with
    | none => rfl
    | some text => exact congrArg (Option.map some) (textField_bytes text)
  have hread : sampleDescriptorFromSlice (sampleDescriptorToVec descriptor) = some descriptor := by
    rw [sampleDescriptorFromSlice, sampleDescriptorToVec, decodeFields_encodeFields]
    simp only [textField_bytes, hshort, hlong, hdate, htext, readLong_sampleLong]
    rfl
  exact congrArg (okOr itemsName) hread

/-- The files of a published source revision at the place of the sample partition. -/
def sampleSourceNodes : Nodes :=
  let root := partitionRoot [] (sampleKey firstSymbol)
  publishedContents.toList.foldl (fun nodes entry =>
    (withDirectories (root ++ entry.1.dropLast) nodes).insert (root ++ entry.1) (.file entry.2))
      emptyTree.nodes

def sampleSourceTree : Tree :=
  .ofNodes sampleSourceNodes (by decide +kernel) (by decide +kernel)

/-- The same revision as the source without partitions. -/
def sampleCurrentNodes : Nodes :=
  publishedContents.toList.foldl (fun nodes entry =>
    (withDirectories (sourceName :: entry.1.dropLast) nodes).insert (sourceName :: entry.1)
      (.file entry.2)) emptyTree.nodes

def sampleCurrentTree : Tree :=
  .ofNodes sampleCurrentNodes (by decide +kernel) (by decide +kernel)

def sampleExternal (events : List DomainEvent) : BuildOp PublishedCache :=
  buildExternalPartition sampleCacheEnv sampleEnv [] (sampleKey firstSymbol) sampleMapping events

def laterAndEarlier : List DomainEvent :=
  [sampleQuote ⟨.twse, firstSymbol⟩ firstDay 20, sampleQuote ⟨.twse, firstSymbol⟩ firstDay 10]

/-- Two quotes out of order are read back in order. -/
theorem two_quotes_read_back : ∃ published after ordered reader,
    sampleExternal laterAndEarlier sampleSourceTree.nodes = .ok published after ∧
    orderEvents sampleHash laterAndEarlier = .ok ordered ∧
    CacheReader.openUnbound sampleCacheEnv after published.path = .ok reader ∧
    CacheReader.ReadsAll sampleCacheEnv ordered reader ∧
    ∃ file, after[published.path ++ [eventsName]]? = some (.file file) ∧
      CacheReader.IsCacheOf sampleCacheEnv reader.descriptor file ordered := by
  have hrun : returnsAnd (sampleExternal laterAndEarlier sampleSourceTree.nodes) (fun _ _ => true) =
      true := by decide +kernel
  obtain ⟨published, after, hbuild, -⟩ := exists_of_returnsAnd hrun
  have hquote :
      ∀ micros, (sampleQuote ⟨.twse, firstSymbol⟩ firstDay micros).AuctionsWellFormed := by
    intro micros observation hcollecting
    cases hcollecting
  have hwell : ∀ event ∈ laterAndEarlier, event.AuctionsWellFormed :=
    List.forall_mem_cons.2 ⟨hquote 20, List.forall_mem_singleton.2 (hquote 10)⟩
  obtain ⟨ordered, reader, hordered, hopen, hreads⟩ :=
    ((cache_round_trip_iff sampleCacheEnv).1 sampleEnv sampleSourceTree []
    (sampleKey firstSymbol) sampleMapping laterAndEarlier published after
      sampleDescriptor_law hbuild).2
    ⟨hwell, by decide⟩
  exact ⟨published, after, ordered, reader, hbuild, hordered, hopen, hreads,
    (cache_round_trip_iff sampleCacheEnv).2.1 after published.path none reader ordered hopen hreads⟩

/-- A status with an opening auction that was merged with an interruption. -/
def interruptedOpening : DomainEvent :=
  { openingAfterInterruptionEvent with tradingDate := firstDay }

/-- The cache of this event is built and opens, and the event cannot be read. -/
theorem merged_auction_not_read : ∃ published after reader,
    sampleExternal [interruptedOpening] sampleSourceTree.nodes = .ok published after ∧
    CacheReader.openUnbound sampleCacheEnv after published.path = .ok reader ∧
    (∃ final, CacheReader.nextEvent sampleCacheEnv reader =
      .error (.canonical .invalidValue) final) ∧
    ∀ ordered, orderEvents sampleHash [interruptedOpening] = .ok ordered →
      ¬ CacheReader.ReadsAll sampleCacheEnv ordered reader := by
  have hrun : returnsAnd (sampleExternal [interruptedOpening] sampleSourceTree.nodes)
      (fun published after =>
      (CacheReader.openUnbound sampleCacheEnv after published.path).toOption.any fun reader =>
        failsAnd (CacheReader.nextEvent sampleCacheEnv reader) fun e _ =>
          e = .canonical .invalidValue) = true := by
    decide +kernel
  obtain ⟨published, after, hbuild, hfails⟩ := exists_of_returnsAnd hrun
  obtain ⟨reader, hopen, hfails⟩ := (Option.any_eq_true _ _).1 hfails
  obtain ⟨e, final, hnext, he⟩ := exists_of_failsAnd hfails
  rw [of_decide_eq_true he] at hnext
  refine ⟨published, after, reader, hbuild, (toOption_eq_some _ _).1 hopen, ⟨final, hnext⟩,
    fun ordered hordered hreads => ?_⟩
  have hperm := (orderEvents_inOrder hordered).2
  obtain ⟨last, final', hyields, hnone⟩ := hreads
  cases ordered with
  | nil => exact absurd hperm.length_eq (by decide)
  | cons event rest =>
    obtain ⟨next, hevent, -⟩ := hyields
    cases hnext.symm.trans hevent

end Samples

end CacheBuilder

end Osmium
