import Osmium.Proofs.CacheReader
import Osmium.Proofs.Replay

/-! Replays of caches. Caches that have been built stay as they are through any number of further
builds, and their frozen replay is the replay of the events that they were built from. -/

namespace Osmium
open Machine Bytes Result Stateful Directories
open Files (FilePath)

namespace CacheReader
variable {env : CacheEnv} {nodes later : Nodes} {path : FilePath} {expected : Option Text}
  {reader : CacheReader}

theorem openInner_extends (hextends : Extends nodes later) (htree : IsTree nodes)
    (h : openInner env nodes path expected = .ok reader) :
    openInner env later path expected = .ok reader := by
  obtain ⟨text, rest, htext, hdescriptor, hcompatible, hexpected, hfile, hreader⟩ :=
    openInner_ok.1 h
  exact openInner_ok.2
    ⟨text, rest, hextends.stays htree _ _ htext, hdescriptor, hcompatible, hexpected,
    hextends.stays htree _ _ hfile, hreader⟩

theorem stream_of_yields {display : CacheReadError → Text} {events : List DomainEvent}
    {self last final : CacheReader}
    (hyields : Yields env events self last) (hnone : nextEvent env last = .ok none final) :
    self.stream env display (events.length + 1) = ⟨events, none⟩ := by
  induction events generalizing self with
  | nil =>
    obtain rfl : self = last := hyields
    rw [List.length_nil, stream, hnone]
  | cons event rest ih =>
    obtain ⟨next, hevent, hrest⟩ := hyields
    rw [List.length_cons, stream, hevent]
    simp only [ih hrest]

/-- The stream of a reader that yields just these events. -/
theorem stream_of_readsAll (display : CacheReadError → Text) {events : List DomainEvent}
    (hopen : openInner env nodes path expected = .ok reader) (h : ReadsAll env events reader) :
    reader.stream env display (reader.remaining.val + 1) = ⟨events, none⟩ := by
  have hfinished : reader.finished = false := by
    obtain ⟨_, _, -, -, -, -, -, hreader⟩ := openInner_ok.1 hopen
    rw [hreader]
    rfl
  rw [((readsAll_iff hfinished events).1 h).count]
  obtain ⟨last, final, hyields, hnone⟩ := h
  exact stream_of_yields hyields hnone

end CacheReader

namespace CacheBuilder
variable {env : CacheEnv}

/-- The source that a factory has for the caches of a place. -/
def Place.source : Place → Option SourceId
  | .current => none
  | .partition key => some key.source

/-- A build has published these events of an instrument's trading date. -/
inductive Publishes (env : CacheEnv) (dataRoot : FilePath) (nodes : Nodes)
    (events : List DomainEvent)
    (published : PublishedCache) (after : Nodes) : Place → InstrumentId → TradingDate → Prop
  | partition (storage : StorageEnv) (key : SourcePartitionKey)
      (mapping : NormalizerMappingIdentity)
      (build : buildExternalPartition env storage dataRoot key mapping events nodes =
        .ok published after) :
      Publishes env dataRoot nodes events published after
        (.partition key) key.instrument key.tradingDate
  | current (storage : StorageEnv) (instrument : InstrumentId) (tradingDate : TradingDate)
      (mapping : NormalizerMappingIdentity)
      (build : buildExternalCurrent env storage dataRoot instrument tradingDate mapping events
        nodes = .ok published after) :
      Publishes env dataRoot nodes events published after .current instrument tradingDate

section Kept
variable {tree : Tree} {dataRoot : FilePath} {nodes after later : Nodes} {events : List DomainEvent}
  {published : PublishedCache} {place : Place} {instrument : InstrumentId}
  {tradingDate : TradingDate}

theorem Publishes.step
    (h : Publishes env dataRoot nodes events published after place instrument tradingDate) :
    BuildStep env nodes after := by
  cases h with
  | partition storage key mapping build =>
    have hstep : BuildStep env nodes _ := .partition storage dataRoot key mapping events
    rwa [build] at hstep
  | current storage instrument tradingDate mapping build =>
    have hstep : BuildStep env nodes _ :=
      .current storage dataRoot instrument tradingDate mapping events
    rwa [build] at hstep

/-- Both builds publish the events in order. -/
theorem Publishes.ordered
    (h : Publishes env dataRoot nodes events published after place instrument tradingDate) :
    ∃ source ordered partitionIdentity mapping, orderEvents env.hash events = .ok ordered ∧
      (∀ event ∈ ordered, event.instrument = instrument ∧ event.tradingDate = tradingDate) ∧
      publishEvents env source (place.stagingRoot dataRoot)
        (place.cacheRoot dataRoot) instrument tradingDate
        partitionIdentity mapping ordered nodes = .ok published after := by
  cases h with
  | partition storage key mapping build =>
    obtain ⟨source, ordered, hordered, hcovers, hpublish⟩ := buildExternalPartition_ok build
    exact ⟨source, ordered, _, mapping, hordered, hcovers, hpublish⟩
  | current storage instrument tradingDate mapping build =>
    obtain ⟨source, ordered, hordered, hcovers, hpublish⟩ := buildExternalCurrent_ok build
    exact ⟨source, ordered, _, mapping, hordered, hcovers, hpublish⟩

/-- Where a built cache is, and what its descriptor binds it to. -/
theorem Publishes.bound
    (h : Publishes env dataRoot tree.nodes events published after place instrument tradingDate) :
    published.path = place.cacheRoot dataRoot ++ [published.descriptor.cacheIdentity.bytes] ∧
      published.descriptor.instrumentMarket = instrument.market.discriminant ∧
      published.descriptor.instrumentSymbol = instrument.symbol.text ∧
      published.descriptor.tradingDateEpochDays = tradingDate.epochDays := by
  obtain ⟨source, ordered, partitionIdentity, mapping, -, -, hpublish⟩ := h.ordered
  obtain ⟨payload, -, hdescriptor, hpath, -⟩ := publishEvents_ok hpublish
  refine ⟨hpath, ?_⟩
  rw [hdescriptor]
  exact ⟨rfl, rfl, rfl⟩

/-- What a built cache is opened as, at any later time. -/
theorem Publishes.openInner
    (h : Publishes env dataRoot tree.nodes events published after place instrument tradingDate)
    (hjson : ∀ descriptor, env.descriptorFromSlice (env.descriptorToVec descriptor) =
      .ok descriptor)
    (hlater : BuildRun env after later) {expected : Option Text}
    (hexpected : ∀ revision ∈ expected, published.descriptor.sourceRevisionIdentity = revision) :
    ∃ ordered reader, orderEvents env.hash events = .ok ordered ∧
      CacheReader.openInner env later published.path expected = .ok reader ∧
      reader.descriptor = published.descriptor ∧
      (CacheReader.ReadsAll env ordered reader ↔
        (∀ event ∈ events, event.AuctionsWellFormed) ∧ events.length < 2 ^ 64) := by
  have htree : IsTree after := h.step.extendsNodes.tree ⟨tree, rfl⟩
  obtain ⟨source, ordered, partitionIdentity, mapping, hordered, hcovers, hpublish⟩ := h.ordered
  obtain ⟨hinorder, hperm⟩ := orderEvents_inOrder hordered
  obtain ⟨payload, -, hdescriptor, -, hfiles⟩ := publishEvents_ok hpublish
  have hrevision : published.descriptor.sourceRevisionIdentity =
      source.manifest.revisionIdentity := by
    rw [hdescriptor]
    rfl
  obtain ⟨reader, hopen, hreads⟩ := publishEvents_reads hjson hinorder hcovers hpublish
    fun revision hmem => hrevision.symm.trans (hexpected revision hmem)
  refine ⟨ordered, reader, hordered,
    CacheReader.openInner_extends hlater.extendsNodes htree hopen, ?_, ?_⟩
  · obtain ⟨text, _, htext, hread, -⟩ := CacheReader.openInner_ok.1 hopen
    rw [hfiles, built, Function.update_self] at htext
    cases htext
    exact Except.ok.inj (hread.symm.trans (hjson _))
  · rw [hreads]
    simp only [hperm.mem_iff, hperm.length_eq]

/-- Builds leave alone whatever is there when they begin, however they end. So the files of a
published cache are those it was published with after any number of builds, and it opens and is read
back as the events that it was built from where these can be decoded and counted, and as nothing
else. -/
theorem published_caches_stay (env : CacheEnv) (tree : Tree) (later : Nodes)
    (hrun : BuildRun env tree.nodes later) :
    (∀ (path : FilePath) (node : Node), tree.nodes[path]? = some node → later[path]? = some node) ∧
    ∀ (dataRoot : FilePath) (place : Place) (instrument : InstrumentId) (tradingDate : TradingDate)
        (events : List DomainEvent) (published : PublishedCache) (after final : Nodes),
      (∀ descriptor, env.descriptorFromSlice (env.descriptorToVec descriptor) = .ok descriptor) →
      Publishes env dataRoot later events published after place instrument tradingDate →
      BuildRun env after final →
      ∃ ordered reader, orderEvents env.hash events = .ok ordered ∧
        CacheReader.openUnbound env final published.path = .ok reader ∧
        (CacheReader.ReadsAll env ordered reader ↔
          (∀ event ∈ events, event.AuctionsWellFormed) ∧ events.length < 2 ^ 64) := by
  refine ⟨hrun.extendsNodes.stays ⟨tree, rfl⟩,
    fun dataRoot place instrument tradingDate events published after final
    hjson hpublishes hfinal => ?_⟩
  obtain ⟨reached, rfl⟩ := hrun.extendsNodes.tree ⟨tree, rfl⟩
  have hnone : ∀ revision ∈ (none : Option Text),
      published.descriptor.sourceRevisionIdentity = revision :=
    fun _ h => by cases h
  obtain ⟨ordered, reader, hordered, hopen, -, hreads⟩ := hpublishes.openInner hjson hfinal hnone
  exact ⟨ordered, reader, hordered, hopen, hreads⟩

end Kept

section Replay
variable {factory : LocalCacheFactory} {nodes : Nodes} {binding : ReplayStreamBinding}
  {events : List DomainEvent}

/-- The binding is of a cache that was built from these events, at whatever time before. -/
def CachedFrom (env : CacheEnv) (factory : LocalCacheFactory) (nodes : Nodes)
    (binding : ReplayStreamBinding) (events : List DomainEvent) : Prop :=
  ∃ (tree : Tree) (place : Place) (published : PublishedCache) (after : Nodes),
    Publishes env factory.dataRoot tree.nodes events published after place binding.instrument
      binding.tradingDate ∧
    BuildRun env after nodes ∧ factory.partitionedSource = place.source ∧
    Hex.text binding.cacheIdentity.bytes = published.descriptor.cacheIdentity ∧
    Hex.text binding.sourceRevisionIdentity.bytes = published.descriptor.sourceRevisionIdentity

/-- The factory looks for the cache of a binding where it was published. -/
theorem Publishes.cacheRoot {tree : Tree} {published : PublishedCache} {after : Nodes}
    {place : Place}
    (h : Publishes env factory.dataRoot tree.nodes events published after place binding.instrument
      binding.tradingDate)
    (hsource : factory.partitionedSource = place.source) :
    factory.cacheRoot binding = place.cacheRoot factory.dataRoot := by
  generalize hinstrument : binding.instrument = instrument at h
  generalize hdate : binding.tradingDate = tradingDate at h
  cases h with
  | partition storage key mapping build =>
    rw [LocalCacheFactory.cacheRoot, hsource, hinstrument, hdate]
    rfl
  | current storage instrument tradingDate mapping build =>
    rw [LocalCacheFactory.cacheRoot, hsource]
    rfl

/-- The binding of a built cache opens as the stream of its events in order. -/
theorem openStream_cached (hjson :
    ∀ descriptor, env.descriptorFromSlice (env.descriptorToVec descriptor) = .ok descriptor)
    (display : CacheReadError → Text) (hcached : CachedFrom env factory nodes binding events)
    (hwell : ∀ event ∈ events, event.AuctionsWellFormed) (hsize : events.length < 2 ^ 64) :
    ∃ ordered, orderEvents env.hash events = .ok ordered ∧
      factory.openStream env display nodes binding = .ok ⟨ordered, none⟩ := by
  obtain ⟨tree, place, published, after, hpublishes, hlater, hsource, hidentity, hrevision⟩ :=
    hcached
  have hbound : ∀ revision ∈ some (Hex.text binding.sourceRevisionIdentity.bytes),
      published.descriptor.sourceRevisionIdentity = revision := by
    intro revision hmem
    cases hmem
    exact hrevision.symm
  obtain ⟨ordered, reader, hordered, hopen, hsame, hreads⟩ :=
    hpublishes.openInner hjson hlater hbound
  obtain ⟨hpath, hmarket, hsymbol, hday⟩ := hpublishes.bound
  have hopened : factory.openCache env nodes binding = .ok reader := by
    simp only [LocalCacheFactory.openCache, bind_eq_ok, ensure_eq_ok, pure_eq_ok]
    refine ⟨reader, ?_, (), ?_, rfl⟩
    · rw [hpublishes.cacheRoot hsource, hidentity, ← hpath]
      exact hopen
    · rw [hsame]
      exact ⟨hidentity.symm, hmarket, hsymbol, hday⟩
  refine ⟨ordered, hordered, ?_⟩
  rw [LocalCacheFactory.openStream, hopened,
    ← CacheReader.stream_of_readsAll display hopen (hreads.2 ⟨hwell, hsize⟩)]
  rfl

/-- The core takes the binding. -/
def TakesBinding (core : ReplayCore) (binding : ReplayStreamBinding) : Prop :=
  ∃ state, core.states[binding.instrument]? = some state ∧
  (state.tradingDate = binding.tradingDate ∨
    core.hasScheduledTradingDate binding.instrument binding.tradingDate = true)

theorem openStreams_cached (hjson :
    ∀ descriptor, env.descriptorFromSlice (env.descriptorToVec descriptor) = .ok descriptor)
    (display : CacheReadError → Text) {core : ReplayCore} {bindings : List ReplayStreamBinding}
    {batches : List (List DomainEvent)}
    (hcached : List.Forall₂ (CachedFrom env factory nodes) bindings batches)
    (htakes : ∀ binding ∈ bindings, TakesBinding core binding)
    (hwell : ∀ events ∈ batches, (∀ event ∈ events, event.AuctionsWellFormed) ∧
      events.length < 2 ^ 64) :
    ∃ streams, core.openStreams (factory.openStream env display nodes) bindings = .ok streams ∧
      (∀ stream ∈ streams, stream.failure = none ∧ InOrder env.hash stream.events) ∧
      (streams.flatMap EventStream.events).Perm batches.flatten := by
  induction hcached with
  | nil => exact ⟨[], rfl, by simp, .nil⟩
  | cons hfirst hrest ih =>
    rename_i binding events bindings batches
    obtain ⟨htake, htakes⟩ := List.forall_mem_cons.1 htakes
    obtain ⟨⟨hfine, hsize⟩, hwell⟩ := List.forall_mem_cons.1 hwell
    obtain ⟨streams, hopen, hstreams, hperm⟩ := ih htakes hwell
    obtain ⟨ordered, hordered, hstream⟩ := openStream_cached hjson display hfirst hfine hsize
    obtain ⟨hinorder, hsame⟩ := orderEvents_inOrder hordered
    refine ⟨⟨ordered, none⟩ :: streams, ?_, ?_, ?_⟩
    · exact (openStreams_ok _ _).2 (.cons ⟨htake, hstream⟩ ((openStreams_ok _ _).1 hopen))
    · exact List.forall_mem_cons.2 ⟨⟨rfl, hinorder⟩, hstreams⟩
    · rw [List.flatMap_cons, List.flatten_cons]
      exact hsame.append hperm

/-- Without a callback the frozen replay is the commits of the core. -/
theorem each_commitWith_pure (hash : List UInt8 → Digest) (events : List DomainEvent)
    (core : ReplayCore) :
    each (commitWith hash (fun _ _ => pure () : ReplayCallback Empty Unit)) events (core, ()) =
      zoom Prod.fst (fun self core => (core, self.2)) .replay (ReplayCore.applyAll hash events)
        (core, ()) := by
  induction events generalizing core with
  | nil => rfl
  | cons event rest ih =>
    cases hcommit : ReplayCore.applyOrdered hash event core with
    | ok commit next =>
      have hfirst : commitWith hash (fun _ _ => pure () : ReplayCallback Empty Unit) event
          (core, ()) = .ok () (next, ()) :=
        commitWith_ok.2 ⟨commit, next, hcommit, rfl⟩
      rw [each, bind_of_ok hfirst, ih next, zoom, zoom, ReplayCore.applyAll, bind_of_ok hcommit]
    | error fault next =>
      have hfirst :
          commitWith hash (fun _ _ => pure () : ReplayCallback Empty Unit) event (core, ()) =
          .error (.replay fault) (next, ()) := by
        refine bind_of_error ?_ _
        exact (zoom_error _ _ _ _ _ _ _).2 ⟨fault, next, hcommit, rfl, rfl⟩
      rw [each, bind_of_error hfirst, zoom, ReplayCore.applyAll, bind_of_error hcommit]

/-- The frozen replay of built caches is the batch replay of all the events that they were built
from: it comes to the same core, and where the batch replay refuses an event, to the same refusal at
the same core. -/
theorem cached_replay_eq_batch (env : CacheEnv) (display : CacheReadError → Text)
    (factory : LocalCacheFactory) (nodes : Nodes)
    (plan : ReplayPlan) (core : ReplayCore) (batches : List (List DomainEvent))
    (hjson : ∀ descriptor, env.descriptorFromSlice (env.descriptorToVec descriptor) =
      .ok descriptor)
    (hcached : List.Forall₂ (CachedFrom env factory nodes) plan.bindings batches)
    (htakes : ∀ binding ∈ plan.bindings, TakesBinding core binding)
    (hwell : ∀ events ∈ batches, (∀ event ∈ events, event.AuctionsWellFormed) ∧
      events.length < 2 ^ 64) :
    (∀ final, ReplayCore.replayFrozenMulti env.hash plan (factory.openStream env display nodes)
      (core, ()) = .ok () (final, ()) ↔
      ReplayCore.replay env.hash batches.flatten core = .ok () final) ∧
    ∀ ordered, orderEvents env.hash batches.flatten = .ok ordered → ∀ fault final,
      ReplayCore.replayFrozenMulti env.hash plan (factory.openStream env display nodes) (core, ()) =
          .error (.replay fault) (final, ()) ↔
        ReplayCore.replay env.hash batches.flatten core = .error fault final := by
  obtain ⟨streams, hopen, hstreams, hperm⟩ := openStreams_cached hjson display hcached htakes hwell
  have hclean : ∀ stream ∈ streams, stream.failure = none :=
    fun stream hstream => (hstreams stream hstream).1
  have hsorted : ∀ stream ∈ streams, InOrder env.hash stream.events :=
    fun stream hstream => (hstreams stream hstream).2
  -- where the events can be put in order, both replays are the commits of the ordered events
  have hboth : ∀ ordered, orderEvents env.hash batches.flatten = .ok ordered →
      ReplayCore.replayFrozenMulti env.hash plan (factory.openStream env display nodes) (core, ()) =
        zoom Prod.fst (fun self core => (core, self.2)) .replay
          (ReplayCore.replay env.hash batches.flatten) (core, ()) := by
    intro ordered hordered
    rw [ReplayCore.replayFrozenMulti, replayFrozenMultiWith_sorted env.hash hopen hclean hsorted
      (orderEvents_perm hperm.symm hordered),
      each_commitWith_pure, zoom, zoom, ReplayCore.replay,
      lift_bind (a := ordered) (by rw [hordered]; rfl)]
  refine ⟨fun final => ?_, fun ordered hordered fault final => ?_⟩
  · cases hordered : orderEvents env.hash batches.flatten with
    | ok ordered =>
      rw [hboth ordered hordered, zoom_ok]
      simp
    | error e =>
      obtain ⟨e', hfails⟩ : ∃ e', orderEvents env.hash (streams.flatMap EventStream.events) =
          .error e' := by
        cases hflat : orderEvents env.hash (streams.flatMap EventStream.events) with
        | ok ordered => cases hordered.symm.trans (orderEvents_perm hperm hflat)
        | error e' => exact ⟨e', rfl⟩
      have hkeeps : ReplayCallback.KeepsCore (fun _ _ => pure () : ReplayCallback Empty Unit) :=
        fun _ _ _ => rfl
      have hreplay : ReplayCore.replay env.hash batches.flatten core = .error (.ordering e) core :=
        lift_bind_error (by rw [hordered]; rfl) _ _
      rw [hreplay]
      refine iff_of_false ?_ (by simp)
      exact replayFrozenMultiWith_collision env.hash hopen hclean hsorted hfails hkeeps
        () (final, ())
  · rw [hboth ordered hordered, zoom_error]
    simp

end Replay

section Samples

theorem laterAndEarlier_wellFormed : ∀ event ∈ laterAndEarlier, event.AuctionsWellFormed := by
  have hquote :
      ∀ micros, (sampleQuote ⟨.twse, firstSymbol⟩ firstDay micros).AuctionsWellFormed := by
    intro micros observation hcollecting
    cases hcollecting
  exact List.forall_mem_cons.2 ⟨hquote 20, List.forall_mem_singleton.2 (hquote 10)⟩

def sampleCurrent (events : List DomainEvent) : BuildOp PublishedCache :=
  buildExternalCurrent sampleCacheEnv sampleEnv []
    ⟨.twse, firstSymbol⟩ firstDay sampleMapping events

/-- A cache of the source without partitions is built again, which fails and leaves its directory
behind; the two quotes are still read back. -/
theorem two_quotes_stay : ∃ published after ordered reader,
    sampleCurrent laterAndEarlier sampleCurrentTree.nodes = .ok published after ∧
    failsAnd (sampleCurrent laterAndEarlier after)
      (fun e _ => e = .cacheAlreadyExists published.descriptor.cacheIdentity) = true ∧
    orderEvents sampleHash laterAndEarlier = .ok ordered ∧
    CacheReader.openUnbound sampleCacheEnv
      (stateAfter (sampleCurrent laterAndEarlier after)) published.path =
      .ok reader ∧
    CacheReader.ReadsAll sampleCacheEnv ordered reader := by
  have hrun :
      returnsAnd (sampleCurrent laterAndEarlier sampleCurrentTree.nodes) (fun published after =>
      failsAnd (sampleCurrent laterAndEarlier after)
        fun e _ => e = .cacheAlreadyExists published.descriptor.cacheIdentity) =
          true := by decide +kernel
  obtain ⟨published, after, hbuild, hagain⟩ := exists_of_returnsAnd hrun
  obtain ⟨ordered, reader, hordered, hopen, hreads⟩ :=
    (published_caches_stay sampleCacheEnv sampleCurrentTree sampleCurrentTree.nodes .refl).2
      [] .current
      ⟨.twse, firstSymbol⟩ firstDay laterAndEarlier published after
        (stateAfter (sampleCurrent laterAndEarlier after))
      sampleDescriptor_law (.current sampleEnv _ _ sampleMapping hbuild)
      (.single (.current sampleEnv [] ⟨.twse, firstSymbol⟩ firstDay sampleMapping laterAndEarlier))
  exact ⟨published, after, ordered, reader, hbuild, hagain, hordered, hopen,
    hreads.2 ⟨laterAndEarlier_wellFormed, by decide⟩⟩

/-- A core for the instrument of the sample partition. -/
def firstCore : Except ReplayError ReplayCore :=
  ReplayCore.newMultiWithSchedules [.new ⟨.twse, firstSymbol⟩ firstDay]
  [(⟨.twse, firstSymbol⟩, sampleReducer)]
    [(⟨.twse, firstSymbol⟩, sampleContext firstDay)] []

/-- The binding of a cache of the sample partition. -/
def bindingOf (descriptor : CacheDescriptor) : Option ReplayStreamBinding := do
  let cacheIdentity ← Hex.decode32 false descriptor.cacheIdentity.bytes
  let sourceRevision ← Hex.decode32 false descriptor.sourceRevisionIdentity.bytes
  return ⟨sampleHash [], ⟨.twse, firstSymbol⟩, firstDay, sourceRevision, cacheIdentity⟩

def bindsTo (descriptor : CacheDescriptor) (binding : ReplayStreamBinding) : Bool :=
  Hex.text binding.cacheIdentity.bytes = descriptor.cacheIdentity &&
    Hex.text binding.sourceRevisionIdentity.bytes = descriptor.sourceRevisionIdentity &&
    binding.instrument = ⟨.twse, firstSymbol⟩ && binding.tradingDate = firstDay

/-- Takes the bindings of the sample partition, and replays the two quotes. -/
def replaysQuotes (core : ReplayCore) : Bool :=
  (core.states[(⟨.twse, firstSymbol⟩ : InstrumentId)]?.any fun state =>
    state.tradingDate = firstDay) &&
    returnsAnd (ReplayCore.replay sampleHash laterAndEarlier core) fun _ final =>
      final.clock.eventOrdinal.val = 2

/-- Any failure is shown as "error". -/
def sampleDisplay (_error : CacheReadError) : Text := ⟨[101, 114, 114, 111, 114], Eq.refl true⟩

/-- The cache of the two quotes is replayed as the two quotes. -/
theorem two_quotes_replayed : ∃ published after binding core final,
    sampleExternal laterAndEarlier sampleSourceTree.nodes = .ok published after ∧
    bindingOf published.descriptor = some binding ∧ firstCore = .ok core ∧
    ReplayCore.replayFrozenMulti sampleHash ⟨[binding]⟩
      ((⟨[], some (sampleKey firstSymbol).source⟩ : LocalCacheFactory).openStream sampleCacheEnv
        sampleDisplay after) (core, ()) =
      .ok () (final, ()) ∧ final.clock.eventOrdinal.val = 2 := by
  have hrun : returnsAnd (sampleExternal laterAndEarlier sampleSourceTree.nodes) (fun published _ =>
      (bindingOf published.descriptor).any (bindsTo published.descriptor)) =
        true := by decide +kernel
  obtain ⟨published, after, hbuild, hbinding⟩ := exists_of_returnsAnd hrun
  obtain ⟨binding, hbinding, hbinds⟩ := (Option.any_eq_true _ _).1 hbinding
  simp only [bindsTo, Bool.and_eq_true, decide_eq_true_eq] at hbinds
  obtain ⟨⟨⟨hidentity, hrevision⟩, hinstrument⟩, hdate⟩ := hbinds
  have hcore : firstCore.toOption.any replaysQuotes = true := by decide +kernel
  obtain ⟨core, hcore, hreplays⟩ := (Option.any_eq_true _ _).1 hcore
  obtain ⟨hstate, hreplays⟩ := (Bool.and_eq_true _ _).mp hreplays
  obtain ⟨state, hstate, hday⟩ := (Option.any_eq_true _ _).1 hstate
  obtain ⟨_, final, hreplay, hcount⟩ := exists_of_returnsAnd hreplays
  have hcached : CachedFrom sampleCacheEnv
      ⟨[], some (sampleKey firstSymbol).source⟩ after binding laterAndEarlier :=
    ⟨sampleSourceTree, .partition (sampleKey firstSymbol), published, after, by
      rw [hinstrument, hdate]
      exact .partition sampleEnv (sampleKey firstSymbol) sampleMapping hbuild, .refl, rfl,
        hidentity, hrevision⟩
  have htakes : TakesBinding core binding :=
    ⟨state, by rw [hinstrument]; exact hstate, .inl (by rw [hdate]; exact of_decide_eq_true hday)⟩
  refine ⟨published, after, binding, core, final, hbuild, hbinding, (toOption_eq_some _ _).1 hcore,
    ?_, of_decide_eq_true hcount⟩
  refine ((cached_replay_eq_batch sampleCacheEnv sampleDisplay
    ⟨[], some (sampleKey firstSymbol).source⟩ after ⟨[binding]⟩ core
    [laterAndEarlier] sampleDescriptor_law (.cons hcached .nil) (List.forall_mem_singleton.2 htakes)
    (List.forall_mem_singleton.2 ⟨laterAndEarlier_wellFormed, by decide⟩)).1 final).2 ?_
  exact hreplay

end Samples

end CacheBuilder

end Osmium
