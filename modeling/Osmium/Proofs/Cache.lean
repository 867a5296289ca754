import Osmium.Sanity.Cache
import Osmium.Proofs.Partition
import Osmium.Proofs.Storage

/-! A cache build that fails: it leaves nothing behind exactly when it found the directory of
another build, ended with an error of the file system, or did not fail at all. -/

namespace Osmium
open Machine Bytes Result Stateful Directories
open Files (FilePath)

namespace CacheBuilder
section Places

/-- What a cache is built for: the source without partitions, or a partition. -/
inductive Place
  | current
  | partition (key : SourcePartitionKey)

def Place.cacheRoot (dataRoot : FilePath) : Place → FilePath
  | .current => dataRoot ++ [derivedName, cacheName]
  | .partition key => cachePartitionRoot dataRoot key

def Place.stagingRoot (dataRoot : FilePath) : Place → FilePath
  | .current => dataRoot ++ [derivedName, stagingName]
  | .partition key => cachePartitionRoot dataRoot key

def Place.attempt (dataRoot : FilePath) (place : Place) : FilePath :=
  place.stagingRoot dataRoot ++ [cacheBuildName]

theorem last_eq_of_leads {root : FilePath} {a b : List UInt8}
    (h : root ++ [a] <+: root ++ [b]) : a = b := by
  rw [List.prefix_append_right_inj] at h
  simpa using h

/-- The attempt is apart from the cache root and from any directory in it that is not its own. -/
theorem Place.attempt_apart (dataRoot : FilePath) (place : Place) {identity : List UInt8}
    (h : identity ≠ cacheBuildName) :
    ¬ place.attempt dataRoot <+: place.cacheRoot dataRoot ∧
    ¬ place.attempt dataRoot <+: place.cacheRoot dataRoot ++ [identity] ∧
    ¬ place.cacheRoot dataRoot ++ [identity] <+: place.attempt dataRoot := by
  cases place with
  | partition key =>
    exact ⟨not_prefix_self _ _, fun hleads => h (last_eq_of_leads hleads).symm, fun hleads =>
      h (last_eq_of_leads hleads)⟩
  | current =>
    have hnames : stagingName ≠ cacheName := by decide
    have hstaging : Place.current.attempt dataRoot =
        (dataRoot ++ [derivedName]) ++ stagingName :: [cacheBuildName] := by
      simp [Place.attempt, Place.stagingRoot]
    have hcache : Place.current.cacheRoot dataRoot =
        (dataRoot ++ [derivedName]) ++ cacheName :: [] := by
      simp [Place.cacheRoot]
    rw [hstaging, hcache, List.append_assoc (dataRoot ++ [derivedName]), List.cons_append]
    refine ⟨(nothingShared_iff.1 (nothingShared_of_head hnames)).1,
      nothingShared_iff.1 (nothingShared_of_head hnames)⟩

end Places

section Publish
variable {attempt cacheRoot : FilePath} {now : Nodes}

theorem publishAttempt_blocked (h : blocked now cacheRoot = true) (descriptor : CacheDescriptor) :
    publishAttempt attempt cacheRoot descriptor now = .error (.io .notADirectory) now := by
  have hcreate : io (createDirAll cacheRoot) now = .error (.io .notADirectory) now :=
    (zoom_error _ _ _ _ _ _ _).2 ⟨_, _, createDirAll_blocked h, rfl, rfl⟩
  rw [publishAttempt, bind_of_error hcreate]

theorem publishAttempt_taken (attempt : FilePath) (h : blocked now cacheRoot = false)
    {descriptor : CacheDescriptor} (htaken : cacheRoot ++ [descriptor.cacheIdentity.bytes] ∈ now) :
    publishAttempt attempt cacheRoot descriptor now =
      .error (.cacheAlreadyExists descriptor.cacheIdentity) (withDirectories cacheRoot now) := by
  have htaken' : cacheRoot ++ [descriptor.cacheIdentity.bytes] ∈ withDirectories cacheRoot now :=
    mem_withDirectories.2 (.inr htaken)
  rw [publishAttempt, bind_of_ok (io_eq (createDirAll_eq h)), get_bind,
    lift_bind_error (e := .cacheAlreadyExists descriptor.cacheIdentity) (by simp [ensure, htaken'])]

/-- Past the check of the published name only the file system can fail. -/
theorem publishAttempt_free {descriptor : CacheDescriptor}
    (htaken : cacheRoot ++ [descriptor.cacheIdentity.bytes] ∉ now)
    {error : CacheBuildError} {after : Nodes}
    (h : publishAttempt attempt cacheRoot descriptor now = .error error after) :
    isIo error = true := by
  have hfree : cacheRoot ++ [descriptor.cacheIdentity.bytes] ∉ withDirectories cacheRoot now := by
    rw [mem_withDirectories, not_or]
    exact ⟨not_prefix_self _ _, htaken⟩
  by_cases hblocked : blocked now cacheRoot = true
  · rw [publishAttempt_blocked hblocked] at h
    cases h
    rfl
  · rw [publishAttempt,
      bind_of_ok (io_eq (createDirAll_eq (Bool.eq_false_iff.2 hblocked))), get_bind,
      lift_bind (a := ()) (by simp [ensure, hfree])] at h
    rcases (bind_error _ _ _ _ _).1 h with h | ⟨_, _, -, h⟩
    · exact io_error h
    · rcases (bind_error _ _ _ _ _).1 h with h | ⟨_, _, -, h⟩
      · exact io_error h
      · exact ((pure_error _ _ _ _).1 h).elim

end Publish

section Residue
variable {env : CacheEnv} {dataRoot : FilePath}

/-- A build that has left the directories it works in as it found them. -/
structure NoResidue (env : CacheEnv) (dataRoot : FilePath) (place : Place)
    (before after : Nodes) : Prop where
  directory : place.attempt dataRoot ∈ after → place.attempt dataRoot ∈ before
  files : ∀ path, place.stagingRoot dataRoot <+: path ∨ place.cacheRoot dataRoot <+: path →
    isFile after path = true → isFile before path = true
  catalogue : ∀ key sourceRevisionIdentity mapping, place = .partition key →
    PartitionCacheCatalog.inspect env after dataRoot key sourceRevisionIdentity mapping =
      PartitionCacheCatalog.inspect env before dataRoot key sourceRevisionIdentity mapping

theorem NoResidue.refl (place : Place) (nodes : Nodes) : NoResidue env dataRoot place nodes nodes :=
  ⟨id, fun _ _ => id, fun _ _ _ _ => rfl⟩

/-- The directory of another build is there, or it cannot be made; or all events can be written, and
their cache is not published yet (or its root cannot be made). -/
def BuildUnharmed (env : CacheEnv) (dataRoot : FilePath) (place : Place) (nodes : Nodes)
    (source : VerificationReport)
    (instrument : InstrumentId) (tradingDate : TradingDate) (partitionIdentity : Option Text)
    (mapping : NormalizerMappingIdentity) (events : List DomainEvent) : Prop :=
  place.attempt dataRoot ∈ nodes ∨ blocked nodes (place.attempt dataRoot) = true ∨
    ∃ payload, payloadOf events = .ok payload ∧ (blocked nodes (place.cacheRoot dataRoot) = true ∨
      place.cacheRoot dataRoot ++
        [(cacheIdentity env source instrument tradingDate mapping partitionIdentity
        (Hex.text (env.sha256 payload).bytes) (Unsigned.wrap 64 events.length)).bytes] ∉ nodes)

variable (env) (source : VerificationReport) (instrument : InstrumentId) (tradingDate : TradingDate)
  (partitionIdentity : Option Text) (mapping : NormalizerMappingIdentity)

theorem cacheIdentity_ne_attempt (payloadSha256 : Text) (eventCount : U64) :
    (cacheIdentity env source instrument tradingDate mapping partitionIdentity payloadSha256
      eventCount).bytes ≠
      cacheBuildName := by
  intro heq
  have hlength := congrArg List.length heq
  rw [cacheIdentity, Hex.text, Hex.length_encode, Digest.size] at hlength
  exact absurd hlength (by decide)

variable {tree : Tree} {place : Place} {events : List DomainEvent}

theorem publishEvents_refused (h : place.attempt dataRoot ∈ tree.nodes) :
    publishEvents env source (place.stagingRoot dataRoot)
      (place.cacheRoot dataRoot) instrument tradingDate partitionIdentity
      mapping events tree.nodes = .error .buildAlreadyExists tree.nodes := by
  have htaken : place.stagingRoot dataRoot ++ [cacheBuildName] ∈ tree.nodes := h
  rw [publishEvents, get_bind, lift_bind_error (e := .buildAlreadyExists)
    (by simp [ensure, htaken])]

theorem publishEvents_fresh (h : place.attempt dataRoot ∉ tree.nodes) :
    publishEvents env source (place.stagingRoot dataRoot)
      (place.cacheRoot dataRoot) instrument tradingDate partitionIdentity
      mapping events tree.nodes = (do
        let payload ← stageEvents (place.attempt dataRoot) events
        let descriptor :=
          buildDescriptor env source instrument tradingDate partitionIdentity mapping events payload
        io (writeAtomic (place.attempt dataRoot ++ [descriptorName])
          (env.descriptorToVec descriptor))
        io (syncAll (place.attempt dataRoot))
        publishAttempt (place.attempt dataRoot) (place.cacheRoot dataRoot) descriptor :
        BuildOp PublishedCache) tree.nodes := by
  have hfree : place.stagingRoot dataRoot ++ [cacheBuildName] ∉ tree.nodes := h
  rw [publishEvents, get_bind, lift_bind (a := ()) (by simp [ensure, hfree])]
  rfl

theorem publishEvents_blocked (h : place.attempt dataRoot ∉ tree.nodes)
    (hblocked : blocked tree.nodes (place.attempt dataRoot) = true) :
    publishEvents env source (place.stagingRoot dataRoot)
      (place.cacheRoot dataRoot) instrument tradingDate partitionIdentity
      mapping events tree.nodes = .error (.io .notADirectory) tree.nodes := by
  have hcreate : io (createDirAll (place.attempt dataRoot)) tree.nodes =
      .error (.io .notADirectory) tree.nodes :=
    (zoom_error _ _ _ _ _ _ _).2 ⟨_, _, createDirAll_blocked hblocked, rfl, rfl⟩
  have hstage : stageEvents (place.attempt dataRoot) events tree.nodes =
      .error (.io .notADirectory) tree.nodes := by
    rw [stageEvents, bind_of_error hcreate]
  rw [publishEvents_fresh env source instrument tradingDate partitionIdentity mapping h,
    bind_of_error hstage]

/-- An event that cannot be written ends the build in the middle of its directory. -/
theorem publishEvents_unwritten (h : place.attempt dataRoot ∉ tree.nodes)
    (hopen : blocked tree.nodes (place.attempt dataRoot) = false) {error : CacheBuildError}
    (herror : payloadOf events = .error error) : ∃ after,
    publishEvents env source (place.stagingRoot dataRoot)
      (place.cacheRoot dataRoot) instrument tradingDate partitionIdentity
      mapping events tree.nodes = .error error after ∧ place.attempt dataRoot ∈ after := by
  obtain ⟨after, hstage, inside, hfilling⟩ := (stageEvents_filling h hopen events).2 error herror
  refine ⟨after, ?_, mem_iff.2 ⟨_, hfilling.self⟩⟩
  rw [publishEvents_fresh env source instrument tradingDate partitionIdentity mapping h,
    bind_of_error hstage]

/-- Up to the publication a build whose events can all be written fills its directory. -/
theorem publishEvents_written (h : place.attempt dataRoot ∉ tree.nodes)
    (hopen : blocked tree.nodes (place.attempt dataRoot) = false) {payload : List UInt8}
    (hpayload : payloadOf events = .ok payload) : ∃ filled,
    Filling (place.attempt dataRoot) (withDirectories (place.attempt dataRoot) tree.nodes)
      (built (eventsHeader events ++ payload) (env.descriptorToVec
        (buildDescriptor env source instrument tradingDate partitionIdentity mapping events
          payload))) filled ∧
    publishEvents env source (place.stagingRoot dataRoot)
      (place.cacheRoot dataRoot) instrument tradingDate partitionIdentity
      mapping events tree.nodes = publishAttempt (place.attempt dataRoot) (place.cacheRoot dataRoot)
        (buildDescriptor env source instrument tradingDate partitionIdentity mapping events payload)
          filled := by
  obtain ⟨staged, hstage, hstaged⟩ := (stageEvents_filling h hopen events).1 payload hpayload
  obtain ⟨filled, hwrite, hfilled⟩ := writeAtomic_filling hstaged (env.descriptorToVec
    (buildDescriptor env source instrument tradingDate partitionIdentity mapping events payload))
  have hsync : syncAll (place.attempt dataRoot) filled = .ok () filled :=
    syncAll_eq (mem_iff.2 ⟨_, hfilled.self⟩)
  refine ⟨filled, hfilled, ?_⟩
  rw [publishEvents_fresh env source instrument tradingDate partitionIdentity mapping h,
    bind_of_ok hstage, bind_of_ok (io_eq hwrite), bind_of_ok (io_eq hsync)]

theorem blocked_filled {filled : Nodes} {inside : List UInt8 → Option Node}
    (h : Filling (place.attempt dataRoot)
      (withDirectories (place.attempt dataRoot) tree.nodes) inside filled) :
    blocked filled (place.cacheRoot dataRoot) = blocked tree.nodes (place.cacheRoot dataRoot) := by
  have hname : ([] : List UInt8) ≠ cacheBuildName := by decide
  have hapart := (Place.attempt_apart dataRoot place hname).1
  have hsame : ∀ directory, directory <+: place.cacheRoot dataRoot →
      isFile filled directory = isFile tree.nodes directory := by
    intro directory hdirectory
    have houtside := h.outside directory fun hleads => hapart (hleads.trans hdirectory)
    rw [isFile, houtside, ← isFile, isFile_withDirectories]
  rw [Bool.eq_iff_iff, blocked_iff, blocked_iff]
  refine exists_congr fun directory => and_congr_right fun hdirectory => ?_
  rw [hsame directory hdirectory]

theorem mem_filled {filled : Nodes} {inside : List UInt8 → Option Node}
    (h : Filling (place.attempt dataRoot)
      (withDirectories (place.attempt dataRoot) tree.nodes) inside filled)
    {identity : List UInt8} (hidentity : identity ≠ cacheBuildName) :
    place.cacheRoot dataRoot ++ [identity] ∈ filled ↔
    place.cacheRoot dataRoot ++ [identity] ∈ tree.nodes := by
  obtain ⟨-, habove, hbelow⟩ := Place.attempt_apart dataRoot place hidentity
  rw [mem_iff, h.outside _ habove, ← mem_iff, mem_withDirectories, or_iff_right hbelow]

/-- A failed build leaves nothing behind exactly when it is unharmed. -/
theorem failed_build_leaves_nothing_iff (env : CacheEnv) (tree : Tree) (dataRoot : FilePath)
    (place : Place)
    (source : VerificationReport) (instrument : InstrumentId) (tradingDate : TradingDate)
    (partitionIdentity : Option Text)
    (mapping : NormalizerMappingIdentity) (events : List DomainEvent) :
    (∀ error after, publishEvents env source (place.stagingRoot dataRoot)
      (place.cacheRoot dataRoot) instrument tradingDate
        partitionIdentity mapping events tree.nodes = .error error after → isIo error = false →
      NoResidue env dataRoot place tree.nodes after) ↔
    BuildUnharmed env dataRoot place tree.nodes source instrument tradingDate partitionIdentity
      mapping events := by
  have hidentity :=
    cacheIdentity_ne_attempt env source instrument tradingDate partitionIdentity mapping
  by_cases htaken : place.attempt dataRoot ∈ tree.nodes
  · refine ⟨fun _ => .inl htaken, fun _ error after hrun herror => ?_⟩
    rw [publishEvents_refused env source instrument tradingDate partitionIdentity mapping htaken]
      at hrun
    cases hrun
    exact NoResidue.refl place tree.nodes
  by_cases hblocked : blocked tree.nodes (place.attempt dataRoot) = true
  · refine ⟨fun _ => .inr (.inl hblocked), fun _ error after hrun herror => ?_⟩
    rw [publishEvents_blocked env source instrument tradingDate partitionIdentity mapping htaken
      hblocked] at hrun
    cases hrun
    cases herror
  have hopen : blocked tree.nodes (place.attempt dataRoot) = false := Bool.eq_false_iff.2 hblocked
  rw [BuildUnharmed, or_iff_right htaken, or_iff_right hblocked]
  cases hpayload : payloadOf events with
  | error error =>
    -- an event cannot be written: the directory stays
    obtain ⟨after, hrun, hleft⟩ :=
      publishEvents_unwritten env source instrument tradingDate partitionIdentity mapping
      htaken hopen hpayload
    refine ⟨fun hclean => ?_, fun h => ?_⟩
    · exact absurd
        ((hclean error after hrun (payloadOf_failsIn events error hpayload)).directory hleft) htaken
    · obtain ⟨_, hok, -⟩ := h
      cases hok
  | ok payload =>
    obtain ⟨filled, hfilled, hwritten⟩ :=
      publishEvents_written env source instrument tradingDate partitionIdentity mapping
      htaken hopen hpayload
    rw [hwritten]
    refine ⟨fun hclean => ⟨payload, rfl, ?_⟩, fun h error after hrun herror => ?_⟩
    · -- the name is taken: the directory stays, with its descriptor
      by_contra hpublished
      rw [not_or, not_not, Bool.not_eq_true] at hpublished
      have hname : place.cacheRoot dataRoot ++
          [(buildDescriptor env source instrument tradingDate partitionIdentity mapping
          events payload).cacheIdentity.bytes] ∈ filled :=
        (mem_filled hfilled (hidentity _ _)).2 hpublished.2
      have hrun := publishAttempt_taken (place.attempt dataRoot)
        (by rw [blocked_filled hfilled, hpublished.1]) hname
      have hleft : place.attempt dataRoot ∈ withDirectories (place.cacheRoot dataRoot) filled :=
        mem_withDirectories.2 (.inr (mem_iff.2 ⟨_, hfilled.self⟩))
      exact htaken ((hclean _ _ hrun rfl).directory hleft)
    · obtain ⟨_, hok, hfree⟩ := h
      cases hok
      rcases hfree with hroot | hfree
      · rw [publishAttempt_blocked (by rw [blocked_filled hfilled, hroot])] at hrun
        cases hrun
        cases herror
      · have hio :=
          publishAttempt_free (fun h => hfree ((mem_filled hfilled (hidentity _ _)).1 h)) hrun
        rw [hio] at herror
        cases herror

end Residue

section Samples

def sampleShort (value : U16) : List UInt8 := ofUnsigned 2 value

def sampleLong (value : Option I64) : List UInt8 := value.elim [] (ofSigned 8)

def sampleDescriptorToVec (descriptor : CacheDescriptor) : List UInt8 :=
  encodeFields [sampleShort descriptor.cacheFormatVersion, descriptor.cacheIdentity.bytes,
    descriptor.sourceRevisionIdentity.bytes, [descriptor.instrumentMarket],
    descriptor.instrumentSymbol.bytes,
    ofSigned 4 descriptor.tradingDateEpochDays, ofUnsigned 8 descriptor.eventCount,
    sampleLong descriptor.firstMatchTimeMicros,
    sampleLong descriptor.lastMatchTimeMicros, descriptor.payloadSha256.bytes,
    sampleShort descriptor.marketTypesVersion,
    sampleShort descriptor.eventSchemaVersion, sampleShort descriptor.canonicalEventVersion,
    sampleShort descriptor.orderingRuleVersion, descriptor.partitionIdentity.elim [] fun text =>
      0 :: text.bytes,
    descriptor.normalizerMappingName.bytes, sampleShort descriptor.normalizerMappingVersion]

def readLong (field : List UInt8) : Option I64 :=
  if field = [] then none else some (toSigned 64 field)

def readText : List UInt8 → Option (Option Text)
  | [] => some none
  | _ :: bytes => (textField bytes).map some

def sampleDescriptorFromSlice (bytes : List UInt8) : Option CacheDescriptor :=
  match decodeFields bytes with
  | [format, identity, revision, [market], symbol, date, count, first, last, sha256, types, schema,
      canonical, ordering, partition, name, version] => do
    return {
      cacheFormatVersion := toUnsigned 16 format
      cacheIdentity := ← textField identity
      sourceRevisionIdentity := ← textField revision
      instrumentMarket := market
      instrumentSymbol := ← textField symbol
      tradingDateEpochDays := toSigned 32 date
      eventCount := toUnsigned 64 count
      firstMatchTimeMicros := readLong first
      lastMatchTimeMicros := readLong last
      payloadSha256 := ← textField sha256
      marketTypesVersion := toUnsigned 16 types
      eventSchemaVersion := toUnsigned 16 schema
      canonicalEventVersion := toUnsigned 16 canonical
      orderingRuleVersion := toUnsigned 16 ordering
      partitionIdentity := ← readText partition
      normalizerMappingName := ← textField name
      normalizerMappingVersion := toUnsigned 16 version }
  | _ => none

def sampleCacheEnv : CacheEnv where
  hash := sampleHash
  sha256 := sampleHash
  descriptorToVec := sampleDescriptorToVec
  descriptorFromSlice bytes := okOr itemsName (sampleDescriptorFromSlice bytes)

/-- A disk with nothing on it. -/
def emptyTree : Tree where
  nodes := (∅ : Nodes).insert [] .directory
  root := by simp
  closed := by
    intro path name hmem
    rw [Std.ExtTreeMap.mem_insert] at hmem
    rcases hmem with heq | hmem
    · exact absurd (Std.LawfulEqOrd.eq_of_compare heq).symm
        (List.append_ne_nil_of_right_ne_nil path (List.cons_ne_nil _ _))
    · simp at hmem

def sampleMapping : NormalizerMappingIdentity :=
  ⟨⟨[109], by decide⟩, ⟨1, Unsigned.one_fits⟩, by decide, by decide⟩

def sampleMetadata : PageMetadata :=
  let text : Text := ⟨[], Eq.refl true⟩
  ⟨.tickPage, 0, text, 0, 0, 0, text, text, .zstdPerPageV1, text, text, text⟩

def sampleRevision : VerificationReport :=
  ⟨sampleHash [], ⟨⟨1, Unsigned.one_fits⟩, Hex.text (sampleHash []).bytes, ⟨[], Eq.refl true⟩, true,
    0, [], sampleMetadata⟩, []⟩

def samplePlace : Place := .partition (sampleKey firstSymbol)

/-- A build without events for the sample partition. -/
def sampleBuild : BuildOp PublishedCache :=
  publishEvents sampleCacheEnv sampleRevision (samplePlace.stagingRoot [])
    (samplePlace.cacheRoot []) ⟨.twse, firstSymbol⟩
    firstDay (some (Hex.text (sampleKey firstSymbol).identity.bytes)) sampleMapping []

def onceBuilt : Nodes := stateAfter (sampleBuild emptyTree.nodes)

def twiceBuilt : Nodes := stateAfter (sampleBuild onceBuilt)

def inspectSample (nodes : Nodes) : Except CacheCatalogError PartitionCacheInspection :=
  PartitionCacheCatalog.inspect sampleCacheEnv nodes []
    (sampleKey firstSymbol) sampleRevision.manifest.revisionIdentity
    sampleMapping

/-- The error of a failed call. -/
def errorOf {ε σ α : Type} (r : EStateM.Result ε σ α) : Option ε :=
  match r with
  | .ok _ _ => none
  | .error e _ => some e

theorem eq_error_of_errorOf {ε σ α : Type} {r : EStateM.Result ε σ α} {e : ε}
    (h : errorOf r = some e) :
    r = .error e (stateAfter r) := by
  cases r with
  | ok a s => cases h
  | error error s =>
    cases h
    rfl

/-- The same build twice: the second one fails, leaves its directory in the catalogue, and keeps a
third one out. -/
theorem second_build_leaves_residue :
    (∃ identity, sampleBuild onceBuilt = .error (.cacheAlreadyExists identity) twiceBuilt) ∧
    ¬ NoResidue sampleCacheEnv [] samplePlace onceBuilt twiceBuilt ∧
    (∃ after, sampleBuild twiceBuilt = .error .buildAlreadyExists after) ∧
    inspectSample twiceBuilt = .error (.descriptor .bindingMismatch) ∧
    inspectSample onceBuilt ≠ inspectSample twiceBuilt := by
  have hsecond : (errorOf (sampleBuild onceBuilt)).any (fun error => match error with
      | .cacheAlreadyExists _ => true
      | _ => false) = true := by decide +kernel
  have hthird : (errorOf (sampleBuild twiceBuilt)) = some .buildAlreadyExists := by decide +kernel
  have hbefore : samplePlace.attempt [] ∉ onceBuilt := by decide +kernel
  have hafter : samplePlace.attempt [] ∈ twiceBuilt := by decide +kernel
  have hcurrent : (inspectSample onceBuilt).isOk = true := by decide +kernel
  have hbroken : inspectSample twiceBuilt = .error (.descriptor .bindingMismatch) := by
    decide +kernel
  refine ⟨?_, fun hclean => hbefore (hclean.directory hafter), ⟨_, eq_error_of_errorOf hthird⟩,
    hbroken, fun heq => ?_⟩
  · obtain ⟨error, herror, hkind⟩ := (Option.any_eq_true _ _).1 hsecond
    cases error with
    | cacheAlreadyExists identity => exact ⟨identity, eq_error_of_errorOf herror⟩
    | _ => cases hkind
  · rw [heq, hbroken] at hcurrent
    cases hcurrent

end Samples

end CacheBuilder

end Osmium
