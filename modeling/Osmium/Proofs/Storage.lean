import Osmium.Proofs.Cursor
import Osmium.Sanity.Staging

/-! Publication of a staged revision, step by step, as readers see it. -/

namespace Osmium
open Machine Bytes Result Stateful Files

section Publication
variable {env : StorageEnv}

/-- The first half of a publication, inside the attempt. -/
def sealAttempt (env : StorageEnv) (staging : StagingRevision) (manifest : SourceManifest) :
    StagingOp Unit := do
  each StagingRevision.removeIfPresent
    [staging.attemptPath ++ [checkpointName], staging.attemptPath ++ dailyMetadataPath]
  each (fun page => StagingRevision.removeIfPresent
    (staging.attemptPath ++ pageMetadataPath page.ordinal)) manifest.pages
  writeAtomicFile (staging.attemptPath ++ [manifestName]) (env.manifestToVec manifest)
  io (syncDirectory staging.attemptPath)

def publishedPath (staging : StagingRevision) (manifest : SourceManifest) : FilePath :=
  staging.publishRoot ++ [revisionsName] ++ [manifest.revisionIdentity.bytes]

/-- The second half, which moves the attempt and the pointer. -/
def makeCurrent (staging : StagingRevision) (manifest : SourceManifest) :
    StagingOp PublishedRevision := do
  let disk ← get
  lift (ensure (present disk.contents (publishedPath staging manifest) = false)
    (.revisionAlreadyExists manifest.revisionIdentity))
  io (renameDirectory staging.attemptPath (publishedPath staging manifest))
  io (syncDirectory (staging.publishRoot ++ [revisionsName]))
  writeAtomicFile (staging.publishRoot ++ [currentName]) manifest.revisionIdentity.bytes
  return ⟨publishedPath staging manifest, manifest⟩

theorem publish_eq {staging : StagingRevision} {daily : PageMetadata} {manifest : SourceManifest}
    {queryIdentity : Digest} {terminal : Bool} (hdaily : staging.dailyInstrument = some daily)
    (hbuild : SourceManifest.build env queryIdentity terminal staging.pages daily = .ok manifest)
    (disk : Disk) :
    staging.publish env queryIdentity terminal disk =
      (do
        sealAttempt env staging manifest
        makeCurrent staging manifest : StagingOp PublishedRevision) disk := by
  rw [StagingRevision.publish, lift_bind (a := daily) (by rw [hdaily]; rfl), lift_bind hbuild]
  simp only [sealAttempt, makeCurrent, publishedPath, bind_assoc]
  rfl

theorem removeIfPresent_confined {area : FilePath → Prop} {path : FilePath} (h : area path) :
    Confined area (StagingRevision.removeIfPresent path) := by
  refine Confined.get.bind fun disk => ?_
  by_cases hpresent : present disk.contents path = true
  · rw [if_pos hpresent]
    exact (Confined.removeFile h).raise _
  · rw [if_neg hpresent]
    exact Confined.pure ()

theorem sealAttempt_confined (env : StorageEnv) (staging : StagingRevision)
    (manifest : SourceManifest) :
    Confined (SealArea staging.attemptPath) (sealAttempt env staging manifest) := by
  refine Confined.bind ?_ fun _ => Confined.bind ?_ fun _ => Confined.bind ?_ fun _ => ?_
  · refine Confined.each fun path hpath => removeIfPresent_confined ?_
    simp only [List.mem_cons, List.not_mem_nil, or_false] at hpath
    rcases hpath with rfl | rfl
    · exact Or.inl rfl
    · exact Or.inr (Or.inl rfl)
  · exact Confined.each fun page _ =>
      removeIfPresent_confined (Or.inr (Or.inr (Or.inl ⟨page.ordinal, rfl⟩)))
  · refine (Confined.writeAtomic ?_ ?_ _).raise _
    · rw [withExtension_manifest]
      exact Or.inr (Or.inr (Or.inr (Or.inr rfl)))
    · exact Or.inr (Or.inr (Or.inr (Or.inl rfl)))
  · exact (Confined.syncDirectory _).raise _

theorem sealAttempt_manifest {staging : StagingRevision} {manifest : SourceManifest}
    {disk disk' : Disk} {u : Unit} (h : sealAttempt env staging manifest disk = .ok u disk') :
    disk'.contents[staging.attemptPath ++ [manifestName]]? = some (env.manifestToVec manifest) := by
  rw [sealAttempt] at h
  obtain ⟨_, disk₁, -, h⟩ := (bind_ok _ _ _ _ _).1 h
  obtain ⟨_, disk₂, -, h⟩ := (bind_ok _ _ _ _ _).1 h
  obtain ⟨_, disk₃, hwrite, h⟩ := (bind_ok _ _ _ _ _).1 h
  have hsync := ok_of_io h
  rw [syncDirectory, get_bind] at hsync
  rw [← ((lift_ok _ _ _ _).1 hsync).2]
  exact writeAtomic_ok (ok_of_io hwrite)

/-- The second half stops before the move, before the pointer, or not at all. -/
theorem makeCurrent_cases {staging : StagingRevision} {disk : Disk} {bytes : List UInt8}
    (hattempt : disk.contents[staging.attemptPath ++ [manifestName]]? = some bytes)
    (manifest : SourceManifest) :
    (∃ e, makeCurrent staging manifest disk = .error e disk) ∨
    present disk.contents (publishedPath staging manifest) = false ∧
      ((∃ e, makeCurrent staging manifest disk =
        .error e
          (disk.put (renamed staging.attemptPath (publishedPath staging manifest) disk.contents))) ∨
      makeCurrent staging manifest disk = .ok ⟨publishedPath staging manifest, manifest⟩
        (atomicStates (staging.publishRoot ++ [currentTemporaryName])
          (staging.publishRoot ++ [currentName])
          manifest.revisionIdentity.bytes
          (disk.put
            (renamed staging.attemptPath (publishedPath staging manifest) disk.contents)))) := by
  rw [makeCurrent, get_bind]
  by_cases hexists : present disk.contents (publishedPath staging manifest) = true
  · exact Or.inl ⟨.revisionAlreadyExists manifest.revisionIdentity,
      lift_bind_error ((ensure_eq_error _ _ _).2 ⟨by rw [hexists]; decide, rfl⟩) _ _⟩
  have habsent := Bool.eq_false_iff.2 hexists
  refine Or.inr ⟨habsent, ?_⟩
  have hmoved : (renamed staging.attemptPath (publishedPath staging manifest) disk.contents)[
      publishedPath staging manifest ++ [manifestName]]? = some bytes := by
    rw [getElem?_renamed_target]
    exact hattempt
  have hrevisions : staging.publishRoot ++ [revisionsName] <+:
      publishedPath staging manifest ++ [manifestName] := by
    rw [publishedPath, List.append_assoc]
    exact List.prefix_append _ _
  rw [lift_bind ((ensure_eq_ok _ _ ()).2 habsent),
    bind_of_ok
      (io_of_ok (renameDirectory_eq (present_of_getElem? hattempt (List.prefix_append _ _)) _)),
    bind_of_ok (io_of_ok (syncDirectory_eq (present_of_getElem? hmoved hrevisions)))]
  by_cases htaken : present
    (disk.put (renamed staging.attemptPath (publishedPath staging manifest) disk.contents)).contents
      (withExtension (staging.publishRoot ++ [currentName]) temporaryExtension) = true
  · exact Or.inl ⟨_, bind_of_error (writeAtomicFile_taken htaken _) _⟩
  · refine Or.inr ?_
    rw [bind_of_ok (writeAtomicFile_eq (Bool.eq_false_iff.2 htaken) _), withExtension_current]
    rfl

section Readers
variable {staging : StagingRevision} {contents contents' : Contents} {manifest : SourceManifest}
  {old : VerificationReport}

theorem revisionRoot_eq (h : Verified env contents staging.publishRoot old) (rest : FilePath) :
    old.revisionRoot ++ rest = staging.publishRoot ++ revisionsName ::
      old.manifest.revisionIdentity.bytes :: rest := by
  rw [h.root]
  simp

/-- What happens inside the attempt does not matter to readers. -/
theorem Verified.attempt_changes (h : Verified env contents staging.publishRoot old)
    (hapart : Apart staging) (hagree : Agree (staging.attemptPath <+: ·) contents contents') :
    Verified env contents' staging.publishRoot old := by
  refine h.frame (hagree _ ?_) fun rest => hagree _ ?_
  · rintro ⟨below, heq⟩
    exact hapart currentName _ _ (by decide) heq
  · rintro ⟨below, heq⟩
    rw [revisionRoot_eq h] at heq
    exact hapart revisionsName _ _ (by decide) heq

/-- Where a publication is at work until the pointer moves. -/
def PublishArea (staging : StagingRevision) (manifest : SourceManifest) (path : FilePath) : Prop :=
  staging.attemptPath <+: path ∨ publishedPath staging manifest <+: path ∨
  path = staging.publishRoot ++ [currentTemporaryName]

/-- Another revision does not matter to readers, and neither does the temporary pointer. -/
theorem Verified.publish_changes (h : Verified env contents staging.publishRoot old)
    (hapart : Apart staging) (habsent : present contents (publishedPath staging manifest) = false)
    (hagree : Agree (PublishArea staging manifest) contents contents') :
    Verified env contents' staging.publishRoot old := by
  have hpublished : ∀ rest, publishedPath staging manifest ++ rest =
      staging.publishRoot ++ revisionsName :: manifest.revisionIdentity.bytes :: rest := by
    intro rest
    simp [publishedPath]
  refine h.frame (hagree _ ?_) fun rest => hagree _ ?_
  · rintro (⟨below, heq⟩ | ⟨below, heq⟩ | heq)
    · exact hapart currentName _ _ (by decide) heq
    · rw [hpublished, List.append_cancel_left_eq, List.cons.injEq] at heq
      exact absurd heq.1 (by decide)
    · exact absurd (List.append_cancel_left heq) (by decide)
  · rintro (⟨below, heq⟩ | ⟨below, heq⟩ | heq)
    · rw [revisionRoot_eq h] at heq
      exact hapart revisionsName _ _ (by decide) heq
    -- the old revision is there and the new one is not
    · rw [hpublished, revisionRoot_eq h, List.append_cancel_left_eq, List.cons.injEq,
        List.cons.injEq] at heq
      obtain ⟨bytes, hbytes, -⟩ := h.manifest
      rw [revisionRoot_eq h, ← heq.2.1, ← hpublished] at hbytes
      rw [present_of_getElem? hbytes (List.prefix_append _ _)] at habsent
      cases habsent
    · rw [revisionRoot_eq h, List.append_cancel_left_eq, List.cons.injEq] at heq
      exact absurd heq.1 (by decide)

/-- A revision that is published is the one readers see. -/
theorem published_verified (hlawful : env.Lawful) (hsound : StagingSound env staging true contents)
    (hpages : staging.pages ≠ [])
    {instrument : PageMetadata} (hinstrument : staging.dailyInstrument = some instrument)
    {queryIdentity : Digest}
    (hbuild : SourceManifest.build env queryIdentity true staging.pages instrument = .ok manifest)
    {disk : Disk} (hagree : Agree (SealArea staging.attemptPath) contents disk.contents)
    (hmanifest : disk.contents[staging.attemptPath ++ [manifestName]]? =
      some (env.manifestToVec manifest)) :
    ∃ revision,
      Verified env (atomicStates (staging.publishRoot ++ [currentTemporaryName])
        (staging.publishRoot ++ [currentName])
        manifest.revisionIdentity.bytes
        (disk.put
          (renamed staging.attemptPath (publishedPath staging manifest) disk.contents))).contents
      staging.publishRoot ⟨revision, manifest, publishedPath staging manifest⟩ := by
  set final :=
    (atomicStates (staging.publishRoot ++ [currentTemporaryName])
      (staging.publishRoot ++ [currentName])
    manifest.revisionIdentity.bytes
    (disk.put
      (renamed staging.attemptPath (publishedPath staging manifest) disk.contents))).contents
  obtain ⟨-, hlists, hquery⟩ := build_ok.1 hbuild
  have hfiles : ∀ rest, final[publishedPath staging manifest ++ rest]? =
      disk.contents[staging.attemptPath ++ rest]? := by
    intro rest
    have hpath : publishedPath staging manifest ++ rest =
        staging.publishRoot ++ revisionsName :: manifest.revisionIdentity.bytes :: rest := by
      simp [publishedPath]
    rw [← getElem?_renamed_target staging.attemptPath (publishedPath staging manifest)]
    refine atomicStates_agree _ _ _ _ _ ?_
    rw [hpath]
    rintro (heq | heq)
    · rw [List.append_cancel_left_eq, List.cons.injEq] at heq
      exact absurd heq.1 (by decide)
    · rw [List.append_cancel_left_eq, List.cons.injEq] at heq
      exact absurd heq.1 (by decide)
  obtain ⟨dailyBytes, objects, -, -, hidentity⟩ := hlists.identity
  obtain ⟨found, hvec, hdescribed⟩ :=
    hsound.files.instrument _ (hsound.heldInstrument instrument hinstrument)
  obtain rfl := hlawful.metadataToVec_injective hvec
  have hdaily := hdescribed rfl
  have hdaily' := hdaily.agree hagree (sealArea_dailyObject _)
  have hdailyMatches := hdaily'.matches.frame hfiles
  refine ⟨env.sha256 (semanticBytes dailyBytes objects), ?_⟩
  exact {
    pointer := by
      refine readPointer_ok.2 ⟨_, atomicStates_getElem? _ _ _ _, manifest.revisionIdentity.utf8, ?_⟩
      rw [hidentity]
      exact trim_encode _
    revision := by
      rw [hidentity]
      exact Hex.decode32_text true _
    root := by simp [publishedPath]
    manifest := by
      refine ⟨_, ?_, hlawful.manifest manifest⟩
      rw [hfiles]
      exact hmanifest
    nonempty := by
      obtain ⟨page, hpage⟩ := List.exists_mem_of_ne_nil _ hpages
      exact List.ne_nil_of_mem (hlists.mem.2 hpage)
    pages := by
      intro page hpage
      obtain ⟨described, hvec, -, hdescribed⟩ :=
        hsound.files.pages.described (hsound.held page (hlists.mem.1 hpage))
      rw [← hlawful.metadataToVec_injective hvec] at hdescribed
      exact (hdescribed.agree hagree (sealArea_pageObject _ _)).matches.frame hfiles
    dailyKind := by
      rw [hlists.instrument]
      exact hdaily.kind
    daily := by
      rw [hlists.instrument]
      exact hdailyMatches
    query := by
      refine ⟨queryIdentity, ?_⟩
      rw [hquery]
      exact Hex.decode32_text true queryIdentity
    lists := hlists.again }

/-- Until the pointer moves, readers see the old revision, if there is one. -/
theorem publish_outcome (hlawful : env.Lawful) (hsound : StagingSound env staging true contents)
    (hpages : staging.pages ≠ []) (queryIdentity : Digest) (terminal : Bool) :
    (∃ e disk, staging.publish env queryIdentity terminal ⟨contents, []⟩ = .error e disk ∧
      ∀ old, Verified env contents staging.publishRoot old →
        Throughout (fun between => Verified env between staging.publishRoot old) disk) ∨
    ∃ published disk revision, staging.publish env queryIdentity terminal ⟨contents, []⟩ =
      .ok published disk ∧
      Verified env disk.contents staging.publishRoot
        ⟨revision, published.manifest, published.path⟩ ∧
      ∀ old, Verified env contents staging.publishRoot old →
        ∀ between ∈ disk.visited, Verified env between staging.publishRoot old ∨
        between = disk.contents := by
  have hstart : ∀ old, Verified env contents staging.publishRoot old →
      Throughout (fun between => Verified env between staging.publishRoot old) ⟨contents, []⟩ :=
    fun old hold => ⟨hold, by simp⟩
  rcases hinstrument : staging.dailyInstrument with _ | instrument
  · refine Or.inl ⟨.dailyInstrumentMissing, ⟨contents, []⟩, ?_, hstart⟩
    rw [StagingRevision.publish, lift_bind_error (e := .dailyInstrumentMissing)
      (by rw [hinstrument]; rfl)]
  rcases hbuild : SourceManifest.build env queryIdentity terminal staging.pages instrument with
    e | manifest
  · refine Or.inl ⟨e, ⟨contents, []⟩, ?_, hstart⟩
    rw [StagingRevision.publish, lift_bind (a := instrument) (by rw [hinstrument]; rfl),
      lift_bind_error hbuild]
  obtain ⟨rfl, -⟩ := build_ok.1 hbuild
  rw [publish_eq hinstrument hbuild]
  have hmoves := sealAttempt_confined env staging manifest ⟨contents, []⟩
  rcases hseal : sealAttempt env staging manifest ⟨contents, []⟩ with ⟨_, disk⟩ | ⟨e, disk⟩
  all_goals
    rw [hseal] at hmoves
    have hsealed : ∀ old, Verified env contents staging.publishRoot old →
        Throughout (fun between => Verified env between staging.publishRoot old) disk := by
      intro old hold
      refine (hstart old hold).changes hmoves fun between hagree =>
        hold.attempt_changes hsound.apart (hagree.mono fun path => ?_)
      exact sealArea_below
  · rw [bind_of_ok hseal]
    have hmanifest := sealAttempt_manifest hseal
    rcases makeCurrent_cases hmanifest manifest with ⟨e, hrun⟩ | ⟨habsent, ⟨e, hrun⟩ | hrun⟩
    · exact Or.inl ⟨e, disk, hrun, hsealed⟩
    all_goals
      have hrenamed : Agree (PublishArea staging manifest) disk.contents
          (renamed staging.attemptPath (publishedPath staging manifest) disk.contents) :=
        Agree.renamed (fun path hpath => Or.inl hpath) fun path hpath => Or.inr (Or.inl hpath)
      have hmoved : ∀ old, Verified env contents staging.publishRoot old →
          Throughout (fun between => Verified env between staging.publishRoot old)
            (disk.put
              (renamed staging.attemptPath (publishedPath staging manifest) disk.contents)) :=
        fun old hold => (hsealed old hold).put
          ((hsealed old hold).now.publish_changes hsound.apart habsent hrenamed)
    · exact Or.inl ⟨e, _, hrun, hmoved⟩
    · obtain ⟨revision, hverified⟩ :=
        published_verified hlawful hsound hpages hinstrument hbuild hmoves.agree hmanifest
      refine Or.inr ⟨_, _, revision, hrun, hverified, fun old hold between hbetween => ?_⟩
      rcases mem_visited_atomicStates hbetween with hbetween | hagree | hdone
      · exact Or.inl ((hmoved old hold).before between hbetween)
      · refine Or.inl ((hsealed old hold).now.publish_changes hsound.apart habsent
          (hrenamed.trans (hagree.mono fun path hpath => ?_)))
        exact Or.inr (Or.inr hpath)
      · exact Or.inr hdone
  · rw [bind_of_error hseal]
    exact Or.inl ⟨e, disk, rfl, hsealed⟩

end Readers

end Publication

/-- Publication of a revision with at least one page, after any history of staging calls on pages
that the cursor machine accepted. In every state it goes through, readers see the old revision or
the published one, and a failure leaves the old one. Once it returns, readers see the published
manifest. Whatever readers accept has objects that match it in both digests and lengths and in their
records, ordinals that count up from zero, and the identity the pointer names. -/
theorem publication_atomic (env : StorageEnv) (hlawful : env.Lawful) (staging : StagingRevision)
    (contents : Contents)
    (hprepared : Prepared env staging true contents) (hpages : staging.pages ≠ [])
    (queryIdentity : Digest) (terminal : Bool) :
    let result := staging.publish env queryIdentity terminal ⟨contents, []⟩
    (∀ old, verifyCurrent env contents staging.publishRoot = .ok old →
      (∀ between ∈ (stateAfter result).visited,
        verifyCurrent env between staging.publishRoot = .ok old ∨
        ∃ published disk revision, result = .ok published disk ∧
          verifyCurrent env between staging.publishRoot =
            .ok ⟨revision, published.manifest, published.path⟩) ∧
      ∀ e disk, result = .error e disk →
      verifyCurrent env disk.contents staging.publishRoot = .ok old) ∧
    (∀ published disk, result = .ok published disk → ∃ revision,
      verifyCurrent env disk.contents staging.publishRoot =
        .ok ⟨revision, published.manifest, published.path⟩) ∧
    ∀ contents sourceRoot report, verifyCurrent env contents sourceRoot = .ok report →
      (∀ page ∈ report.manifest.pages, ObjectMatches env contents report.revisionRoot page) ∧
      ObjectMatches env contents report.revisionRoot report.manifest.dailyInstrument ∧
      report.manifest.pages.map (fun page => page.ordinal.val) =
        List.range report.manifest.pages.length ∧
      readPointer contents sourceRoot = .ok report.manifest.revisionIdentity.bytes ∧
      ∃ queryIdentity rebuilt, SourceManifest.build env queryIdentity true report.manifest.pages
        report.manifest.dailyInstrument =
        .ok rebuilt ∧ readPointer contents sourceRoot = .ok rebuilt.revisionIdentity.bytes := by
  intro result
  have hsound := hprepared.sound hlawful
  have haccepted : ∀ contents sourceRoot report, Verified env contents sourceRoot report →
      ∃ queryIdentity rebuilt, SourceManifest.build env queryIdentity true report.manifest.pages
        report.manifest.dailyInstrument =
        .ok rebuilt ∧ readPointer contents sourceRoot = .ok rebuilt.revisionIdentity.bytes :=
    fun contents sourceRoot report h => ⟨queryIdentity, _, h.lists.rebuild queryIdentity, h.pointer⟩
  have houtcome := publish_outcome hlawful hsound hpages queryIdentity terminal
  change (∃ e disk, result = .error e disk ∧ _) ∨
      ∃ published disk revision, result = .ok published disk ∧ _ at houtcome
  simp only [verifyCurrent_ok]
  refine ⟨?_, ?_, fun contents sourceRoot report h =>
    ⟨h.pages, h.daily, h.lists.ordinals, h.pointer, haccepted _ _ _ h⟩⟩
  · intro old hold
    rcases houtcome with
      ⟨e, disk, hrun, hkept⟩ | ⟨published, disk, revision, hrun, hverified, hkept⟩
    · rw [hrun]
      refine ⟨fun between hbetween => Or.inl ((hkept old hold).before between hbetween),
        fun e disk heq => ?_⟩
      cases heq
      exact (hkept old hold).now
    · rw [hrun]
      refine ⟨fun between hbetween => ?_, fun e disk heq => ?_⟩
      · rcases hkept old hold between hbetween with hold' | rfl
        · exact Or.inl hold'
        · exact Or.inr ⟨published, disk, revision, rfl, hverified⟩
      · cases heq
  · intro published disk hok
    rcases houtcome with ⟨e, disk', hrun, -⟩ | ⟨published', disk', revision, hrun, hverified, -⟩
    · rw [hok] at hrun
      cases hrun
    · rw [hok] at hrun
      cases hrun
      exact ⟨revision, hverified⟩

section Example

/-- Fields one after the other: a one before each byte, a zero behind each field. -/
def encodeFields (fields : List (List UInt8)) : List UInt8 :=
  fields.flatMap fun field => field.flatMap (fun byte => [1, byte]) ++ [0]

def decodeFields : List UInt8 → List (List UInt8)
  | 0 :: rest => [] :: decodeFields rest
  | 1 :: byte :: rest =>
    match decodeFields rest with
    | [] => [[byte]]
    | field :: fields => (byte :: field) :: fields
  | _ => []

theorem decodeFields_field (field rest : List UInt8) :
    decodeFields (field.flatMap (fun byte => [1, byte]) ++ 0 :: rest) =
      field :: decodeFields rest := by
  induction field with
  | nil => rfl
  | cons byte field ih =>
    rw [List.flatMap_cons, List.append_assoc, List.cons_append, List.cons_append, List.nil_append,
      decodeFields, ih]

theorem decodeFields_encodeFields (fields : List (List UInt8)) :
    decodeFields (encodeFields fields) = fields := by
  induction fields with
  | nil => rfl
  | cons field fields ih =>
    rw [encodeFields, List.flatMap_cons, ← encodeFields, List.append_assoc, List.singleton_append,
      decodeFields_field, ih]

def textField (bytes : List UInt8) : Option Text :=
  if h : isUtf8 bytes = true then some ⟨bytes, h⟩ else none

theorem textField_bytes (text : Text) : textField text.bytes = some text := dif_pos text.utf8

def sampleMetadataToVec (metadata : PageMetadata) : List UInt8 :=
  encodeFields [[match metadata.kind with
      | .tickPage => 1
      | .dailyInstrument => 2], ofUnsigned 4 metadata.ordinal, metadata.relativePath.bytes,
          ofUnsigned 8 metadata.recordCount,
    ofUnsigned 8 metadata.uncompressedBytes, ofUnsigned 8 metadata.compressedBytes,
    metadata.uncompressedSha256.bytes,
    metadata.compressedSha256.bytes, metadata.zstdImplementation.bytes, metadata.zstdVersion.bytes,
    metadata.queryIdentity.bytes]

def sampleMetadataFromSlice (bytes : List UInt8) : Option PageMetadata :=
  match decodeFields bytes with
  | [kind, ordinal, path, records, size, compressedSize, sha256, compressedSha256, implementation,
      version, query] => do
    return {
      kind := if kind = [1] then .tickPage else .dailyInstrument
      ordinal := toUnsigned 32 ordinal
      relativePath := ← textField path
      recordCount := toUnsigned 64 records
      uncompressedBytes := toUnsigned 64 size
      compressedBytes := toUnsigned 64 compressedSize
      uncompressedSha256 := ← textField sha256
      compressedSha256 := ← textField compressedSha256
      compression := .zstdPerPageV1
      zstdImplementation := ← textField implementation
      zstdVersion := ← textField version
      queryIdentity := ← textField query }
  | _ => none

theorem sampleMetadata_law (metadata : PageMetadata) :
    sampleMetadataFromSlice (sampleMetadataToVec metadata) = some metadata := by
  have hword : ∀ value : U32, toUnsigned 32 (ofUnsigned 4 value) = value :=
    toUnsigned_ofUnsigned 4 (by norm_num)
  have hlong : ∀ value : U64, toUnsigned 64 (ofUnsigned 8 value) = value :=
    toUnsigned_ofUnsigned 8 (by norm_num)
  rw [sampleMetadataFromSlice, sampleMetadataToVec, decodeFields_encodeFields]
  obtain ⟨kind, ordinal, path, records, size, compressedSize, sha256, compressedSha256, ⟨⟩,
      implementation, version, query⟩ :=
    metadata
  simp only [textField_bytes, hword, hlong]
  cases kind with
  | tickPage => rfl
  | dailyInstrument => rfl

def sampleManifestToVec (manifest : SourceManifest) : List UInt8 :=
  encodeFields
    ([ofUnsigned 2 manifest.manifestVersion, manifest.revisionIdentity.bytes,
      manifest.queryIdentity.bytes,
    [if manifest.terminalCursorReached = true then 1 else 0], ofUnsigned 8 manifest.tickRecordCount,
    sampleMetadataToVec manifest.dailyInstrument] ++ manifest.pages.map sampleMetadataToVec)

def samplePages : List (List UInt8) → Option (List PageMetadata)
  | [] => some []
  | page :: rest => do
    let page ← sampleMetadataFromSlice page
    return page :: (← samplePages rest)

def sampleManifestFromSlice (bytes : List UInt8) : Option SourceManifest :=
  match decodeFields bytes with
  | version :: identity :: query :: terminal :: records :: daily :: pages => do
    return {
      manifestVersion := toUnsigned 16 version
      revisionIdentity := ← textField identity
      queryIdentity := ← textField query
      terminalCursorReached := terminal = [1]
      tickRecordCount := toUnsigned 64 records
      pages := ← samplePages pages
      dailyInstrument := ← sampleMetadataFromSlice daily }
  | _ => none

theorem samplePages_law (pages : List PageMetadata) :
    samplePages (pages.map sampleMetadataToVec) = some pages := by
  induction pages with
  | nil => rfl
  | cons page pages ih =>
    rw [List.map_cons, samplePages, sampleMetadata_law, ih]
    rfl

theorem sampleManifest_law (manifest : SourceManifest) :
    sampleManifestFromSlice (sampleManifestToVec manifest) = some manifest := by
  have hshort : ∀ value : U16, toUnsigned 16 (ofUnsigned 2 value) = value :=
    toUnsigned_ofUnsigned 2 (by norm_num)
  have hlong : ∀ value : U64, toUnsigned 64 (ofUnsigned 8 value) = value :=
    toUnsigned_ofUnsigned 8 (by norm_num)
  rw [sampleManifestFromSlice, sampleManifestToVec, decodeFields_encodeFields]
  obtain ⟨version, identity, query, terminal, records, pages, daily⟩ := manifest
  simp only [List.cons_append, List.nil_append, textField_bytes, hshort, hlong, samplePages_law,
    sampleMetadata_law]
  cases terminal with
  | false => rfl
  | true => rfl

/-- Objects stored as they are behind the magic number of the compression. -/
def sampleEnv : StorageEnv where
  hash := sampleHash
  sha256 := sampleHash
  compress body := 0x28 :: 0xB5 :: 0x2F :: 0xFD :: body
  decompress
    | 0x28 :: 0xB5 :: 0x2F :: 0xFD :: body => some body
    | _ => none
  zstdVersion := ⟨[49], Eq.refl true⟩
  fromSlice bytes := if bytes = [123, 125] then .ok (.object []) else sampleFromSlice bytes
  metadataToVec := sampleMetadataToVec
  metadataFromSlice bytes := okOr itemsName (sampleMetadataFromSlice bytes)
  manifestToVec := sampleManifestToVec
  manifestFromSlice bytes := okOr itemsName (sampleManifestFromSlice bytes)

theorem sampleEnv_lawful : sampleEnv.Lawful where
  zstd _ := rfl
  metadata metadata := congrArg (okOr itemsName) (sampleMetadata_law metadata)
  manifest manifest := congrArg (okOr itemsName) (sampleManifest_law manifest)

def samplePage : SourcePage :=
  SourcePage.new sampleEnv 0 (sampleQuery.identity sampleHash) emptyPage 0

theorem samplePage_accepted : AcceptedPage sampleEnv samplePage := by
  have hrun : returnsAnd (CursorStateMachine.acceptResponse sampleHash sampleEnv.fromSlice
      ⟨sampleQuery, sampleQuery.identity sampleHash, none⟩ emptyPage
        { sampleMachine with state := .requestInFlight })
      (fun pending _ => pending =
        ⟨0, sampleQuery.identity sampleHash, emptyPage, sampleHash emptyPage, 0, none⟩) = true := by
    decide +kernel
  obtain ⟨pending, machine, haccept, hpending⟩ := exists_of_returnsAnd hrun
  rw [decide_eq_true_eq] at hpending
  exact ⟨_, machine, _, _, pending, haccept, by rw [hpending]; rfl⟩

/-- What a call returned and the files it left. -/
def returned {α : Type} (default : StagingRevision)
    (r : EStateM.Result StagingError Disk (StagingRevision × α)) :
    StagingRevision × Contents :=
  match r with
  | .ok (staging, _) disk => (staging, disk.contents)
  | .error _ disk => (default, disk.contents)

def firstAttempt : StagingRevision := ⟨[], [stagingName, [49]], [], none⟩

def secondAttempt : StagingRevision := ⟨[], [stagingName, [50]], [], none⟩

/-- One page, then the instrument. -/
def pageStaged (attempt : StagingRevision) (contents : Contents) : StagingRevision × Contents :=
  returned attempt (attempt.stagePage sampleEnv samplePage ⟨contents, []⟩)

def instrumentStaged (body : List UInt8) (attempt : StagingRevision) (contents : Contents) :
    StagingRevision × Contents :=
  returned attempt (attempt.stageDailyInstrument sampleEnv (sampleHash []) body ⟨contents, []⟩)

theorem pageStaged_prepared {attempt : StagingRevision} {contents : Contents}
    (h : Prepared sampleEnv attempt true contents)
    (hrun :
      returnsAnd (attempt.stagePage sampleEnv samplePage ⟨contents, []⟩) (fun _ _ => true) = true) :
    Prepared sampleEnv (pageStaged attempt contents).1 true (pageStaged attempt contents).2 := by
  obtain ⟨⟨staging, staged⟩, disk, hstage, -⟩ := exists_of_returnsAnd hrun
  rw [pageStaged, hstage]
  exact h.page samplePage_accepted hstage

theorem instrumentStaged_prepared {body : List UInt8} {attempt : StagingRevision}
    {contents : Contents} (h : Prepared sampleEnv attempt true contents)
    (hrun : returnsAnd (attempt.stageDailyInstrument sampleEnv (sampleHash []) body ⟨contents, []⟩)
      (fun _ _ => true) = true) :
    Prepared sampleEnv (instrumentStaged body attempt contents).1 true
      (instrumentStaged body attempt contents).2 := by
  obtain ⟨⟨staging, metadata⟩, disk, hstage, -⟩ := exists_of_returnsAnd hrun
  rw [instrumentStaged, hstage]
  exact h.daily hstage

/-- {} -/
def emptyObject : List UInt8 := [123, 125]

def firstStaged : StagingRevision × Contents :=
  instrumentStaged emptyObject (pageStaged firstAttempt ∅).1 (pageStaged firstAttempt ∅).2

/-- The files once a page and an instrument were published. -/
def publishedContents : Contents :=
  (stateAfter (firstStaged.1.publish sampleEnv (sampleHash [1]) true ⟨firstStaged.2, []⟩)).contents

theorem secondAttempt_prepared : Prepared sampleEnv secondAttempt true publishedContents :=
  .create (Or.inr (show StagingRevision.createAt [] ⟨[50], by decide⟩ = .ok secondAttempt from rfl))
    (by decide +kernel)

/-- The same page with another instrument. -/
def secondStaged : StagingRevision × Contents :=
  instrumentStaged emptyPage (pageStaged secondAttempt publishedContents).1
    (pageStaged secondAttempt publishedContents).2

/-- The files once the cursor was found not to be at its end. -/
def refusedContents : Contents :=
  (stateAfter
    (secondStaged.1.publish sampleEnv (sampleHash [1]) false ⟨secondStaged.2, []⟩)).contents

theorem refused_prepared : Prepared sampleEnv secondStaged.1.restarted true refusedContents := by
  have hpage : returnsAnd (secondAttempt.stagePage sampleEnv samplePage ⟨publishedContents, []⟩)
      (fun _ _ => true) = true := by
    decide +kernel
  have hdaily : returnsAnd
      ((pageStaged secondAttempt publishedContents).1.stageDailyInstrument sampleEnv (sampleHash [])
      emptyPage ⟨(pageStaged secondAttempt publishedContents).2, []⟩) (fun _ _ => true) =
        true := by decide +kernel
  have hstaged : Prepared sampleEnv secondStaged.1 true secondStaged.2 :=
    instrumentStaged_prepared (pageStaged_prepared secondAttempt_prepared hpage) hdaily
  have hfails :
      returnsAnd (secondStaged.1.publish sampleEnv (sampleHash [1]) false ⟨secondStaged.2, []⟩)
      (fun _ _ => true) = false := by decide +kernel
  rw [refusedContents]
  cases hrun : secondStaged.1.publish sampleEnv (sampleHash [1]) false ⟨secondStaged.2, []⟩ with
  | ok published disk =>
    rw [hrun] at hfails
    cases hfails
  | error e disk => exact hstaged.publishFailed hrun

/-- An attempt whose publication was refused is taken up again and published over an old revision.
-/
theorem published_over_old : ∃ staging contents old published disk revision,
    Prepared sampleEnv staging true contents ∧
    staging.pages ≠ [] ∧ verifyCurrent sampleEnv contents staging.publishRoot = .ok old ∧
    staging.publish sampleEnv (sampleHash [1]) true ⟨contents, []⟩ = .ok published disk ∧
    published.path ≠ old.revisionRoot ∧
    verifyCurrent sampleEnv disk.contents staging.publishRoot =
      .ok ⟨revision, published.manifest, published.path⟩ ∧
    ∀ between ∈ disk.visited, ∃ report, verifyCurrent sampleEnv between staging.publishRoot =
      .ok report ∧
      (report = old ∨ report.manifest = published.manifest) := by
  have hrun : returnsAnd (StagingRevision.resumeAt sampleEnv secondStaged.1.restarted.publishRoot
      secondStaged.1.restarted.attemptPath (Unsigned.wrap 32 1) ⟨refusedContents, []⟩)
        (fun staging _ =>
        decide (staging.pages ≠ []) &&
        (verifyCurrent sampleEnv refusedContents staging.publishRoot).toOption.any fun old =>
          returnsAnd (staging.publish sampleEnv (sampleHash [1]) true ⟨refusedContents, []⟩)
            fun published _ =>
            decide (published.path ≠ old.revisionRoot)) = true := by decide +kernel
  obtain ⟨staging, after, hresume, htest⟩ := exists_of_returnsAnd hrun
  rw [Bool.and_eq_true, decide_eq_true_eq, Option.any_eq_true] at htest
  obtain ⟨hpages, old, hold, hpublish⟩ := htest
  replace hold : verifyCurrent sampleEnv refusedContents staging.publishRoot = .ok old := by
    cases hverify : verifyCurrent sampleEnv refusedContents staging.publishRoot with
    | ok report =>
      rw [hverify] at hold
      rw [Option.some.inj hold]
    | error e =>
      rw [hverify] at hold
      cases hold
  obtain ⟨published, disk, hpublish, hpath⟩ := exists_of_returnsAnd hpublish
  have hprepared := refused_prepared.resume hresume
  have hatomic :=
    publication_atomic sampleEnv sampleEnv_lawful _ _ hprepared hpages (sampleHash [1]) true
  obtain ⟨revision, hverify⟩ := hatomic.2.1 published disk hpublish
  refine ⟨staging, _, old, published, disk, revision, hprepared, hpages, hold, hpublish,
    of_decide_eq_true hpath, hverify, fun between hbetween => ?_⟩
  have hseen := (hatomic.1 old hold).1 between
  rw [hpublish] at hseen
  rcases hseen hbetween with hseen | ⟨other, disk', revision', heq, hseen⟩
  · exact ⟨old, hseen, Or.inl rfl⟩
  · cases heq
    exact ⟨_, hseen, Or.inr rfl⟩

/-- A revision without pages can be published over it, and then no revision is readable. -/
theorem zero_pages_unreadable :
    ∃ staging contents old published disk, Prepared sampleEnv staging true contents ∧
    verifyCurrent sampleEnv contents staging.publishRoot = .ok old ∧
    staging.publish sampleEnv (sampleHash [1]) true ⟨contents, []⟩ = .ok published disk ∧
    ∃ between ∈ disk.visited, verifyCurrent sampleEnv between staging.publishRoot =
      .error .noTickPages := by
  have hdaily : returnsAnd (secondAttempt.stageDailyInstrument sampleEnv (sampleHash []) emptyObject
      ⟨publishedContents, []⟩)
      (fun _ _ => true) = true := by decide +kernel
  have hprepared := instrumentStaged_prepared secondAttempt_prepared hdaily
  have hold :
      (verifyCurrent sampleEnv (instrumentStaged emptyObject secondAttempt publishedContents).2
      (instrumentStaged emptyObject secondAttempt publishedContents).1.publishRoot).isOk =
        true := by decide +kernel
  have hrun :
      returnsAnd ((instrumentStaged emptyObject secondAttempt publishedContents).1.publish sampleEnv
        (sampleHash [1]) true
      ⟨(instrumentStaged emptyObject secondAttempt publishedContents).2, []⟩)
        (fun _ disk => disk.visited.any fun between =>
        decide (verifyCurrent sampleEnv between
          (instrumentStaged emptyObject secondAttempt publishedContents).1.publishRoot =
          .error .noTickPages)) = true := by decide +kernel
  obtain ⟨old, hold⟩ := exists_of_isOk hold
  obtain ⟨published, disk, hpublish, hunreadable⟩ := exists_of_returnsAnd hrun
  obtain ⟨between, hbetween, hfails⟩ := List.any_eq_true.1 hunreadable
  exact ⟨_, _, old, published, disk, hprepared, hold, hpublish, between, hbetween,
    of_decide_eq_true hfails⟩

end Example

end Osmium
