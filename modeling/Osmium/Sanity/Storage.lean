import Osmium.Sanity.Verify

/-! What one staging call leaves on disk. Every metadata file of an attempt describes the object
beside it. -/

namespace Osmium
open Machine Bytes Result Stateful Files Calendar

section Paths

/-- A name that stays one component. -/
def PlainName (name : List UInt8) : Prop := 47 ∉ name ∧ name ≠ [] ∧ name ≠ [46] ∧ name ≠ [46, 46]

theorem components_intercalate {names : List (List UInt8)} (hne : names ≠ [])
    (h : ∀ name ∈ names, PlainName name) :
    components ([47].intercalate names) = names.map .normal := by
  have hsplit : ([47].intercalate names).splitOn 47 = names :=
    List.splitOn_intercalate 47 (fun name hname => (h name hname).1) hne
  have hrelative : ([47].intercalate names).head? ≠ some 47 := by
    obtain ⟨name, rest, rfl⟩ := List.exists_cons_of_ne_nil hne
    obtain ⟨hslash, hnonempty, -⟩ := h name List.mem_cons_self
    obtain ⟨byte, tail, rfl⟩ := List.exists_cons_of_ne_nil hnonempty
    have hbyte : byte ≠ 47 := fun heq => hslash (heq ▸ List.mem_cons_self)
    cases rest with
    | nil => simpa [List.intercalate] using hbyte
    | cons other rest => simpa [List.intercalate] using hbyte
  rw [components, if_neg hrelative, List.nil_append, hsplit]
  have hparts : ∀ part ∈ names.zipIdx, (if part.1 = [] then none
      else if part.1 = [46] then if part.2 = 0 then some PathComponent.curDir else none
      else if part.1 = [46, 46] then some PathComponent.parentDir
      else some (.normal part.1)) = some (.normal part.1) := by
    rintro ⟨part, index⟩ hpart
    obtain ⟨-, hempty, hdot, hdots⟩ := h part (List.fst_mem_of_mem_zipIdx hpart)
    rw [if_neg hempty, if_neg hdot, if_neg hdots]
  calc names.zipIdx.filterMap _ = names.zipIdx.map fun part => PathComponent.normal part.1 := by
        rw [List.filterMap_congr hparts, List.filterMap_eq_map']
    _ = (names.zipIdx.map Prod.fst).map .normal := (List.map_map ..).symm
    _ = names.map .normal := by rw [List.zipIdx_map_fst]

theorem isDigit_pageNumeral {n : U32} {byte : UInt8} (h : byte ∈ pageNumeral n) :
    isDigit byte = true :=
  List.all_eq_true.1 (all_isDigit_padded _ _) byte h

theorem slash_notMem_pageNumeral (n : U32) : (47 : UInt8) ∉ pageNumeral n :=
  fun h => absurd (isDigit_pageNumeral h) (by decide)

theorem pageNumeral_ne_nil (n : U32) : pageNumeral n ≠ [] := by
  intro h
  have hlength := congrArg List.length h
  rw [pageNumeral, length_padded] at hlength
  split_ifs at hlength

theorem digitsValue_pageNumeral (n : U32) : digitsValue (pageNumeral n) = n.val := by
  apply digitsValue_padded
  have hlt : n.val < 2 ^ 32 := n.lt
  split_ifs <;> omega

theorem pageNumeral_injective : Function.Injective pageNumeral := by
  intro a b h
  apply Unsigned.ext
  rw [← digitsValue_pageNumeral a, ← digitsValue_pageNumeral b, h]

theorem components_pageObjectPath (ordinal : U32) :
    components (pageObjectPath ordinal).bytes =
      [ticksName, pagesName, pageObjectName ordinal].map .normal := by
  have hbytes : (pageObjectPath ordinal).bytes =
      [47].intercalate [ticksName, pagesName, pageObjectName ordinal] := by
    simp [pageObjectPath, List.intercalate]
  rw [hbytes]
  apply components_intercalate (by simp)
  intro name hname
  simp only [List.mem_cons, List.not_mem_nil, or_false] at hname
  rcases hname with rfl | rfl | rfl
  · exact ⟨by decide, by decide, by decide, by decide⟩
  · exact ⟨by decide, by decide, by decide, by decide⟩
  · have hlast : (pageObjectName ordinal).getLast? = some 116 := by simp [pageObjectName]
    refine ⟨?_, ?_, ?_, ?_⟩
    · simp [pageObjectName, slash_notMem_pageNumeral]
    all_goals
      intro heq
      rw [heq] at hlast
      exact absurd hlast (by decide)

theorem join_pageObjectPath (root : FilePath) (ordinal : U32) :
    join root (pageObjectPath ordinal) = root ++ pagesPath ++ [pageObjectName ordinal] := by
  rw [join, components_pageObjectPath]
  simp [PathComponent.name, pagesPath]

/-- daily.json.zst -/
def dailyObjectName : List UInt8 :=
  [100, 97, 105, 108, 121, 46, 106, 115, 111, 110, 46, 122, 115, 116]

theorem components_dailyObjectPath :
    components dailyObjectPath.bytes = [instrumentName, dailyObjectName].map .normal := by
  decide +kernel

theorem join_dailyObjectPath (root : FilePath) :
    join root dailyObjectPath = root ++ [instrumentName, dailyObjectName] := by
  rw [join, components_dailyObjectPath]
  rfl

/-- 00000000.json.zst.tmp -/
def pageTemporaryPath (ordinal : U32) : FilePath :=
  pagesPath ++
    [pageNumeral ordinal ++ [46, 106, 115, 111, 110, 46, 122, 115, 116, 46, 116, 109, 112]]

/-- 00000000.tmp -/
def metadataTemporaryPath (ordinal : U32) : FilePath :=
  pagesPath ++ [pageNumeral ordinal ++ [46, 116, 109, 112]]

theorem withExtension_pageObject (root : FilePath) (ordinal : U32) :
    withExtension (join root (pageObjectPath ordinal)) compressedTemporaryExtension =
      root ++ pageTemporaryPath ordinal := by
  have hname : pageObjectName ordinal = (pageNumeral ordinal ++ [46, 106, 115, 111, 110]) ++ 46 ::
      [122, 115, 116] := by
    simp [pageObjectName]
  rw [join_pageObjectPath, hname, withExtension_append (by decide) (by simp)]
  simp [pageTemporaryPath, compressedTemporaryExtension]

theorem withExtension_pageMetadata (root : FilePath) (ordinal : U32) :
    withExtension (root ++ pageMetadataPath ordinal) temporaryExtension =
      root ++ metadataTemporaryPath ordinal := by
  rw [pageMetadataPath, ← List.append_assoc,
    withExtension_append (by decide) (pageNumeral_ne_nil ordinal)]
  simp [metadataTemporaryPath, temporaryExtension, CursorCheckpoint.temporaryExtension]

theorem extension_pageMetadata (ordinal : U32) :
    extension (pageNumeral ordinal ++ 46 :: yamlExtension) = some yamlExtension :=
  extension_append (by decide) (pageNumeral_ne_nil ordinal)

theorem extension_pageObject (ordinal : U32) :
    extension (pageObjectName ordinal) = some [122, 115, 116] := by
  have hname : pageObjectName ordinal = (pageNumeral ordinal ++ [46, 106, 115, 111, 110]) ++ 46 ::
      [122, 115, 116] := by
    simp [pageObjectName]
  rw [hname]
  exact extension_append (by decide) (by simp)

theorem extension_pageTemporary (ordinal : U32) :
    extension
      (pageNumeral ordinal ++ [46, 106, 115, 111, 110, 46, 122, 115, 116, 46, 116, 109, 112]) =
      some temporaryExtension := by
  have hname :
      pageNumeral ordinal ++ [46, 106, 115, 111, 110, 46, 122, 115, 116, 46, 116, 109, 112] =
      (pageNumeral ordinal ++ [46, 106, 115, 111, 110, 46, 122, 115, 116]) ++ 46 ::
        temporaryExtension := by
    simp [temporaryExtension, CursorCheckpoint.temporaryExtension]
  rw [hname]
  exact extension_append (by decide) (by simp)

theorem extension_metadataTemporary (ordinal : U32) :
    extension (pageNumeral ordinal ++ [46, 116, 109, 112]) = some temporaryExtension :=
  extension_append (by decide) (pageNumeral_ne_nil ordinal)

/-- Names among the pages with different extensions. -/
theorem pageEntry_ne {attempt : FilePath} {a b : List UInt8} (h : extension a ≠ extension b) :
    attempt ++ (pagesPath ++ [a]) ≠ attempt ++ (pagesPath ++ [b]) := by
  intro heq
  simp only [List.append_cancel_left_eq, List.cons.injEq, and_true] at heq
  exact h (congrArg extension heq)

theorem pageTemporary_ne_metadata (attempt : FilePath) (a b : U32) :
    attempt ++ pageTemporaryPath a ≠ attempt ++ pageMetadataPath b := by
  apply pageEntry_ne
  rw [extension_pageMetadata, extension_pageTemporary]
  decide

theorem pageObject_ne_metadata (attempt : FilePath) (a b : U32) :
    attempt ++ (pagesPath ++ [pageObjectName a]) ≠ attempt ++ pageMetadataPath b := by
  apply pageEntry_ne
  rw [extension_pageMetadata, extension_pageObject]
  decide

theorem metadataTemporary_ne_metadata (attempt : FilePath) (a b : U32) :
    attempt ++ metadataTemporaryPath a ≠ attempt ++ pageMetadataPath b := by
  apply pageEntry_ne
  rw [extension_pageMetadata, extension_metadataTemporary]
  decide

theorem pageMetadataPath_injective : Function.Injective pageMetadataPath := by
  intro a b h
  apply pageNumeral_injective
  simpa [pageMetadataPath] using h

theorem pageObjectName_injective : Function.Injective pageObjectName := by
  intro a b h
  apply pageNumeral_injective
  simpa [pageObjectName] using h

end Paths

section Operations
variable {env : StorageEnv}

theorem io_of_ok {α : Type} {op : EStateM IoError Disk α} {disk disk' : Disk} {a : α}
    (h : op disk = .ok a disk') :
    io op disk = .ok a disk' := by
  rw [io, zoom, id, h]

theorem ok_of_io {α : Type} {op : EStateM IoError Disk α} {disk disk' : Disk} {a : α}
    (h : io op disk = .ok a disk') :
    op disk = .ok a disk' := by
  obtain ⟨disk₁, hop, rfl⟩ := (zoom_ok _ _ _ _ _ _ _).1 h
  exact hop

theorem io_of_error {α : Type} {op : EStateM IoError Disk α} {disk disk' : Disk} {e : IoError}
    (h : op disk = .error e disk') :
    io op disk = .error (.io e) disk' := by
  rw [io, zoom, id, h]

/-- The metadata an object is given. -/
def objectMetadata (env : StorageEnv) (relativePath : Text) (kind : ObjectKind) (ordinal : U32)
    (recordCount : U64) (queryIdentity : Digest) (body : List UInt8) : PageMetadata where
  kind := kind
  ordinal := ordinal
  relativePath := relativePath
  recordCount := recordCount
  uncompressedBytes := Unsigned.wrap 64 body.length
  compressedBytes := Unsigned.wrap 64 (env.compress body).length
  uncompressedSha256 := Hex.text (env.sha256 body).bytes
  compressedSha256 := Hex.text (env.sha256 (env.compress body)).bytes
  compression := .zstdPerPageV1
  zstdImplementation := ⟨[122, 115, 116, 100], Eq.refl true⟩
  zstdVersion := env.zstdVersion
  queryIdentity := Hex.text queryIdentity.bytes

section Object
variable {root : FilePath} {relativePath : Text} {kind : ObjectKind} {ordinal : U32}
  {recordCount : U64} {queryIdentity : Digest}
  {body : List UInt8} {disk : Disk}

theorem writeCompressedObject_taken
    (h : present disk.contents
      (withExtension (join root relativePath) compressedTemporaryExtension) = true) :
    writeCompressedObject env root relativePath kind ordinal recordCount queryIdentity body disk =
      .error (.io .alreadyExists) disk := by
  rw [writeCompressedObject, bind_of_error (io_of_error (createNew_taken h))]

/-- The states of an object are those of a file written atomically. -/
theorem writeCompressedObject_eq {value : Json}
    (h : present disk.contents
      (withExtension (join root relativePath) compressedTemporaryExtension) = false)
    (hzstd : env.decompress (env.compress body) = some body)
    (hjson : env.fromSlice body = .ok value) :
    writeCompressedObject env root relativePath kind ordinal recordCount queryIdentity body disk =
      .ok (objectMetadata env relativePath kind ordinal recordCount queryIdentity body)
        (atomicStates (withExtension (join root relativePath) compressedTemporaryExtension)
          (join root relativePath)
          (env.compress body) disk) := by
  have hread : ∀ path (before : Contents) bytes, (before.insert path bytes)[path]? = some bytes :=
    fun _ _ _ => Std.ExtTreeMap.getElem?_insert_self
  rw [writeCompressedObject, bind_of_ok (io_of_ok (createNew_eq h)),
    bind_of_ok (io_of_ok (writeAll_eq _ _ _)),
    bind_of_ok (io_of_ok (read_eq (hread _ _ _))), lift_bind (a := body) (by rw [hzstd]; rfl),
    lift_bind (a := ()) (by simp [ensure]), lift_bind (a := value) (by rw [hjson]; rfl),
    bind_of_ok (io_of_ok (renameFile_eq (hread _ _ _) _)),
    bind_of_ok
      (io_of_ok (syncDirectory_eq (present_of_getElem? (hread _ _ _) (List.dropLast_prefix _))))]
  rfl

/-- The object may fail to parse after it was written under its temporary name. -/
theorem writeCompressedObject_cases (hzstd : env.decompress (env.compress body) = some body) :
    (∃ e disk', writeCompressedObject env root relativePath kind ordinal recordCount queryIdentity
      body disk = .error e disk' ∧
      Changes (· = withExtension (join root relativePath) compressedTemporaryExtension)
        disk disk') ∨
    ∃ value, env.fromSlice body = .ok value ∧
      present disk.contents (withExtension (join root relativePath) compressedTemporaryExtension) =
        false := by
  by_cases htaken : present disk.contents
    (withExtension (join root relativePath) compressedTemporaryExtension) = true
  · exact Or.inl ⟨_, disk, writeCompressedObject_taken htaken, Changes.refl disk⟩
  have hfree := Bool.eq_false_iff.2 htaken
  cases hjson : env.fromSlice body with
  | ok value => exact Or.inr ⟨value, rfl, hfree⟩
  | error message =>
    have hread : ∀ path (before : Contents) bytes, (before.insert path bytes)[path]? = some bytes :=
      fun _ _ _ => Std.ExtTreeMap.getElem?_insert_self
    have hmoves : ∀ (disk : Disk) path bytes,
        Changes (· = path) disk (disk.put (disk.contents.insert path bytes)) :=
      fun _ _ bytes => Changes.put (Agree.insert (by rfl) bytes)
    refine Or.inl
      ⟨.invalidJson message, _, ?_, (hmoves disk _ []).trans (hmoves _ _ (env.compress body))⟩
    rw [writeCompressedObject, bind_of_ok (io_of_ok (createNew_eq hfree)),
      bind_of_ok (io_of_ok (writeAll_eq _ _ _)),
      bind_of_ok (io_of_ok (read_eq (hread _ _ _))), lift_bind (a := body) (by rw [hzstd]; rfl),
      lift_bind (a := ()) (by simp [ensure]),
      lift_bind_error (e := .invalidJson message) (by rw [hjson]; rfl)]

end Object

theorem writeAtomicFile_eq {path : FilePath} {disk : Disk}
    (h : present disk.contents (withExtension path temporaryExtension) = false)
    (bytes : List UInt8) :
    writeAtomicFile path bytes disk =
      .ok () (atomicStates (withExtension path temporaryExtension) path bytes disk) :=
  io_of_ok (writeAtomic_eq h path bytes)

theorem writeAtomicFile_taken {path : FilePath} {disk : Disk}
    (h : present disk.contents (withExtension path temporaryExtension) = true)
    (bytes : List UInt8) :
    writeAtomicFile path bytes disk = .error (.io .alreadyExists) disk :=
  io_of_error (writeAtomic_taken h path bytes)

theorem readMetadata_cases (env : StorageEnv) (path : FilePath) (disk : Disk) :
    (∃ e, StagingRevision.readMetadata env path disk = .error e disk) ∨
    ∃ bytes metadata, disk.contents[path]? = some bytes ∧
    env.metadataFromSlice bytes = .ok metadata ∧
      StagingRevision.readMetadata env path disk = .ok metadata disk := by
  cases hbytes : disk.contents[path]? with
  | none =>
    refine Or.inl ⟨.io .notFound, ?_⟩
    rw [StagingRevision.readMetadata, bind_of_error (io_of_error (read_missing hbytes))]
  | some bytes =>
    rw [StagingRevision.readMetadata, bind_of_ok (io_of_ok (read_eq hbytes))]
    cases hmetadata : env.metadataFromSlice bytes with
    | error message => exact Or.inl ⟨.manifest message, rfl⟩
    | ok metadata => exact Or.inr ⟨bytes, metadata, rfl, hmetadata, rfl⟩

/-- The metadata of a page that is staged. -/
def SourcePage.metadata (env : StorageEnv) (page : SourcePage) : PageMetadata :=
  objectMetadata env (pageObjectPath page.ordinal) .tickPage page.ordinal page.recordCount
    page.queryIdentity page.body

/-- The states a page is written through. -/
def SourcePage.objectStates (env : StorageEnv) (page : SourcePage) (attempt : FilePath)
    (disk : Disk) : Disk :=
  atomicStates (attempt ++ pageTemporaryPath page.ordinal)
    (attempt ++ pagesPath ++ [pageObjectName page.ordinal])
    (env.compress page.body) disk

/-- The states its metadata is written through. -/
def SourcePage.metadataStates (env : StorageEnv) (page : SourcePage) (attempt : FilePath)
    (disk : Disk) : Disk :=
  atomicStates (attempt ++ metadataTemporaryPath page.ordinal)
    (attempt ++ pageMetadataPath page.ordinal)
    (env.metadataToVec (page.metadata env)) disk

/-- A page is known already, or is written, or fails before its object, or before its metadata. -/
theorem stagePage_cases (hlawful : ∀ body, env.decompress (env.compress body) = some body)
    (staging : StagingRevision) (page : SourcePage) (disk : Disk) :
    (∃ e, staging.stagePage env page disk = .error e disk) ∨
    (∃ bytes metadata, disk.contents[staging.attemptPath ++ pageMetadataPath page.ordinal]? =
      some bytes ∧
      env.metadataFromSlice bytes = .ok metadata ∧ staging.stagePage env page disk =
        .ok ({ staging with pages := staging.pages ++ [metadata] },
          ⟨metadata, page.commitReceipt⟩) disk) ∨
    present disk.contents (staging.attemptPath ++ pageMetadataPath page.ordinal) = false ∧
      ((∃ e disk', staging.stagePage env page disk = .error e disk' ∧
        Changes (· = staging.attemptPath ++ pageTemporaryPath page.ordinal) disk disk') ∨
      ∃ value, env.fromSlice page.body = .ok value ∧
        ((∃ e, staging.stagePage env page disk =
          .error e (page.objectStates env staging.attemptPath disk)) ∨
        staging.stagePage env page disk =
          .ok ({ staging with pages := staging.pages ++ [page.metadata env] },
          ⟨page.metadata env, page.commitReceipt⟩)
          (page.metadataStates env staging.attemptPath
            (page.objectStates env staging.attemptPath disk)))) := by
  by_cases hordinal : page.ordinal = Unsigned.wrap 32 staging.pages.length
  swap
  · refine Or.inl ⟨.nonContiguousPages, ?_⟩
    rw [StagingRevision.stagePage,
      lift_bind_error (e := .nonContiguousPages) (by simp [ensure, hordinal])]
  rw [StagingRevision.stagePage, lift_bind (a := ()) (by simp [ensure, hordinal]), get_bind]
  by_cases hknown :
    present disk.contents (staging.attemptPath ++ pageMetadataPath page.ordinal) = true
  · rw [if_pos hknown]
    rcases readMetadata_cases env (staging.attemptPath ++ pageMetadataPath page.ordinal) disk with
      ⟨e, hread⟩ | ⟨bytes, metadata, hbytes, hmetadata, hread⟩
    · exact Or.inl ⟨e, by rw [bind_of_error hread]⟩
    rw [bind_of_ok hread]
    by_cases hsame : metadata.recordCount = page.recordCount ∧
      metadata.uncompressedBytes = Unsigned.wrap 64 page.body.length ∧
        metadata.uncompressedSha256 = Hex.text (env.sha256 page.body).bytes
    · refine Or.inr (Or.inl ⟨bytes, metadata, hbytes, hmetadata, ?_⟩)
      rw [lift_bind ((ensure_eq_ok _ _ ()).2 hsame)]
      rfl
    · exact Or.inl
        ⟨.interruptedPageChanged, lift_bind_error ((ensure_eq_error _ _ _).2 ⟨hsame, rfl⟩) _ _⟩
  · rw [if_neg hknown]
    refine Or.inr (Or.inr ⟨Bool.eq_false_iff.2 hknown, ?_⟩)
    rcases writeCompressedObject_cases (hlawful page.body) with
      ⟨e, disk', herror, hmoves⟩ | ⟨value, hjson, hfree⟩
    · rw [withExtension_pageObject] at hmoves
      exact Or.inl ⟨e, disk', by rw [bind_of_error herror], hmoves⟩
    refine Or.inr ⟨value, hjson, ?_⟩
    rw [bind_of_ok (writeCompressedObject_eq hfree (hlawful page.body) hjson),
      withExtension_pageObject, join_pageObjectPath]
    by_cases htaken : present (page.objectStates env staging.attemptPath disk).contents
        (withExtension (staging.attemptPath ++ pageMetadataPath page.ordinal) temporaryExtension) =
          true
    · exact Or.inl ⟨.io .alreadyExists, bind_of_error (writeAtomicFile_taken htaken _) _⟩
    · refine Or.inr ?_
      rw [← SourcePage.objectStates, bind_of_ok (writeAtomicFile_eq (Bool.eq_false_iff.2 htaken) _),
        withExtension_pageMetadata]
      rfl

end Operations

section Attempts
variable {env : StorageEnv} {attempt : FilePath} {contents contents' : Contents}
  {area : FilePath → Prop}

/-- What is read back is what was written. -/
structure StorageEnv.Lawful (env : StorageEnv) : Prop where
  zstd : ∀ body, env.decompress (env.compress body) = some body
  metadata : ∀ metadata, env.metadataFromSlice (env.metadataToVec metadata) = .ok metadata
  manifest : ∀ manifest, env.manifestFromSlice (env.manifestToVec manifest) = .ok manifest

theorem StorageEnv.Lawful.metadataToVec_injective (h : env.Lawful) :
    Function.Injective env.metadataToVec := by
  intro a b heq
  have ha := h.metadata a
  rw [heq, h.metadata b] at ha
  exact (Except.ok.inj ha).symm

/-- The metadata of a tick page that is in its place. -/
structure PageDescribed (env : StorageEnv) (contents : Contents) (attempt : FilePath)
    (metadata : PageMetadata) : Prop where
  kind : metadata.kind = .tickPage
  path : metadata.relativePath = pageObjectPath metadata.ordinal
  stored : ∃ compressed, contents[attempt ++ pagesPath ++ [pageObjectName metadata.ordinal]]? =
      some compressed ∧
    StoredAs env metadata compressed

theorem PageDescribed.agree {metadata : PageMetadata}
    (h : PageDescribed env contents attempt metadata) (hagree : Agree area contents contents')
    (harea : ¬ area (attempt ++ pagesPath ++ [pageObjectName metadata.ordinal])) :
    PageDescribed env contents' attempt metadata := by
  refine ⟨h.kind, h.path, ?_⟩
  rw [hagree _ harea]
  exact h.stored

theorem PageDescribed.matches {metadata : PageMetadata}
    (h : PageDescribed env contents attempt metadata) :
    ObjectMatches env contents attempt metadata := by
  refine ⟨?_, ?_⟩
  · rw [h.path, components_pageObjectPath]
    rfl
  · rw [h.path, join_pageObjectPath]
    exact h.stored

/-- Every metadata file among the pages of an attempt describes the page it is named after. -/
def AttemptSound (env : StorageEnv) (attempt : FilePath) (contents : Contents) : Prop :=
  ∀ name bytes, extension name = some yamlExtension →
  contents[attempt ++ pagesPath ++ [name]]? = some bytes →
    ∃ metadata, bytes = env.metadataToVec metadata ∧
    name = pageNumeral metadata.ordinal ++ 46 :: yamlExtension ∧
      PageDescribed env contents attempt metadata

theorem AttemptSound.described (h : AttemptSound env attempt contents) {ordinal : U32}
    {bytes : List UInt8} (hbytes : contents[attempt ++ pageMetadataPath ordinal]? = some bytes) :
    ∃ metadata, bytes = env.metadataToVec metadata ∧ metadata.ordinal = ordinal ∧
    PageDescribed env contents attempt metadata := by
  rw [pageMetadataPath, ← List.append_assoc] at hbytes
  obtain ⟨metadata, hvec, hname, hdescribed⟩ := h _ bytes (extension_pageMetadata ordinal) hbytes
  exact ⟨metadata, hvec, pageNumeral_injective (List.append_cancel_right hname).symm, hdescribed⟩

theorem AttemptSound.agree (h : AttemptSound env attempt contents)
    (hagree : Agree area contents contents')
    (hyaml : ∀ name, extension name = some yamlExtension → ¬ area (attempt ++ pagesPath ++ [name]))
    (hobject : ∀ ordinal bytes, contents[attempt ++ pageMetadataPath ordinal]? = some bytes →
      ¬ area (attempt ++ pagesPath ++ [pageObjectName ordinal])) :
      AttemptSound env attempt contents' := by
  intro name bytes hname hbytes
  rw [hagree _ (hyaml name hname)] at hbytes
  obtain ⟨metadata, rfl, rfl, hdescribed⟩ := h name bytes hname hbytes
  refine ⟨metadata, rfl, rfl, hdescribed.agree hagree ?_⟩
  rw [List.append_assoc] at hbytes
  exact hobject metadata.ordinal _ hbytes

/-- A temporary file among the pages says nothing. -/
theorem AttemptSound.temporary {name : List UInt8} (h : AttemptSound env attempt contents)
    (hname : extension name = some temporaryExtension)
    (hagree : Agree (· = attempt ++ (pagesPath ++ [name])) contents contents') :
    AttemptSound env attempt contents' := by
  refine h.agree hagree (fun other hother => ?_) (fun ordinal _ _ => ?_)
  · rw [List.append_assoc]
    apply pageEntry_ne
    rw [hother, hname]
    decide
  · rw [List.append_assoc]
    apply pageEntry_ne
    rw [extension_pageObject, hname]
    decide

/-- A page without metadata may be replaced. -/
theorem AttemptSound.object {ordinal : U32} (h : AttemptSound env attempt contents)
    (habsent : contents[attempt ++ pageMetadataPath ordinal]? = none)
    (hagree : Agree (fun path => path = attempt ++ pageTemporaryPath ordinal ∨
      path = attempt ++ pagesPath ++ [pageObjectName ordinal]) contents contents') :
      AttemptSound env attempt contents' := by
  refine h.agree hagree (fun other hother => ?_) (fun found bytes hfound => ?_)
  · rw [List.append_assoc, List.append_assoc, not_or]
    refine ⟨pageEntry_ne ?_, pageEntry_ne ?_⟩
    · rw [hother, extension_pageTemporary]
      decide
    · rw [hother, extension_pageObject]
      decide
  · rw [List.append_assoc, List.append_assoc, not_or]
    refine ⟨pageEntry_ne ?_, fun heq => ?_⟩
    · rw [extension_pageObject, extension_pageTemporary]
      decide
    · simp only [List.append_cancel_left_eq, List.cons.injEq, and_true] at heq
      rw [pageObjectName_injective heq, habsent] at hfound
      cases hfound

/-- The metadata of a page is put beside it. -/
theorem AttemptSound.describe {metadata : PageMetadata} (h : AttemptSound env attempt contents)
    (hagree : Agree (fun path => path = attempt ++ metadataTemporaryPath metadata.ordinal ∨
      path = attempt ++ pageMetadataPath metadata.ordinal) contents contents')
    (hwritten : contents'[attempt ++ pageMetadataPath metadata.ordinal]? =
      some (env.metadataToVec metadata))
    (hdescribed : PageDescribed env contents attempt metadata) :
    AttemptSound env attempt contents' := by
  have hother : ∀ ordinal, ¬ (attempt ++ pagesPath ++ [pageObjectName ordinal] =
      attempt ++ metadataTemporaryPath metadata.ordinal ∨
      attempt ++ pagesPath ++ [pageObjectName ordinal] =
        attempt ++ pageMetadataPath metadata.ordinal) := by
    intro ordinal
    rw [List.append_assoc, not_or]
    refine ⟨pageEntry_ne ?_, pageEntry_ne ?_⟩
    · rw [extension_pageObject, extension_metadataTemporary]
      decide
    · rw [extension_pageObject, extension_pageMetadata]
      decide
  intro name bytes hname hbytes
  by_cases hnew : name = pageNumeral metadata.ordinal ++ 46 :: yamlExtension
  · subst hnew
    rw [pageMetadataPath, ← List.append_assoc, hbytes, Option.some.injEq] at hwritten
    exact ⟨metadata, hwritten, rfl, hdescribed.agree hagree (hother _)⟩
  · rw [hagree] at hbytes
    · obtain ⟨found, hvec, hfound, hfoundDescribed⟩ := h name bytes hname hbytes
      exact ⟨found, hvec, hfound, hfoundDescribed.agree hagree (hother _)⟩
    · rw [List.append_assoc, not_or]
      refine ⟨pageEntry_ne ?_, ?_⟩
      · rw [hname, extension_metadataTemporary]
        decide
      · intro heq
        simp only [pageMetadataPath, List.append_cancel_left_eq, List.cons.injEq, and_true] at heq
        exact hnew heq

end Attempts

section Daily
variable {env : StorageEnv}

/-- instrument/daily.json.zst.tmp -/
def dailyTemporaryPath : FilePath :=
  [instrumentName, [100, 97, 105, 108, 121, 46, 106, 115, 111, 110, 46, 122, 115, 116, 46, 116,
  109, 112]]

/-- instrument/daily.tmp -/
def dailyMetadataTemporaryPath : FilePath :=
  [instrumentName, [100, 97, 105, 108, 121, 46, 116, 109, 112]]

theorem withExtension_dailyObject (root : FilePath) :
    withExtension (join root dailyObjectPath) compressedTemporaryExtension =
      root ++ dailyTemporaryPath := by
  rw [join_dailyObjectPath, show root ++ [instrumentName, dailyObjectName] =
    (root ++ [instrumentName]) ++
      [[100, 97, 105, 108, 121, 46, 106, 115, 111, 110] ++ 46 :: [122, 115, 116]] by
      simp [dailyObjectName], withExtension_append (by decide) (by decide)]
  simp [dailyTemporaryPath, compressedTemporaryExtension]

theorem withExtension_dailyMetadata (root : FilePath) :
    withExtension (root ++ dailyMetadataPath) temporaryExtension =
      root ++ dailyMetadataTemporaryPath := by
  rw [show root ++ dailyMetadataPath =
    (root ++ [instrumentName]) ++ [[100, 97, 105, 108, 121] ++ 46 :: yamlExtension] by
      simp [dailyMetadataPath, yamlExtension], withExtension_append (by decide) (by decide)]
  simp [dailyMetadataTemporaryPath, temporaryExtension, CursorCheckpoint.temporaryExtension]

theorem pages_ne_instrument (attempt : FilePath) (name other : List UInt8) :
    attempt ++ (pagesPath ++ [name]) ≠ attempt ++ [instrumentName, other] := by
  intro heq
  simp only [pagesPath, List.append_cancel_left_eq, List.cons_append, List.cons.injEq] at heq
  exact absurd heq.1 (by decide)

def dailyMetadata (env : StorageEnv) (queryIdentity : Digest) (body : List UInt8) : PageMetadata :=
  objectMetadata env dailyObjectPath .dailyInstrument 0 (Unsigned.wrap 64 1) queryIdentity body

def dailyObjectStates (env : StorageEnv) (body : List UInt8) (attempt : FilePath)
    (disk : Disk) : Disk :=
  atomicStates (attempt ++ dailyTemporaryPath) (attempt ++ [instrumentName, dailyObjectName])
    (env.compress body) disk

def dailyMetadataStates (env : StorageEnv) (queryIdentity : Digest) (body : List UInt8)
    (attempt : FilePath) (disk : Disk) : Disk :=
  atomicStates (attempt ++ dailyMetadataTemporaryPath) (attempt ++ dailyMetadataPath)
    (env.metadataToVec (dailyMetadata env queryIdentity body)) disk

theorem stageDailyInstrument_cases
    (hlawful : ∀ body, env.decompress (env.compress body) = some body) (staging : StagingRevision)
    (queryIdentity : Digest) (body : List UInt8) (disk : Disk) :
    (∃ e disk', staging.stageDailyInstrument env queryIdentity body disk = .error e disk' ∧
      Changes (· = staging.attemptPath ++ dailyTemporaryPath) disk disk') ∨
    ∃ value, env.fromSlice body = .ok value ∧
      ((∃ e, staging.stageDailyInstrument env queryIdentity body disk =
        .error e (dailyObjectStates env body staging.attemptPath disk)) ∨
      staging.stageDailyInstrument env queryIdentity body disk =
        .ok ({ staging with dailyInstrument := some (dailyMetadata env queryIdentity body) },
          dailyMetadata env queryIdentity body)
          (dailyMetadataStates env queryIdentity body staging.attemptPath
            (dailyObjectStates env body staging.attemptPath disk))) := by
  rw [StagingRevision.stageDailyInstrument]
  cases hvalue : env.fromSlice body with
  | error message =>
    exact Or.inl ⟨.invalidJson message, disk, lift_bind_error rfl _ _, Changes.refl disk⟩
  | ok value =>
    rw [lift_bind (x := Except.mapError StagingError.invalidJson (.ok value)) (a := value) rfl]
    rcases writeCompressedObject_cases (hlawful body) with
      ⟨e, disk', herror, hmoves⟩ | ⟨value', hjson, hfree⟩
    · rw [withExtension_dailyObject] at hmoves
      exact Or.inl ⟨e, disk', by rw [bind_of_error herror], hmoves⟩
    refine Or.inr ⟨value, rfl, ?_⟩
    rw [bind_of_ok (writeCompressedObject_eq hfree (hlawful body) hjson), withExtension_dailyObject,
      join_dailyObjectPath]
    by_cases htaken : present (dailyObjectStates env body staging.attemptPath disk).contents
        (withExtension (staging.attemptPath ++ dailyMetadataPath) temporaryExtension) = true
    · exact Or.inl ⟨.io .alreadyExists, bind_of_error (writeAtomicFile_taken htaken _) _⟩
    · refine Or.inr ?_
      rw [← dailyObjectStates, bind_of_ok (writeAtomicFile_eq (Bool.eq_false_iff.2 htaken) _),
        withExtension_dailyMetadata]
      rfl

/-- The metadata of an instrument that is in its place. -/
structure DailyDescribed (env : StorageEnv) (contents : Contents) (attempt : FilePath)
    (metadata : PageMetadata) : Prop where
  kind : metadata.kind = .dailyInstrument
  path : metadata.relativePath = dailyObjectPath
  stored : ∃ compressed, contents[attempt ++ [instrumentName, dailyObjectName]]? = some compressed ∧
    StoredAs env metadata compressed

theorem DailyDescribed.agree {area : FilePath → Prop} {contents contents' : Contents}
    {attempt : FilePath}
    {metadata : PageMetadata} (h : DailyDescribed env contents attempt metadata)
    (hagree : Agree area contents contents')
    (harea : ¬ area (attempt ++ [instrumentName, dailyObjectName])) :
    DailyDescribed env contents' attempt metadata := by
  refine ⟨h.kind, h.path, ?_⟩
  rw [hagree _ harea]
  exact h.stored

theorem DailyDescribed.matches {contents : Contents} {attempt : FilePath} {metadata : PageMetadata}
    (h : DailyDescribed env contents attempt metadata) :
    ObjectMatches env contents attempt metadata := by
  refine ⟨?_, ?_⟩
  · rw [h.path, components_dailyObjectPath]
    rfl
  · rw [h.path, join_dailyObjectPath]
    exact h.stored

end Daily

section Attempt
variable {env : StorageEnv} {attempt : FilePath} {daily : Bool} {contents contents' : Contents}
  {area : FilePath → Prop}

/-- What the metadata files of an attempt say. That of the instrument describes its object while the
flag is set. -/
structure AttemptFiles (env : StorageEnv) (attempt : FilePath) (daily : Bool)
    (contents : Contents) : Prop where
  pages : AttemptSound env attempt contents
  instrument : ∀ bytes, contents[attempt ++ dailyMetadataPath]? = some bytes → ∃ metadata,
    bytes = env.metadataToVec metadata ∧
    (daily = true → DailyDescribed env contents attempt metadata)

/-- The pages are staged apart from the instrument. -/
theorem AttemptFiles.pages_change (h : AttemptFiles env attempt daily contents)
    (hpages : AttemptSound env attempt contents') (hagree : Agree area contents contents')
    (harea : ∀ name, ¬ area (attempt ++ [instrumentName, name])) :
    AttemptFiles env attempt daily contents' := by
  refine ⟨hpages, fun bytes hbytes => ?_⟩
  have hmetadata : ¬ area (attempt ++ dailyMetadataPath) := harea _
  rw [hagree _ hmetadata] at hbytes
  obtain ⟨metadata, hvec, hdescribed⟩ := h.instrument bytes hbytes
  exact ⟨metadata, hvec, fun hdaily => (hdescribed hdaily).agree hagree (harea _)⟩

theorem AttemptFiles.agree (h : AttemptFiles env attempt daily contents)
    (hagree : Agree area contents contents')
    (hpages : ∀ name, ¬ area (attempt ++ pagesPath ++ [name]))
    (hinstrument : ∀ name, ¬ area (attempt ++ [instrumentName, name])) :
    AttemptFiles env attempt daily contents' :=
  h.pages_change (h.pages.agree hagree (fun name _ => hpages name) fun _ _ _ => hpages _)
    hagree hinstrument

/-- A metadata file may be removed. -/
theorem AttemptFiles.erase {path : FilePath} (h : AttemptFiles env attempt daily contents)
    (hpage : ∀ ordinal, attempt ++ pagesPath ++ [pageObjectName ordinal] ≠ path)
    (hdaily : attempt ++ [instrumentName, dailyObjectName] ≠ path) :
    AttemptFiles env attempt daily (contents.erase path) := by
  have hagree : Agree (· = path) contents (contents.erase path) := Agree.erase rfl
  have hleft : ∀ (other : FilePath) (bytes : List UInt8),
      (contents.erase path)[other]? = some bytes → contents[other]? = some bytes := by
    intro other bytes hbytes
    rw [Std.ExtTreeMap.getElem?_erase] at hbytes
    split at hbytes
    · cases hbytes
    · exact hbytes
  constructor
  · intro name bytes hname hbytes
    obtain ⟨metadata, hvec, hnamed, hdescribed⟩ := h.pages name bytes hname (hleft _ _ hbytes)
    exact ⟨metadata, hvec, hnamed, hdescribed.agree hagree (hpage _)⟩
  · intro bytes hbytes
    obtain ⟨metadata, hvec, hdescribed⟩ := h.instrument bytes (hleft _ _ hbytes)
    exact ⟨metadata, hvec, fun hset => (hdescribed hset).agree hagree hdaily⟩

/-- Nothing is said of an attempt without files. -/
theorem AttemptFiles.of_empty (h : ∀ rest, contents[attempt ++ rest]? = none) :
    AttemptFiles env attempt daily contents := by
  constructor
  · intro name bytes _ hbytes
    rw [List.append_assoc, h] at hbytes
    cases hbytes
  · intro bytes hbytes
    rw [h] at hbytes
    cases hbytes

end Attempt

end Osmium
