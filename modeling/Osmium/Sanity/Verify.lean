import Osmium.Spec.Verify

/-! What verification accepts, as conditions on the files. -/

namespace Osmium
open Machine Bytes Result Files

section Trimming

theorem leadingBlank_digit {byte : UInt8} (h : 48 ≤ byte) (h' : byte ≤ 0x7F) (rest : List UInt8) :
    leadingBlank (byte :: rest) = 0 := by
  have hspace : ((0x09 ≤ byte && byte ≤ 0x0D) || byte == 0x20) = false := by
    revert h h'
    exact Hex.forall_byte (P := fun byte => 48 ≤ byte → byte ≤ 0x7F →
      ((0x09 ≤ byte && byte ≤ 0x0D) || byte == 0x20) = false) (by decide +kernel) byte
  have hlead : ∀ first : UInt8, 0x7F < first → (byte == first) = false := fun first hfirst => by
    rw [beq_eq_false_iff_ne]
    rintro rfl
    exact absurd h' (UInt8.not_le.2 hfirst)
  cases rest with
  | nil => simp [leadingBlank, hspace]
  | cons second rest =>
    have htwo : (byte == 0xC2 && (second == 0x85 || second == 0xA0)) = false := by
      rw [hlead 0xC2 (by decide), Bool.false_and]
    cases rest with
    | nil => simp [leadingBlank, hspace, htwo]
    | cons third rest =>
      have hthree : whitespaceOfThree byte second third = false := by
        simp only [whitespaceOfThree, hlead 0xE1 (by decide), hlead 0xE2 (by decide),
          hlead 0xE3 (by decide), Bool.false_and, Bool.or_self]
      simp [leadingBlank, hspace, htwo, hthree]

theorem isBlank_of_leadingBlank {byte : UInt8} {rest : List UInt8}
    (h : leadingBlank (byte :: rest) = 0) :
    isBlank (byte :: rest) = false := by
  by_cases hspace : ((0x09 ≤ byte && byte ≤ 0x0D) || byte == 0x20) = true
  · simp [leadingBlank, hspace] at h
  cases rest with
  | nil => simp [isBlank, hspace]
  | cons second rest =>
    by_cases htwo : (byte == 0xC2 && (second == 0x85 || second == 0xA0)) = true
    · simp [leadingBlank, hspace, htwo] at h
    cases rest with
    | nil => simp [isBlank, hspace, htwo]
    | cons third rest =>
      have hthree : whitespaceOfThree byte second third = false := by
        simpa [leadingBlank, hspace, htwo] using h
      simp [isBlank, hspace, htwo, hthree]

/-- A text without white space is left as it is. -/
theorem trim_ascii {text : List UInt8} (h : ∀ byte ∈ text, 48 ≤ byte ∧ byte ≤ 0x7F) :
    trim text = text := by
  have hstart : leadingBlank text = 0 := by
    cases text with
    | nil => rfl
    | cons byte rest =>
      exact leadingBlank_digit (h byte List.mem_cons_self).1 (h byte List.mem_cons_self).2 rest
  have hend : ∀ rest, (∀ byte ∈ rest, 48 ≤ byte ∧ byte ≤ 0x7F) → trimEnd rest = rest := by
    intro rest hrest
    induction rest with
    | nil => rfl
    | cons byte rest ih =>
      have hbyte := hrest byte List.mem_cons_self
      rw [trimEnd, isBlank_of_leadingBlank (leadingBlank_digit hbyte.1 hbyte.2 rest),
        if_neg Bool.false_ne_true,
        ih fun other hother => hrest other (List.mem_cons_of_mem byte hother)]
  rw [trim, trimStart, dif_pos hstart, hend text h]

theorem trim_encode (bytes : List UInt8) : trim (Hex.encode bytes) = Hex.encode bytes := by
  apply trim_ascii
  intro byte hbyte
  simp only [Hex.encode, List.mem_flatMap, List.mem_cons, List.not_mem_nil, or_false] at hbyte
  obtain ⟨source, -, hdigit⟩ := hbyte
  have hall : ∀ source :
      UInt8, ((48 : UInt8) ≤ Hex.digit (source >>> 4) ∧ Hex.digit (source >>> 4) ≤ 0x7F) ∧
      (48 : UInt8) ≤ Hex.digit (source &&& 15) ∧ Hex.digit (source &&& 15) ≤ 0x7F :=
    Hex.forall_byte (by decide +kernel)
  rcases hdigit with rfl | rfl
  · exact (hall source).1
  · exact (hall source).2

end Trimming

section Objects
variable {env : StorageEnv} {contents : Contents}

/-- The compressed bytes are the ones the metadata is about. -/
def StoredAs (env : StorageEnv) (metadata : PageMetadata) (compressed : List UInt8) : Prop :=
  (Hex.text (env.sha256 compressed).bytes = metadata.compressedSha256 ∧
    Unsigned.wrap 64 compressed.length = metadata.compressedBytes) ∧
  ∃ body, env.decompress compressed = some body ∧
    (Unsigned.wrap 64 body.length = metadata.uncompressedBytes ∧
      Hex.text (env.sha256 body).bytes = metadata.uncompressedSha256) ∧
    ∃ value, env.fromSlice body = .ok value ∧
    recordsOf metadata.kind value = .ok metadata.recordCount

/-- The object is in its place under a directory, and it is the one the metadata is about. -/
def ObjectMatches (env : StorageEnv) (contents : Contents) (root : FilePath)
    (metadata : PageMetadata) : Prop :=
  (components metadata.relativePath.bytes).all PathComponent.isNormal = true ∧
    ∃ compressed, contents[join root metadata.relativePath]? = some compressed ∧
    StoredAs env metadata compressed

theorem readFile_ok {path : FilePath} {bytes : List UInt8} :
    readFile contents path = .ok bytes ↔ contents[path]? = some bytes := okOr_eq_ok _ _ _

/-- The same object under another directory with the same files. -/
theorem ObjectMatches.frame {contents' : Contents} {root root' : FilePath} {metadata : PageMetadata}
    (h : ObjectMatches env contents root metadata)
    (hfiles : ∀ rest, contents'[root' ++ rest]? = contents[root ++ rest]?) :
    ObjectMatches env contents' root' metadata := by
  obtain ⟨hnormal, compressed, hobject, hstored⟩ := h
  refine ⟨hnormal, compressed, ?_, hstored⟩
  rw [join, hfiles]
  exact hobject

theorem verifyObject_ok {root : FilePath} {metadata : PageMetadata} {u : Unit} :
    verifyObject env contents root metadata = .ok u ↔ ObjectMatches env contents root metadata := by
  simp only [verifyObject, ObjectMatches, StoredAs, bind_eq_ok, ensure_eq_ok, okOr_eq_ok,
    mapError_eq_ok, readFile_ok, exists_const, exists_eq_right, and_assoc]

def ordinalBefore (a b : PageMetadata) : Prop := a.ordinal ≤ b.ordinal

instance : DecidableRel ordinalBefore :=
  fun a b => inferInstanceAs (Decidable (a.ordinal ≤ b.ordinal))

instance : Std.Total ordinalBefore := ⟨fun a b => le_total a.ordinal b.ordinal⟩

instance : IsTrans PageMetadata ordinalBefore := ⟨fun _ _ _ => le_trans⟩

/-- Tick pages with consecutive ordinals, as far as 32 bits tell them apart. -/
def InPlace (expected : ℕ) (pages : List PageMetadata) : Prop :=
  ∀ index page, pages[index]? = some page → page.kind = .tickPage ∧
  page.ordinal = Unsigned.wrap 32 (expected + index)

theorem inPlace_cons {expected : ℕ} {page : PageMetadata} {rest : List PageMetadata} :
    InPlace expected (page :: rest) ↔
      (page.kind = .tickPage ∧ page.ordinal = Unsigned.wrap 32 expected) ∧
      InPlace (expected + 1) rest := by
  refine ⟨fun h => ⟨h 0 page rfl, fun index other hother => ?_⟩, fun h index other hother => ?_⟩
  · rw [Nat.add_assoc, Nat.add_comm 1 index]
    exact h (index + 1) other hother
  · cases index with
    | zero =>
      obtain rfl : page = other := by simpa using hother
      exact h.1
    | succ index =>
      rw [Nat.add_comm index 1, ← Nat.add_assoc]
      exact h.2 index other hother

theorem InPlace.pairwise {pages : List PageMetadata} (h : InPlace 0 pages)
    (hlength : pages.length ≤ 2 ^ 32) :
    pages.Pairwise ordinalBefore := by
  rw [List.pairwise_iff_getElem]
  intro i j hi hj hij
  rw [ordinalBefore, (h i _ (List.getElem?_eq_getElem hi)).2,
    (h j _ (List.getElem?_eq_getElem hj)).2, Unsigned.le_iff,
    Unsigned.val_wrap (by omega), Unsigned.val_wrap (by omega)]
  omega

theorem checkContiguous_ok {expected : ℕ} {pages : List PageMetadata} {u : Unit} :
    checkContiguous expected pages = .ok u ↔ InPlace expected pages := by
  induction pages generalizing expected with
  | nil => simp [checkContiguous, InPlace]
  | cons page rest ih =>
    simp only [checkContiguous, bind_eq_ok, ensure_eq_ok, exists_const, ih, inPlace_cons]

theorem verifyPages_ok {root : FilePath} {expected : ℕ} {total tickRecords : U64}
    {pages : List PageMetadata} :
    verifyPages env contents root expected total pages = .ok tickRecords ↔
      InPlace expected pages ∧ (∀ page ∈ pages, ObjectMatches env contents root page) ∧
        sumRecords total pages = some tickRecords := by
  induction pages generalizing expected total with
  | nil => simp [verifyPages, InPlace, sumRecords]
  | cons page rest ih =>
    simp only [verifyPages, bind_eq_ok, ensure_eq_ok, okOr_eq_ok, inPlace_cons,
      List.forall_mem_cons, sumRecords,
      Option.bind_eq_bind, Option.bind_eq_some_iff, ih, exists_const, verifyObject_ok]
    constructor
    · rintro ⟨hplace, hobject, total', htotal, hrest, hobjects, hsum⟩
      exact ⟨⟨hplace, hrest⟩, ⟨hobject, hobjects⟩, total', htotal, hsum⟩
    · rintro ⟨⟨hplace, hrest⟩, ⟨hobject, hobjects⟩, total', htotal, hsum⟩
      exact ⟨hplace, hobject, total', htotal, hrest, hobjects, hsum⟩

end Objects

section Manifests
variable {env : StorageEnv} {pages : List PageMetadata} {daily : PageMetadata}
  {manifest : SourceManifest}

/-- What the identity of a revision is over. -/
def semanticBytes (daily objects : List UInt8) : List UInt8 :=
  [79, 83, 83, 82] ++ ofUnsigned 2 SourceManifest.version ++ daily ++ objects

/-- The manifest of these objects. Its pages are in order. -/
structure Lists (env : StorageEnv) (pages : List PageMetadata) (daily : PageMetadata)
    (manifest : SourceManifest) : Prop where
  version : manifest.manifestVersion = SourceManifest.version
  terminal : manifest.terminalCursorReached = true
  sorted : manifest.pages = pages.insertionSort ordinalBefore
  instrument : manifest.dailyInstrument = daily
  places : InPlace 0 manifest.pages
  count : sumRecords 0 manifest.pages = some manifest.tickRecordCount
  identity : ∃ dailyBytes objects, appendSemanticObject daily = .ok dailyBytes ∧
    appendSemanticObjects manifest.pages = .ok objects ∧
    manifest.revisionIdentity = Hex.text (env.sha256 (semanticBytes dailyBytes objects)).bytes

theorem build_ok {queryIdentity : Digest} {terminal : Bool} :
    SourceManifest.build env queryIdentity terminal pages daily = .ok manifest ↔
      terminal = true ∧ Lists env pages daily manifest ∧
      manifest.queryIdentity = Hex.text queryIdentity.bytes := by
  simp only [SourceManifest.build, bind_eq_ok, ensure_eq_ok, okOr_eq_ok, pure_eq_ok, exists_const,
    checkContiguous_ok]
  constructor
  · rintro ⟨rfl, hplaces, count, hcount, dailyBytes, hdaily, objects, hobjects, rfl⟩
    exact ⟨rfl,
      ⟨rfl, rfl, rfl, rfl, hplaces, hcount, dailyBytes, objects, hdaily, hobjects, rfl⟩, rfl⟩
  · rintro
      ⟨rfl, ⟨hversion, hterminal, hpages, hdaily, hplaces, hcount, dailyBytes, objects, hdailyBytes,
        hobjects, hidentity⟩,
      hquery⟩
    obtain ⟨version, identity, query, terminal, count, sorted, instrument⟩ := manifest
    simp only at hversion hterminal hpages hdaily hplaces hcount hobjects hidentity hquery
    subst hversion hterminal hpages hdaily hidentity hquery
    exact ⟨rfl, hplaces, count, hcount, dailyBytes, hdailyBytes, objects, hobjects, rfl⟩

theorem Lists.pairwise (h : Lists env pages daily manifest) :
    manifest.pages.Pairwise ordinalBefore := by
  rw [h.sorted]
  exact List.pairwise_insertionSort ordinalBefore pages

theorem Lists.mem (h : Lists env pages daily manifest) {page : PageMetadata} :
    page ∈ manifest.pages ↔ page ∈ pages := by
  rw [h.sorted]
  exact (List.perm_insertionSort ordinalBefore pages).mem_iff

/-- A manifest is that of its own objects. -/
theorem Lists.again (h : Lists env pages daily manifest) :
    Lists env manifest.pages manifest.dailyInstrument manifest where
  version := h.version
  terminal := h.terminal
  sorted := h.pairwise.insertionSort_eq.symm
  instrument := rfl
  places := h.places
  count := h.count
  identity := by
    rw [h.instrument]
    exact h.identity

/-- The query is not part of the identity. -/
theorem Lists.rebuild (h : Lists env pages daily manifest) (queryIdentity : Digest) :
    SourceManifest.build env queryIdentity true pages daily =
      .ok { manifest with queryIdentity := Hex.text queryIdentity.bytes } :=
  build_ok.2
    ⟨rfl, ⟨h.version, h.terminal, h.sorted, h.instrument, h.places, h.count, h.identity⟩, rfl⟩

/-- More pages than 32 bits can count are never in order. -/
theorem Lists.length_le (h : Lists env pages daily manifest) : manifest.pages.length ≤ 2 ^ 32 := by
  by_contra hlong
  have hfirst := List.getElem?_eq_getElem (l := manifest.pages) (i := 1) (by omega)
  have hwrapped := List.getElem?_eq_getElem (l := manifest.pages) (i := 2 ^ 32) (by omega)
  have hordered :=
    List.pairwise_iff_getElem.1 h.pairwise 1 (2 ^ 32) (by omega) (by omega) (by norm_num)
  rw [ordinalBefore, (h.places 1 _ hfirst).2, (h.places (2 ^ 32) _ hwrapped).2] at hordered
  exact absurd hordered (by decide)

theorem Lists.ordinals (h : Lists env pages daily manifest) :
    manifest.pages.map (fun page => page.ordinal.val) = List.range manifest.pages.length := by
  apply List.ext_getElem?
  intro index
  have hlength := h.length_le
  by_cases hindex : index < manifest.pages.length
  · rw [List.getElem?_map, List.getElem?_range hindex, List.getElem?_eq_getElem hindex,
      Option.map_some,
      (h.places index _ (List.getElem?_eq_getElem hindex)).2, Nat.zero_add,
      Unsigned.val_wrap (by omega)]
  · rw [List.getElem?_eq_none (by rw [List.length_map]; omega),
      List.getElem?_eq_none (by rw [List.length_range]; omega)]

end Manifests

section Current
variable {env : StorageEnv} {contents : Contents} {sourceRoot : FilePath}

/-- The current revision of a directory, with all that makes a reader trust it. -/
structure Verified (env : StorageEnv) (contents : Contents) (sourceRoot : FilePath)
    (report : VerificationReport) : Prop where
  pointer : readPointer contents sourceRoot = .ok report.manifest.revisionIdentity.bytes
  revision : Hex.decode32 true report.manifest.revisionIdentity.bytes = some report.revision
  root : report.revisionRoot = sourceRoot ++ [revisionsName, report.manifest.revisionIdentity.bytes]
  manifest : ∃ bytes, contents[report.revisionRoot ++ [manifestName]]? = some bytes ∧
    env.manifestFromSlice bytes = .ok report.manifest
  nonempty : report.manifest.pages ≠ []
  pages : ∀ page ∈ report.manifest.pages, ObjectMatches env contents report.revisionRoot page
  dailyKind : report.manifest.dailyInstrument.kind = .dailyInstrument
  daily : ObjectMatches env contents report.revisionRoot report.manifest.dailyInstrument
  query : ∃ queryIdentity, Hex.decode32 true report.manifest.queryIdentity.bytes =
      some queryIdentity
  lists : Lists env report.manifest.pages report.manifest.dailyInstrument report.manifest

theorem readPointer_ok {text : List UInt8} : readPointer contents sourceRoot = .ok text ↔
    ∃ raw, contents[sourceRoot ++ [currentName]]? = some raw ∧ isUtf8 raw = true ∧
    trim raw = text := by
  simp only [readPointer, bind_eq_ok, ensure_eq_ok, pure_eq_ok, readFile_ok, exists_const]

theorem verifyCurrent_ok {report : VerificationReport} :
    verifyCurrent env contents sourceRoot = .ok report ↔
    Verified env contents sourceRoot report := by
  simp only [verifyCurrent, bind_eq_ok, ensure_eq_ok, okOr_eq_ok, mapError_eq_ok, pure_eq_ok,
    readFile_ok, exists_const, verifyPages_ok, verifyObject_ok, build_ok, true_and]
  constructor
  · rintro ⟨text, hpointer, revision, hrevision, bytes, hbytes, manifest, hmanifest,
      ⟨hversion, rfl, hterminal⟩, hnonempty,
      tickRecords, ⟨hplaces, hpages, hcount⟩, hkind, hdaily, rfl, queryIdentity, hquery, rebuilt,
      ⟨hrebuilt, -⟩, hidentity, rfl⟩
    have hlength : manifest.pages.length ≤ 2 ^ 32 := by
      have hlength := hrebuilt.length_le
      rwa [hrebuilt.sorted, List.length_insertionSort] at hlength
    have hsorted := (hplaces.pairwise hlength).insertionSort_eq
    refine ⟨hpointer, hrevision, rfl, ⟨bytes, hbytes, hmanifest⟩, hnonempty, hpages, hkind, hdaily,
      ⟨queryIdentity, hquery⟩, ?_⟩
    refine ⟨hversion, hterminal, hsorted.symm, rfl, hplaces, hcount, ?_⟩
    obtain ⟨dailyBytes, objects, hdailyBytes, hobjects, hbuilt⟩ := hrebuilt.identity
    rw [hrebuilt.sorted, hsorted] at hobjects
    exact ⟨dailyBytes, objects, hdailyBytes, hobjects, hidentity.symm.trans hbuilt⟩
  · intro h
    obtain ⟨bytes, hbytes, hmanifest⟩ := h.manifest
    obtain ⟨queryIdentity, hquery⟩ := h.query
    obtain ⟨revision, manifest, root⟩ := report
    have hroot : root = sourceRoot ++ [revisionsName, manifest.revisionIdentity.bytes] := h.root
    subst hroot
    have hrebuilt := (build_ok.1 (h.lists.rebuild queryIdentity)).2.1
    exact ⟨_, h.pointer, revision, h.revision, bytes, hbytes, manifest, hmanifest,
      ⟨h.lists.version, rfl, h.lists.terminal⟩, h.nonempty, _,
      ⟨h.lists.places, h.pages, h.lists.count⟩, h.dailyKind, h.daily,
      rfl, queryIdentity, hquery, _, ⟨hrebuilt, rfl⟩, rfl, rfl⟩

/-- Only the pointer and the files of the current revision matter. -/
theorem Verified.frame {report : VerificationReport} {contents' : Contents}
    (h : Verified env contents sourceRoot report)
    (hpointer : contents'[sourceRoot ++ [currentName]]? = contents[sourceRoot ++ [currentName]]?)
    (hfiles : ∀ rest, contents'[report.revisionRoot ++ rest]? =
      contents[report.revisionRoot ++ rest]?) :
    Verified env contents' sourceRoot report where
  pointer := by
    rw [readPointer_ok, hpointer]
    exact readPointer_ok.1 h.pointer
  revision := h.revision
  root := h.root
  manifest := by
    rw [hfiles]
    exact h.manifest
  nonempty := h.nonempty
  pages page hpage := (h.pages page hpage).frame fun rest => by rw [hfiles]
  dailyKind := h.dailyKind
  daily := h.daily.frame fun rest => by rw [hfiles]
  query := h.query
  lists := h.lists

end Current

end Osmium
