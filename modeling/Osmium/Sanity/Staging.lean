import Osmium.Sanity.Storage

/-! Attempts over all sequences of staging calls that return, fail or are cut off. An attempt whose
publication failed is taken up again like any other. -/

namespace Osmium
open Machine Bytes Result Stateful Files

section Sealing

/-- manifest.tmp -/
def manifestTemporaryName : List UInt8 := [109, 97, 110, 105, 102, 101, 115, 116, 46, 116, 109, 112]

/-- current.tmp -/
def currentTemporaryName : List UInt8 := [99, 117, 114, 114, 101, 110, 116, 46, 116, 109, 112]

theorem withExtension_manifest (root : FilePath) :
    withExtension (root ++ [manifestName]) temporaryExtension =
      root ++ [manifestTemporaryName] := by
  rw [show manifestName = [109, 97, 110, 105, 102, 101, 115, 116] ++ 46 :: yamlExtension from rfl,
    withExtension_append (by decide) (by decide)]
  rfl

theorem withExtension_current (root : FilePath) :
    withExtension (root ++ [currentName]) temporaryExtension = root ++ [currentTemporaryName] := by
  rw [show currentName = [99, 117, 114, 114, 101, 110, 116] ++ 46 :: yamlExtension from rfl,
    withExtension_append (by decide) (by decide)]
  rfl

/-- The files of an attempt that its sealing removes or writes. -/
def SealArea (attempt path : FilePath) : Prop :=
  path = attempt ++ [checkpointName] ∨ path = attempt ++ dailyMetadataPath ∨
    (∃ ordinal, path = attempt ++ pageMetadataPath ordinal) ∨ path = attempt ++ [manifestName] ∨
    path = attempt ++ [manifestTemporaryName]

theorem sealArea_pageObject (attempt : FilePath) (ordinal : U32) :
    ¬ SealArea attempt (attempt ++ pagesPath ++ [pageObjectName ordinal]) := by
  rw [List.append_assoc]
  rintro (heq | heq | ⟨other, heq⟩ | heq | heq)
  · simp [pagesPath] at heq
  · simp [pagesPath, dailyMetadataPath] at heq
  · exact pageObject_ne_metadata _ _ _ heq
  · simp [pagesPath] at heq
  · simp [pagesPath] at heq

theorem sealArea_dailyObject (attempt : FilePath) :
    ¬ SealArea attempt (attempt ++ [instrumentName, dailyObjectName]) := by
  rintro (heq | heq | ⟨ordinal, heq⟩ | heq | heq)
  · simp at heq
  · exact absurd (List.append_cancel_left heq) (by decide)
  · exact pages_ne_instrument _ _ _ heq.symm
  · simp at heq
  · simp at heq

theorem sealArea_below {attempt path : FilePath} (h : SealArea attempt path) :
    attempt <+: path := by
  rcases h with rfl | rfl | ⟨ordinal, rfl⟩ | rfl | rfl
  all_goals exact List.prefix_append _ _

end Sealing

section Histories
variable {env : StorageEnv}

/-- A page as the cursor machine hands it on. -/
def AcceptedPage (env : StorageEnv) (page : SourcePage) : Prop :=
  ∃ machine machine' request body pending,
    CursorStateMachine.acceptResponse env.hash env.fromSlice request body machine =
      .ok pending machine' ∧
    page = pending.sourcePage env

/-- The object of the instrument is as it was, or no metadata told of it. -/
def instrumentKept (attempt : FilePath) (before after : Contents) : Bool :=
  before[attempt ++ dailyMetadataPath]? = none ∨
    after[attempt ++ [instrumentName, dailyObjectName]]? =
      before[attempt ++ [instrumentName, dailyObjectName]]?

/-- An attempt after its process is gone. -/
def StagingRevision.restarted (staging : StagingRevision) : StagingRevision :=
  ⟨staging.publishRoot, staging.attemptPath, [], none⟩

/-- What staging calls lead to, from an empty attempt: they return, fail, or are cut off at one of
the states they go through, publication included, and an attempt is taken up again with or without
the metadata on disk. Other files may change at any time. The flag says that no unfinished staging
has replaced an instrument whose metadata is still there. -/
inductive Prepared (env : StorageEnv) : StagingRevision → Bool → Contents → Prop
  | create {staging : StagingRevision} {contents : Contents} {dataRoot : FilePath}
      {attemptId : Text}
      (hcreate : StagingRevision.create dataRoot attemptId = .ok staging ∨
        StagingRevision.createAt dataRoot attemptId = .ok staging)
      (hempty : present contents staging.attemptPath = false) : Prepared env staging true contents
  | elsewhere {staging : StagingRevision} {daily : Bool} {contents contents' : Contents}
      (h : Prepared env staging daily contents)
      (hagree : Agree (fun path => ¬ staging.attemptPath <+: path) contents contents') :
      Prepared env staging daily contents'
  | page {staging staging' : StagingRevision} {daily : Bool} {contents : Contents}
      {page : SourcePage}
      {staged : StagedPage} {disk : Disk} (h : Prepared env staging daily contents)
      (haccepted : AcceptedPage env page)
      (hstage : staging.stagePage env page ⟨contents, []⟩ = .ok (staging', staged) disk) :
      Prepared env staging' daily disk.contents
  | pageFailed {staging : StagingRevision} {daily : Bool} {contents : Contents} {page : SourcePage}
      {e : StagingError}
      {disk : Disk} (h : Prepared env staging daily contents) (haccepted : AcceptedPage env page)
      (hstage : staging.stagePage env page ⟨contents, []⟩ = .error e disk) :
      Prepared env staging daily disk.contents
  | pageCut {staging : StagingRevision} {daily : Bool} {contents contents' : Contents}
      {page : SourcePage}
      (h : Prepared env staging daily contents) (haccepted : AcceptedPage env page)
      (hcut : contents' ∈ (stateAfter (staging.stagePage env page ⟨contents, []⟩)).visited) :
      Prepared env staging.restarted daily contents'
  | daily {staging staging' : StagingRevision} {daily : Bool} {contents : Contents}
      {queryIdentity : Digest}
      {body : List UInt8} {metadata : PageMetadata} {disk : Disk}
      (h : Prepared env staging daily contents)
      (hstage : staging.stageDailyInstrument env queryIdentity body ⟨contents, []⟩ =
        .ok (staging', metadata) disk) :
      Prepared env staging' true disk.contents
  | dailyFailed {staging : StagingRevision} {daily : Bool} {contents : Contents}
      {queryIdentity : Digest}
      {body : List UInt8} {e : StagingError} {disk : Disk} (h : Prepared env staging daily contents)
      (hstage : staging.stageDailyInstrument env queryIdentity body ⟨contents, []⟩ =
        .error e disk) :
      Prepared env staging (daily && instrumentKept staging.attemptPath contents disk.contents)
        disk.contents
  | dailyCut {staging : StagingRevision} {daily : Bool} {contents contents' : Contents}
      {queryIdentity : Digest}
      {body : List UInt8} (h : Prepared env staging daily contents)
      (hcut : contents' ∈
        (stateAfter (staging.stageDailyInstrument env queryIdentity body ⟨contents, []⟩)).visited) :
      Prepared env staging.restarted
        (daily && instrumentKept staging.attemptPath contents contents') contents'
  | publishFailed {staging : StagingRevision} {daily terminal : Bool} {contents : Contents}
      {queryIdentity : Digest}
      {e : StagingError} {disk : Disk} (h : Prepared env staging daily contents)
      (hpublish : staging.publish env queryIdentity terminal ⟨contents, []⟩ = .error e disk) :
      Prepared env staging.restarted daily disk.contents
  | publishCut {staging : StagingRevision} {daily terminal : Bool} {contents contents' : Contents}
      {queryIdentity : Digest}
      (h : Prepared env staging daily contents)
      (hcut : contents' ∈
        (stateAfter (staging.publish env queryIdentity terminal ⟨contents, []⟩)).visited) :
      Prepared env staging.restarted daily contents'
  | restart {staging : StagingRevision} {daily : Bool} {contents : Contents}
      (h : Prepared env staging daily contents) :
      Prepared env staging.restarted daily contents
  | resume {staging resumed : StagingRevision} {daily : Bool} {contents : Contents}
      {committedPages : U32} {disk : Disk}
      (h : Prepared env staging daily contents)
      (hresume : StagingRevision.resumeAt env staging.publishRoot staging.attemptPath committedPages
        ⟨contents, []⟩ =
        .ok resumed disk) : Prepared env resumed daily contents

/-- An attempt is below neither the revisions nor the pointer. -/
def Apart (staging : StagingRevision) : Prop :=
  ∀ name rest rest', name ≠ stagingName →
  staging.attemptPath ++ rest ≠ staging.publishRoot ++ name :: rest'

/-- What holds of an attempt in all of them. What it holds is what its metadata files say. -/
structure StagingSound (env : StorageEnv) (staging : StagingRevision) (daily : Bool)
    (contents : Contents) : Prop where
  apart : Apart staging
  files : AttemptFiles env staging.attemptPath daily contents
  held : ∀ metadata ∈ staging.pages,
    contents[staging.attemptPath ++ pageMetadataPath metadata.ordinal]? =
      some (env.metadataToVec metadata)
  heldInstrument : ∀ metadata, staging.dailyInstrument = some metadata →
    contents[staging.attemptPath ++ dailyMetadataPath]? = some (env.metadataToVec metadata)

theorem StagingSound.restarted {staging : StagingRevision} {daily daily' : Bool}
    {contents contents' : Contents} (h : StagingSound env staging daily contents)
    (hfiles : AttemptFiles env staging.attemptPath daily' contents') :
    StagingSound env staging.restarted daily' contents' :=
  ⟨h.apart, hfiles, by simp [StagingRevision.restarted], by simp [StagingRevision.restarted]⟩

/-- The records of an accepted page are counted as verification counts them. -/
theorem AcceptedPage.stored (hlawful : env.Lawful) {page : SourcePage} (h : AcceptedPage env page) :
    StoredAs env (page.metadata env) (env.compress page.body) := by
  obtain ⟨machine, machine', request, body, pending, haccept, rfl⟩ := h
  rw [CursorStateMachine.acceptResponse] at haccept
  obtain ⟨_, machine₁, -, haccept⟩ := (bind_ok _ _ _ _ _).1 haccept
  rw [get_bind] at haccept
  obtain ⟨_, machine₂, -, haccept⟩ := (bind_ok _ _ _ _ _).1 haccept
  obtain ⟨parsed, machine₃, hparsed, haccept⟩ := (bind_ok _ _ _ _ _).1 haccept
  obtain ⟨hparsed, -⟩ := (lift_ok _ _ _ _).1 hparsed
  obtain ⟨hbody, hcount⟩ : pending.body = body ∧ pending.recordCount = parsed.recordCount := by
    by_cases hseen : machine₁.checkpoint.seenPageFingerprints.contains (env.hash body) = true
    · rw [if_pos hseen] at haccept
      cases haccept
    rw [if_neg hseen] at haccept
    by_cases hrevisits : parsed.nextCursor.any (machine₁.revisits env.hash request) = true
    · rw [if_pos hrevisits] at haccept
      cases haccept
    · rw [if_neg hrevisits] at haccept
      cases haccept
      exact ⟨rfl, rfl⟩
  simp only [parsePage, bind_eq_ok, mapError_eq_ok, okOr_eq_ok, pure_eq_ok] at hparsed
  obtain ⟨value, hvalue, _, -, items, hitems, _, -, _, -, rfl⟩ := hparsed
  refine ⟨⟨rfl, rfl⟩, pending.body, hlawful.zstd _, ⟨rfl, rfl⟩,
    value, by rw [hbody]; exact hvalue, ?_⟩
  change recordsOf .tickPage value = .ok pending.recordCount
  rw [recordsOf, hitems, hcount]
  rfl

section Steps
variable {staging : StagingRevision} {daily : Bool} {contents contents' : Contents}
  {page : SourcePage}

/-- A change apart from the metadata that the attempt holds. -/
theorem StagingSound.agree {area : FilePath → Prop} (h : StagingSound env staging daily contents)
    (hagree : Agree area contents contents')
    (hfiles : AttemptFiles env staging.attemptPath daily contents')
    (hheld : ∀ metadata ∈ staging.pages,
      ¬ area (staging.attemptPath ++ pageMetadataPath metadata.ordinal))
    (hinstrument : ¬ area (staging.attemptPath ++ dailyMetadataPath)) :
    StagingSound env staging daily contents' where
  apart := h.apart
  files := hfiles
  held metadata hmem := by
    rw [hagree _ (hheld metadata hmem)]
    exact h.held metadata hmem
  heldInstrument metadata hmetadata := by
    rw [hagree _ hinstrument]
    exact h.heldInstrument metadata hmetadata

/-- A temporary file of a page says nothing. -/
theorem AttemptFiles.temporary {attempt : FilePath} (h : AttemptFiles env attempt daily contents)
    {name : List UInt8} (hname : extension name = some temporaryExtension)
    (hagree : Agree (· = attempt ++ (pagesPath ++ [name])) contents contents') :
    AttemptFiles env attempt daily contents' :=
  h.pages_change (h.pages.temporary hname hagree) hagree fun _ => (pages_ne_instrument _ _ _).symm

section Page
variable (h : StagingSound env staging daily contents)
  (habsent : contents[staging.attemptPath ++ pageMetadataPath page.ordinal]? = none)

include h habsent

/-- The object of a page that has no metadata yet may be put in place. -/
theorem StagingSound.pageObject : StagingSound env staging daily
    (page.objectStates env staging.attemptPath ⟨contents, []⟩).contents := by
  have hagree :
      Agree _ contents (page.objectStates env staging.attemptPath ⟨contents, []⟩).contents :=
    atomicStates_agree _ _ _ _
  have hapart : ∀ name, ¬ (staging.attemptPath ++ [instrumentName, name] =
        staging.attemptPath ++ pageTemporaryPath page.ordinal ∨
        staging.attemptPath ++ [instrumentName, name] =
          staging.attemptPath ++ pagesPath ++ [pageObjectName page.ordinal]) := by
    intro name
    rw [List.append_assoc, not_or]
    exact ⟨(pages_ne_instrument _ _ _).symm, (pages_ne_instrument _ _ _).symm⟩
  refine h.agree hagree (h.files.pages_change (h.files.pages.object habsent hagree) hagree hapart)
    (fun metadata _ => ?_) (hapart _)
  rw [List.append_assoc, not_or]
  exact ⟨(pageTemporary_ne_metadata _ _ _).symm, (pageObject_ne_metadata _ _ _).symm⟩

/-- The states on the way to the object only have a temporary file more. -/
theorem StagingSound.throughout_pageObject : Throughout (AttemptFiles env staging.attemptPath daily)
    (page.objectStates env staging.attemptPath ⟨contents, []⟩) := by
  have hstart : Throughout (AttemptFiles env staging.attemptPath daily) ⟨contents, []⟩ :=
    ⟨h.files, by simp⟩
  exact hstart.atomicStates
    (fun _ => h.files.temporary (extension_pageTemporary page.ordinal))
    (h.pageObject habsent).files

/-- Then its metadata may, which tells of the object. The pages held before have metadata on disk,
so this is none of them. -/
theorem StagingSound.pageMetadata (hlawful : env.Lawful) (haccepted : AcceptedPage env page) :
    StagingSound env staging daily (page.metadataStates env staging.attemptPath
      (page.objectStates env staging.attemptPath ⟨contents, []⟩)).contents := by
  have hobject := h.pageObject habsent
  have hagree : Agree _ (page.objectStates env staging.attemptPath ⟨contents, []⟩).contents
      (page.metadataStates env staging.attemptPath
        (page.objectStates env staging.attemptPath ⟨contents, []⟩)).contents :=
    atomicStates_agree _ _ _ _
  have hdescribed :
      PageDescribed env (page.objectStates env staging.attemptPath ⟨contents, []⟩).contents
      staging.attemptPath (page.metadata env) :=
    ⟨rfl, rfl, env.compress page.body, atomicStates_getElem? _ _ _ _, haccepted.stored hlawful⟩
  have hapart : ∀ name, ¬ (staging.attemptPath ++ [instrumentName, name] =
        staging.attemptPath ++ metadataTemporaryPath page.ordinal ∨
        staging.attemptPath ++ [instrumentName, name] =
          staging.attemptPath ++ pageMetadataPath page.ordinal) := by
    intro name
    rw [not_or]
    exact ⟨(pages_ne_instrument _ _ _).symm, (pages_ne_instrument _ _ _).symm⟩
  have hfresh : ∀ metadata ∈ staging.pages, metadata.ordinal ≠ page.ordinal := by
    intro metadata hmetadata heq
    rw [← heq, h.held metadata hmetadata] at habsent
    cases habsent
  have hfiles := hobject.files.pages_change
    (hobject.files.pages.describe hagree (atomicStates_getElem? _ _ _ _) hdescribed) hagree hapart
  refine hobject.agree hagree hfiles (fun metadata hmetadata => ?_) (hapart _)
  rw [not_or]
  refine ⟨(metadataTemporary_ne_metadata _ _ _).symm, fun heq => hfresh metadata hmetadata ?_⟩
  exact pageMetadataPath_injective (List.append_cancel_left heq)

end Page

/-- A page whose metadata is on disk may be held. -/
theorem StagingSound.held_snoc (h : StagingSound env staging daily contents)
    {metadata : PageMetadata}
    (hmetadata : contents[staging.attemptPath ++ pageMetadataPath metadata.ordinal]? =
      some (env.metadataToVec metadata)) :
    StagingSound env { staging with pages := staging.pages ++ [metadata] } daily contents where
  apart := h.apart
  files := h.files
  held other hother := by
    rcases List.mem_append.1 hother with hother | hother
    · exact h.held other hother
    · rw [List.mem_singleton.1 hother]
      exact hmetadata
  heldInstrument := h.heldInstrument

/-- Where a page is staged, every state keeps what the metadata files say, and so does the revision
that is returned. -/
theorem StagingSound.stagePage (hlawful : env.Lawful) (h : StagingSound env staging daily contents)
    (haccepted : AcceptedPage env page) :
    Throughout (AttemptFiles env staging.attemptPath daily)
      (stateAfter (staging.stagePage env page ⟨contents, []⟩)) ∧
    (∀ e disk, staging.stagePage env page ⟨contents, []⟩ = .error e disk →
      StagingSound env staging daily disk.contents) ∧
    ∀ staging' staged disk, staging.stagePage env page ⟨contents, []⟩ =
      .ok (staging', staged) disk →
      StagingSound env staging' daily disk.contents := by
  have hstart : Throughout (AttemptFiles env staging.attemptPath daily) ⟨contents, []⟩ :=
    ⟨h.files, by simp⟩
  rcases stagePage_cases hlawful.zstd staging page ⟨contents, []⟩ with
    ⟨e, hrun⟩ | ⟨bytes, metadata, hbytes, hmetadata, hrun⟩ |
      ⟨habsent, ⟨e, disk', hrun, hmoves⟩ | ⟨value, -, ⟨e, hrun⟩ | hrun⟩⟩
  · -- refused before anything is written
    rw [hrun]
    refine ⟨hstart, fun e disk heq => ?_, fun _ _ _ heq => ?_⟩
    · cases heq
      exact h
    · cases heq
  · -- staged before
    rw [hrun]
    refine ⟨hstart, fun e disk heq => ?_, fun staging' staged disk heq => ?_⟩
    · cases heq
    · cases heq
      obtain ⟨found, rfl, hordinal, -⟩ := h.files.pages.described hbytes
      rw [hlawful.metadata, Except.ok.injEq] at hmetadata
      subst hmetadata
      apply h.held_snoc
      rw [hordinal]
      exact hbytes
  · -- the object could not be written
    rw [hrun]
    have hfiles :
        ∀ other, Agree (· = staging.attemptPath ++ pageTemporaryPath page.ordinal) contents other →
        AttemptFiles env staging.attemptPath daily other :=
      fun _ => h.files.temporary (extension_pageTemporary page.ordinal)
    refine ⟨hstart.changes hmoves hfiles, fun e disk heq => ?_, fun _ _ _ heq => ?_⟩
    · cases heq
      exact h.agree hmoves.agree (hfiles _ hmoves.agree)
        (fun _ _ => (pageTemporary_ne_metadata _ _ _).symm)
        (pages_ne_instrument _ _ _).symm
    · cases heq
  · -- the object is in place, but not its metadata
    have hnone := getElem?_of_absent habsent
    rw [hrun]
    refine ⟨h.throughout_pageObject hnone, fun e disk heq => ?_, fun _ _ _ heq => ?_⟩
    · cases heq
      exact h.pageObject hnone
    · cases heq
  · have hnone := getElem?_of_absent habsent
    have hmetadata := h.pageMetadata hnone hlawful haccepted
    rw [hrun]
    refine ⟨(h.throughout_pageObject hnone).atomicStates
        (fun _ => (h.pageObject hnone).files.temporary (extension_metadataTemporary page.ordinal))
        hmetadata.files,
      fun e disk heq => ?_, fun staging' staged disk heq => ?_⟩
    · cases heq
    · cases heq
      exact hmetadata.held_snoc (atomicStates_getElem? _ _ _ _)

/-- The instrument's files but for its metadata. -/
def InstrumentArea (attempt path : FilePath) : Prop :=
  ∃ name, path = attempt ++ [instrumentName, name] ∧ path ≠ attempt ++ dailyMetadataPath

/-- Until its metadata is written, an instrument that is staged leaves the old metadata as it was.
-/
theorem AttemptFiles.instrument_change {attempt : FilePath}
    (h : AttemptFiles env attempt daily contents)
    (hagree : Agree (InstrumentArea attempt) contents contents') :
    AttemptFiles env attempt (daily && instrumentKept attempt contents contents') contents' := by
  constructor
  · refine h.pages.agree hagree (fun name _ => ?_) fun ordinal _ _ => ?_
    · rintro ⟨other, heq, -⟩
      rw [List.append_assoc] at heq
      exact pages_ne_instrument _ _ _ heq
    · rintro ⟨other, heq, -⟩
      rw [List.append_assoc] at heq
      exact pages_ne_instrument _ _ _ heq
  · intro bytes hbytes
    rw [hagree _ fun ⟨_, _, hne⟩ => hne rfl] at hbytes
    obtain ⟨metadata, hvec, hdescribed⟩ := h.instrument bytes hbytes
    refine ⟨metadata, hvec, fun hkept => ?_⟩
    rw [Bool.and_eq_true, instrumentKept, decide_eq_true_eq] at hkept
    obtain ⟨hdaily, hnone | hsame⟩ := hkept
    · rw [hnone] at hbytes
      cases hbytes
    · have hold := hdescribed hdaily
      refine ⟨hold.kind, hold.path, ?_⟩
      rw [hsame]
      exact hold.stored

theorem instrumentArea_of_name (attempt : FilePath) {name : List UInt8}
    (hne : [instrumentName, name] ≠ dailyMetadataPath) :
    InstrumentArea attempt (attempt ++ [instrumentName, name]) :=
  ⟨name, rfl, fun heq => hne (List.append_cancel_left heq)⟩

theorem StagingSound.instrument_change (h : StagingSound env staging daily contents)
    (hagree : Agree (InstrumentArea staging.attemptPath) contents contents') :
    StagingSound env staging (daily && instrumentKept staging.attemptPath contents contents')
      contents' where
  apart := h.apart
  files := h.files.instrument_change hagree
  held metadata hmetadata := by
    rw [hagree _ fun ⟨_, heq, _⟩ => pages_ne_instrument _ _ _ heq]
    exact h.held metadata hmetadata
  heldInstrument metadata hmetadata := by
    rw [hagree _ fun ⟨_, _, hne⟩ => hne rfl]
    exact h.heldInstrument metadata hmetadata

/-- So does every state on the way. -/
theorem StagingSound.throughout_instrument (h : StagingSound env staging daily contents)
    {disk : Disk}
    (hmoves : Changes (InstrumentArea staging.attemptPath) ⟨contents, []⟩ disk) :
    Throughout (fun other => AttemptFiles env staging.attemptPath
      (daily && instrumentKept staging.attemptPath contents other) other) disk := by
  obtain ⟨later, hlater, hagree⟩ := hmoves.passed
  refine ⟨(h.instrument_change hmoves.agree).files, fun other hother => ?_⟩
  rw [hlater] at hother
  exact (h.instrument_change (hagree other hother)).files

section Daily
variable (attempt : FilePath) (queryIdentity : Digest) (body : List UInt8) (disk : Disk)

theorem dailyObject_changes :
    Changes (InstrumentArea attempt) disk (dailyObjectStates env body attempt disk) := by
  refine (atomicStates_changes _ _ _ _).mono fun path hpath => ?_
  rcases hpath with rfl | rfl
  · exact instrumentArea_of_name _ (by decide)
  · exact instrumentArea_of_name _ (by decide)

/-- The new metadata describes the object, whatever the old one did. -/
theorem dailyMetadata_described (hlawful : env.Lawful) {value : Json}
    (hvalue : env.fromSlice body = .ok value) :
    DailyDescribed env (dailyMetadataStates env queryIdentity body attempt
      (dailyObjectStates env body attempt disk)).contents attempt
      (dailyMetadata env queryIdentity body) := by
  refine ⟨rfl, rfl, env.compress body, ?_, ⟨rfl, rfl⟩, body, hlawful.zstd body, ⟨rfl, rfl⟩,
    value, hvalue, rfl⟩
  have hobject : ¬ (attempt ++ [instrumentName, dailyObjectName] =
      attempt ++ dailyMetadataTemporaryPath ∨
        attempt ++ [instrumentName, dailyObjectName] = attempt ++ dailyMetadataPath) := by
    rw [not_or]
    exact ⟨fun heq => absurd (List.append_cancel_left heq) (by decide),
      fun heq => absurd (List.append_cancel_left heq) (by decide)⟩
  rw [dailyMetadataStates, atomicStates_agree _ _ _ _ _ hobject]
  exact atomicStates_getElem? _ _ _ _

variable {attempt queryIdentity body disk}

theorem AttemptFiles.dailyMetadata (h : AttemptFiles env attempt daily disk.contents)
    (hdescribed : DailyDescribed env
      (dailyMetadataStates env queryIdentity body attempt disk).contents attempt
      (dailyMetadata env queryIdentity body)) (whole : Bool) :
    AttemptFiles env attempt whole
      (dailyMetadataStates env queryIdentity body attempt disk).contents := by
  have hpages : ∀ name, ¬ (attempt ++ pagesPath ++ [name] = attempt ++ dailyMetadataTemporaryPath ∨
      attempt ++ pagesPath ++ [name] = attempt ++ dailyMetadataPath) := by
    intro name
    rw [List.append_assoc, not_or]
    exact ⟨pages_ne_instrument _ _ _, pages_ne_instrument _ _ _⟩
  refine ⟨h.pages.agree (atomicStates_agree _ _ _ _) (fun name _ => hpages name)
    (fun _ _ _ => hpages _), fun bytes hbytes => ?_⟩
  rw [dailyMetadataStates, atomicStates_getElem?, Option.some.injEq] at hbytes
  exact ⟨_, hbytes.symm, fun _ => hdescribed⟩

end Daily

/-- The instrument is staged apart from the pages. -/
theorem StagingSound.stageDailyInstrument (hlawful : env.Lawful)
    (h : StagingSound env staging daily contents) (queryIdentity : Digest) (body : List UInt8) :
    Throughout (fun other => AttemptFiles env staging.attemptPath
        (daily && instrumentKept staging.attemptPath contents other) other)
      (stateAfter (staging.stageDailyInstrument env queryIdentity body ⟨contents, []⟩)) ∧
    (∀ e disk, staging.stageDailyInstrument env queryIdentity body ⟨contents, []⟩ = .error e disk →
      StagingSound env staging (daily && instrumentKept staging.attemptPath contents disk.contents)
        disk.contents) ∧
    ∀ staging' metadata disk, staging.stageDailyInstrument env queryIdentity body ⟨contents, []⟩ =
      .ok (staging', metadata) disk →
      StagingSound env staging' true disk.contents := by
  have hobject : Changes (InstrumentArea staging.attemptPath) ⟨contents, []⟩
      (dailyObjectStates env body staging.attemptPath ⟨contents, []⟩) :=
    dailyObject_changes _ _ _
  rcases stageDailyInstrument_cases hlawful.zstd staging queryIdentity body ⟨contents, []⟩ with
    ⟨e, disk', hrun, hmoves⟩ | ⟨value, hvalue, ⟨e, hrun⟩ | hrun⟩
  · -- the object could not be written
    have hmoves' : Changes (InstrumentArea staging.attemptPath) ⟨contents, []⟩ disk' :=
      hmoves.mono fun path hpath => hpath ▸ instrumentArea_of_name _ (by decide)
    rw [hrun]
    refine ⟨h.throughout_instrument hmoves', fun e disk heq => ?_, fun _ _ _ heq => ?_⟩
    · cases heq
      exact h.instrument_change hmoves'.agree
    · cases heq
  · -- the object is in place, but not its metadata
    rw [hrun]
    refine ⟨h.throughout_instrument hobject, fun e disk heq => ?_, fun _ _ _ heq => ?_⟩
    · cases heq
      exact h.instrument_change hobject.agree
    · cases heq
  · have hkept := h.instrument_change hobject.agree
    have hfiles := hkept.files.dailyMetadata
      (dailyMetadata_described _ queryIdentity body _ hlawful hvalue)
    rw [hrun]
    refine ⟨(h.throughout_instrument hobject).atomicStates (fun other hagree => ?_) (hfiles _),
      fun e disk heq => ?_, fun staging' metadata disk heq => ?_⟩
    · have hname := hagree.mono fun path hpath =>
        hpath ▸ instrumentArea_of_name staging.attemptPath (by decide)
      exact (h.instrument_change (hobject.agree.trans hname)).files
    · cases heq
    · cases heq
      refine ⟨h.apart, hfiles true, fun metadata hmetadata => ?_, fun metadata hmetadata => ?_⟩
      · have hpage : ¬ (staging.attemptPath ++ pageMetadataPath metadata.ordinal =
            staging.attemptPath ++ dailyMetadataTemporaryPath ∨
              staging.attemptPath ++ pageMetadataPath metadata.ordinal =
                staging.attemptPath ++ dailyMetadataPath) := by
          rw [not_or]
          exact ⟨pages_ne_instrument _ _ _, pages_ne_instrument _ _ _⟩
        rw [dailyMetadataStates, atomicStates_agree _ _ _ _ _ hpage]
        exact hkept.held metadata hmetadata
      · rw [← Option.some.inj hmetadata]
        exact atomicStates_getElem? _ _ _ _

section Publishing
variable {attempt : FilePath}

theorem removeIfPresent_keeps {path : FilePath} (harea : SealArea attempt path) :
    Keeps (AttemptFiles env attempt daily) (StagingRevision.removeIfPresent path) := by
  refine Keeps.bind (.of_still Confined.get) fun disk => ?_
  by_cases hpresent : present disk.contents path = true
  · rw [if_pos hpresent]
    refine Keeps.raise (Keeps.removeFile fun contents hfiles => hfiles.erase ?_ ?_) _
    · exact fun ordinal heq => sealArea_pageObject _ _ (heq ▸ harea)
    · exact fun heq => sealArea_dailyObject _ (heq ▸ harea)
  · rw [if_neg hpresent]
    exact .of_still (Confined.pure ())

/-- What is written is deep in the attempt in neither its place nor its temporary one. -/
theorem writeAtomicFile_keeps {path : FilePath}
    (hpath : ∀ a b rest, attempt ++ a :: b :: rest ≠ path)
    (htemporary : ∀ a b rest, attempt ++ a :: b :: rest ≠ withExtension path temporaryExtension)
    (bytes : List UInt8) :
    Keeps (AttemptFiles env attempt daily) (writeAtomicFile path bytes) := by
  have hconfined :
      Confined (fun other => other = withExtension path temporaryExtension ∨ other = path)
      (writeAtomic (withExtension path temporaryExtension) path bytes) :=
    Confined.writeAtomic (Or.inl rfl) (Or.inr rfl) bytes
  refine Keeps.raise (Keeps.of_confined hconfined fun before after hfiles hagree => ?_) _
  refine hfiles.agree hagree (fun name => ?_) fun name => ?_
  · rw [List.append_assoc, not_or]
    exact ⟨htemporary _ _ _, hpath _ _ _⟩
  · rw [not_or]
    exact ⟨htemporary _ _ _, hpath _ _ _⟩

end Publishing

/-- A publication removes metadata files, and then moves the whole attempt away. -/
theorem StagingSound.publish (h : StagingSound env staging daily contents) (queryIdentity : Digest)
    (terminal : Bool) :
    Throughout (AttemptFiles env staging.attemptPath daily)
      (stateAfter (staging.publish env queryIdentity terminal ⟨contents, []⟩)) := by
  have hstart : Throughout (AttemptFiles env staging.attemptPath daily) ⟨contents, []⟩ :=
    ⟨h.files, by simp⟩
  have hdeep : ∀ a b rest name, staging.attemptPath ++ a :: b :: rest ≠
      staging.attemptPath ++ [name] := by simp
  refine Keeps.bind (.of_still (Confined.lift _)) (fun instrument => ?_) _ hstart
  refine Keeps.bind (.of_still (Confined.lift _)) fun manifest => ?_
  refine Keeps.bind (Keeps.each fun path hpath => removeIfPresent_keeps ?_) fun _ => ?_
  · simp only [List.mem_cons, List.not_mem_nil, or_false] at hpath
    rcases hpath with rfl | rfl
    · exact Or.inl rfl
    · exact Or.inr (Or.inl rfl)
  refine Keeps.bind (Keeps.each fun page _ => removeIfPresent_keeps ?_) fun _ => ?_
  · exact Or.inr (Or.inr (Or.inl ⟨page.ordinal, rfl⟩))
  refine Keeps.bind (writeAtomicFile_keeps (fun a b rest => hdeep a b rest _) ?_ _) fun _ => ?_
  · rw [withExtension_manifest]
    exact fun a b rest => hdeep a b rest _
  refine Keeps.bind (.of_still ((Confined.syncDirectory _).raise _)) fun _ => ?_
  refine Keeps.bind (.of_still Confined.get) fun disk => ?_
  refine Keeps.bind (.of_still (Confined.lift _)) fun _ => ?_
  have hpublished : ∀ rest rest', staging.attemptPath ++ rest ≠
      staging.publishRoot ++ [revisionsName] ++ [manifest.revisionIdentity.bytes] ++ rest' := by
    intro rest rest'
    rw [List.append_assoc, List.append_assoc]
    exact h.apart _ _ _ (by decide)
  refine Keeps.bind ((Keeps.renameDirectory fun contents _ => .of_empty
    (getElem?_renamed_source hpublished contents)).raise _) fun _ => ?_
  refine Keeps.bind (.of_still ((Confined.syncDirectory _).raise _)) fun _ => ?_
  refine Keeps.bind
    (writeAtomicFile_keeps (fun a b rest => h.apart _ _ _ (by decide)) ?_ _) fun _ => ?_
  · rw [withExtension_current]
    exact fun a b rest => h.apart _ _ _ (by decide)
  exact .of_still (Confined.pure _)

end Steps

theorem readAllMetadata_ok {paths : List FilePath} {disk disk' : Disk} {l : List PageMetadata}
    (h : StagingRevision.readAllMetadata env paths disk = .ok l disk') :
    disk' = disk ∧ ∀ metadata ∈ l, ∃ path ∈ paths,
      ∃ bytes, disk.contents[path]? = some bytes ∧ env.metadataFromSlice bytes = .ok metadata := by
  induction paths generalizing l disk' with
  | nil =>
    obtain ⟨rfl, rfl⟩ := (pure_ok _ _ _ _).1 h
    exact ⟨rfl, by simp⟩
  | cons path paths ih =>
    rw [StagingRevision.readAllMetadata] at h
    rcases readMetadata_cases env path disk with
      ⟨e, hread⟩ | ⟨bytes, metadata, hbytes, hmetadata, hread⟩
    · rw [bind_of_error hread] at h
      cases h
    · rw [bind_of_ok hread] at h
      obtain ⟨rest, disk₁, hrest, h⟩ := (bind_ok _ _ _ _ _).1 h
      obtain ⟨rfl, rfl⟩ := (pure_ok _ _ _ _).1 h
      obtain ⟨rfl, hall⟩ := ih hrest
      refine ⟨rfl, fun found hfound => ?_⟩
      rcases List.mem_cons.1 hfound with rfl | hfound
      · exact ⟨path, List.mem_cons_self, bytes, hbytes, hmetadata⟩
      · obtain ⟨other, hother, hsaid⟩ := hall found hfound
        exact ⟨other, List.mem_cons_of_mem path hother, hsaid⟩

theorem readDailyMetadata_ok {attempt : FilePath} {disk disk' : Disk} {metadata : PageMetadata}
    (h : StagingRevision.readDailyMetadata env attempt disk = .ok (some metadata) disk') :
    ∃ bytes, disk.contents[attempt ++ dailyMetadataPath]? = some bytes ∧
    env.metadataFromSlice bytes = .ok metadata := by
  rw [StagingRevision.readDailyMetadata, get_bind] at h
  by_cases hpresent : present disk.contents (attempt ++ dailyMetadataPath) = true
  · rw [if_pos hpresent] at h
    obtain ⟨found, hread, hfound⟩ := (map_ok _ _ _ _ _).1 h
    obtain rfl := Option.some.inj hfound
    rcases readMetadata_cases env (attempt ++ dailyMetadataPath) disk with
      ⟨e, hrun⟩ | ⟨bytes, metadata, hbytes, hmetadata, hrun⟩
    · rw [hrun] at hread
      cases hread
    · rw [hrun] at hread
      cases hread
      exact ⟨bytes, hbytes, hmetadata⟩
  · rw [if_neg hpresent] at h
    cases h

/-- What is taken up again is what the metadata files say. -/
theorem StagingSound.resumeAt (hlawful : env.Lawful) {staging resumed : StagingRevision}
    {daily : Bool} {contents : Contents}
    {committedPages : U32} {disk : Disk} (h : StagingSound env staging daily contents)
    (hresume : StagingRevision.resumeAt env staging.publishRoot staging.attemptPath committedPages
      ⟨contents, []⟩ =
      .ok resumed disk) : StagingSound env resumed daily contents := by
  rw [StagingRevision.resumeAt, get_bind] at hresume
  obtain ⟨pages, disk₁, hpages, hresume⟩ := (bind_ok _ _ _ _ _).1 hresume
  obtain ⟨rfl, hread⟩ := readAllMetadata_ok hpages
  obtain ⟨_, disk₂, hcount, hresume⟩ := (bind_ok _ _ _ _ _).1 hresume
  obtain ⟨-, rfl⟩ := (lift_ok _ _ _ _).1 hcount
  obtain ⟨dailyInstrument, disk₃, hinstrument, hresume⟩ := (bind_ok _ _ _ _ _).1 hresume
  obtain ⟨rfl, -⟩ := (pure_ok _ _ _ _).1 hresume
  refine ⟨h.apart, h.files, fun metadata hmetadata => ?_, fun metadata hmetadata => ?_⟩
  · obtain ⟨path, hpath, bytes, hbytes, hread⟩ := hread metadata (List.mem_of_mem_take hmetadata)
    rw [List.mem_filter, decide_eq_true_eq, mem_listing] at hpath
    obtain ⟨⟨name, _, rfl, -⟩, hname⟩ := hpath
    rw [List.getLast?_concat, Option.bind_some] at hname
    obtain ⟨found, rfl, rfl, -⟩ := h.files.pages name bytes hname hbytes
    rw [hlawful.metadata, Except.ok.injEq] at hread
    rw [← hread, pageMetadataPath, ← List.append_assoc]
    exact hbytes
  · obtain rfl : dailyInstrument = some metadata := hmetadata
    obtain ⟨bytes, hbytes, hread⟩ := readDailyMetadata_ok hinstrument
    obtain ⟨found, rfl, -⟩ := h.files.instrument bytes hbytes
    rw [hlawful.metadata, Except.ok.injEq] at hread
    rw [← hread]
    exact hbytes

section Created
variable {staging : StagingRevision} {dataRoot : FilePath} {attemptId : Text}

theorem created_holds
    (h : StagingRevision.create dataRoot attemptId = .ok staging ∨
      StagingRevision.createAt dataRoot attemptId = .ok staging) :
    staging.pages = [] ∧ staging.dailyInstrument = none := by
  simp only [StagingRevision.create, StagingRevision.createAt, bind_eq_ok, pure_eq_ok] at h
  rcases h with ⟨_, -, rfl⟩ | ⟨_, -, rfl⟩
  · exact ⟨rfl, rfl⟩
  · exact ⟨rfl, rfl⟩

theorem created_apart
    (h : StagingRevision.create dataRoot attemptId = .ok staging ∨
      StagingRevision.createAt dataRoot attemptId = .ok staging) :
    Apart staging := by
  simp only [StagingRevision.create, StagingRevision.createAt, bind_eq_ok, pure_eq_ok] at h
  intro name rest rest' hname heq
  rcases h with ⟨_, -, rfl⟩ | ⟨_, -, rfl⟩
  · simp only [List.append_assoc, List.append_cancel_left_eq, List.cons_append, List.cons.injEq]
      at heq
    exact absurd heq.1 (by decide)
  · simp only [List.append_assoc, List.append_cancel_left_eq, List.cons_append, List.cons.injEq]
      at heq
    exact hname heq.1.symm

end Created

theorem Prepared.sound (hlawful : env.Lawful) {staging : StagingRevision} {daily : Bool}
    {contents : Contents}
    (h : Prepared env staging daily contents) : StagingSound env staging daily contents := by
  induction h with
  | create hcreate hempty =>
    obtain ⟨hpages, hinstrument⟩ := created_holds hcreate
    refine ⟨created_apart hcreate, .of_empty fun rest =>
      ?_, by simp [hpages], by simp [hinstrument]⟩
    by_contra hsome
    obtain ⟨bytes, hbytes⟩ := Option.ne_none_iff_exists'.1 hsome
    rw [present_of_getElem? hbytes (List.prefix_append _ _)] at hempty
    cases hempty
  | elsewhere h hagree ih =>
    refine ih.agree hagree
      (ih.files.agree hagree (fun name hbelow => ?_) fun name hbelow => ?_) ?_ ?_
    · exact hbelow (by rw [List.append_assoc]; exact List.prefix_append _ _)
    · exact hbelow (List.prefix_append _ _)
    · exact fun _ _ hbelow => hbelow (List.prefix_append _ _)
    · exact fun hbelow => hbelow (List.prefix_append _ _)
  | page h haccepted hstage ih => exact (ih.stagePage hlawful haccepted).2.2 _ _ _ hstage
  | pageFailed h haccepted hstage ih => exact (ih.stagePage hlawful haccepted).2.1 _ _ hstage
  | pageCut h haccepted hcut ih =>
    exact ih.restarted ((ih.stagePage hlawful haccepted).1.before _ hcut)
  | daily h hstage ih => exact (ih.stageDailyInstrument hlawful _ _).2.2 _ _ _ hstage
  | dailyFailed h hstage ih => exact (ih.stageDailyInstrument hlawful _ _).2.1 _ _ hstage
  | dailyCut h hcut ih => exact ih.restarted ((ih.stageDailyInstrument hlawful _ _).1.before _ hcut)
  | @publishFailed staging daily terminal contents queryIdentity e disk h hpublish ih =>
    have hkept := ih.publish queryIdentity terminal
    rw [hpublish] at hkept
    exact ih.restarted hkept.now
  | publishCut h hcut ih => exact ih.restarted ((ih.publish _ _).before _ hcut)
  | restart h ih => exact ih.restarted ih.files
  | resume h hresume ih => exact ih.resumeAt hlawful hresume

end Histories

end Osmium
