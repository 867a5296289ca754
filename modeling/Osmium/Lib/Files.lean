import Osmium.Lib.OrderedMap
import Osmium.Lib.Stateful

/-! A file system as a map from paths to contents. An operation changes it in one step, and the
states after each step are kept: a crash leaves one of them. Directories are there as long as they
hold a file. -/

namespace Files
open Result Stateful

/-- The components of a path, from the root. -/
abbrev FilePath := List (List UInt8)

instance transOrd : Std.TransOrd FilePath := inferInstance

abbrev Contents := Std.ExtTreeMap FilePath (List UInt8)

structure Disk where
  contents : Contents
  visited : List Contents

inductive IoError | notFound | alreadyExists | invalidData | isDirectory
deriving DecidableEq

section Names

/-- The name up to its last dot, if there is something before it. -/
def fileStem (name : List UInt8) : List UInt8 :=
  let stem := (name.reverse.dropWhile (· ≠ 46)).tail.reverse
  if stem = [] then name else stem

def extension (name : List UInt8) : Option (List UInt8) :=
  let stem := (name.reverse.dropWhile (· ≠ 46)).tail.reverse
  if stem = [] then none else some (name.drop (stem.length + 1))

/-- Puts another extension in the place of the last one. -/
def withExtension (path : FilePath) (ext : List UInt8) : FilePath :=
  match path.getLast? with
  | none => path
  | some name => path.dropLast ++ [fileStem name ++ [46] ++ ext]

theorem reverse_dropWhile_dot {stem ext : List UInt8} (h : (46 : UInt8) ∉ ext) :
    ((stem ++ 46 :: ext).reverse.dropWhile (· ≠ 46)).tail.reverse = stem := by
  rw [List.reverse_append, List.reverse_cons, List.append_assoc,
    List.dropWhile_append_of_pos (by simpa using fun byte hb (heq : byte = 46) => h (heq ▸ hb))]
  simp

theorem fileStem_append {stem ext : List UInt8} (h : (46 : UInt8) ∉ ext) (hne : stem ≠ []) :
    fileStem (stem ++ 46 :: ext) = stem := by
  rw [fileStem, reverse_dropWhile_dot h]
  exact if_neg hne

theorem extension_append {stem ext : List UInt8} (h : (46 : UInt8) ∉ ext) (hne : stem ≠ []) :
    extension (stem ++ 46 :: ext) = some ext := by
  rw [extension, reverse_dropWhile_dot h]
  simp [hne]

theorem withExtension_append {directory : FilePath} {stem old ext : List UInt8}
    (h : (46 : UInt8) ∉ old) (hne : stem ≠ []) :
    withExtension (directory ++ [stem ++ 46 :: old]) ext = directory ++ [stem ++ 46 :: ext] := by
  simp [withExtension, fileStem_append h hne]

end Names

section Contents

/-- A path of a file or of a directory with files in it. -/
def present (contents : Contents) (path : FilePath) : Bool :=
  contents.keys.any fun key => path <+: key

theorem present_iff {contents : Contents} {path : FilePath} :
    present contents path = true ↔ ∃ rest bytes, contents[path ++ rest]? = some bytes := by
  simp only [present, List.any_eq_true, decide_eq_true_eq, Std.ExtTreeMap.mem_keys]
  constructor
  · rintro ⟨key, hkey, rest, rfl⟩
    exact ⟨rest, _, Std.ExtTreeMap.getElem?_eq_some_getElem hkey⟩
  · rintro ⟨rest, bytes, h⟩
    exact ⟨_, Std.ExtTreeMap.mem_iff_isSome_getElem?.2 (by rw [h]; rfl), List.prefix_append _ _⟩

/-- The files directly in a directory, in the order of their names. -/
def listing (contents : Contents) (directory : FilePath) : List FilePath :=
  contents.keys.filter fun key => directory <+: key ∧ key.length = directory.length + 1

theorem mem_listing {contents : Contents} {directory path : FilePath} :
    path ∈ listing contents directory ↔
    ∃ name bytes, path = directory ++ [name] ∧ contents[path]? = some bytes := by
  simp only [listing, List.mem_filter, decide_eq_true_eq, Std.ExtTreeMap.mem_keys]
  constructor
  · rintro ⟨hkey, ⟨rest, rfl⟩, hlength⟩
    rw [List.length_append, Nat.add_left_cancel_iff, List.length_eq_one_iff] at hlength
    obtain ⟨name, rfl⟩ := hlength
    exact ⟨name, _, rfl, Std.ExtTreeMap.getElem?_eq_some_getElem hkey⟩
  · rintro ⟨name, bytes, rfl, hbytes⟩
    refine ⟨Std.ExtTreeMap.mem_iff_isSome_getElem?.2 (by rw [hbytes]; rfl),
      List.prefix_append _ _, ?_⟩
    rw [List.length_append, List.length_singleton]

def moved (source target : FilePath) (contents : Contents) : List (FilePath × List UInt8) :=
  (contents.toList.filter fun entry => source <+: entry.1 ∨ ¬ target <+: entry.1).map fun entry =>
    if source <+: entry.1 then (target ++ entry.1.drop source.length, entry.2) else entry

/-- A directory under a new name, with whatever was under that name gone. -/
def renamed (source target : FilePath) (contents : Contents) : Contents :=
  .ofList (moved source target contents)

theorem getElem?_ofList {α β : Type} [DecidableEq α] [Ord α] [Std.TransOrd α] [Std.LawfulEqOrd α]
    {l : List (α × β)}
    (h : (l.map Prod.fst).Nodup) {k : α} {v : β} : (Std.ExtTreeMap.ofList l)[k]? = some v ↔
    (k, v) ∈ l := by
  have hdistinct : l.Pairwise fun a b => ¬ compare a.1 b.1 = .eq := by
    refine (List.pairwise_map.1 h).imp fun hne heq => hne (Std.LawfulEqOrd.eq_of_compare heq)
  have hmem : ∀ w, (k, w) ∈ l → (Std.ExtTreeMap.ofList l)[k]? = some w :=
    fun w => Std.ExtTreeMap.getElem?_ofList_of_mem Std.ReflCmp.compare_self hdistinct
  refine ⟨fun hsome => ?_, hmem v⟩
  have hkey : k ∈ Std.ExtTreeMap.ofList l :=
    Std.ExtTreeMap.mem_iff_isSome_getElem?.2 (by rw [hsome]; rfl)
  rw [Std.ExtTreeMap.mem_ofList, List.contains_iff_mem, List.mem_map] at hkey
  obtain ⟨⟨k', w⟩, hentry, rfl⟩ := hkey
  rw [hmem w hentry, Option.some.injEq] at hsome
  rwa [← hsome]

theorem mem_moved {source target path : FilePath} {contents : Contents} {bytes : List UInt8} :
    (path, bytes) ∈ moved source target contents ↔
    (∃ rest, path = target ++ rest ∧ contents[source ++ rest]? = some bytes) ∨
      (¬ source <+: path ∧ ¬ target <+: path ∧ contents[path]? = some bytes) := by
  simp only [moved, List.mem_map, List.mem_filter, decide_eq_true_eq,
    Std.ExtTreeMap.mem_toList_iff_getElem?_eq_some, Prod.exists]
  constructor
  · rintro ⟨key, value, ⟨hentry, hkept⟩, heq⟩
    by_cases hsource : source <+: key
    · rw [if_pos hsource] at heq
      obtain ⟨rest, rfl⟩ := hsource
      rw [List.drop_left, Prod.mk.injEq] at heq
      exact Or.inl ⟨rest, heq.1.symm, heq.2 ▸ hentry⟩
    · rw [if_neg hsource, Prod.mk.injEq] at heq
      obtain ⟨rfl, rfl⟩ := heq
      exact Or.inr ⟨hsource, hkept.resolve_left hsource, hentry⟩
  · rintro (⟨rest, rfl, hentry⟩ | ⟨hsource, htarget, hentry⟩)
    · refine ⟨source ++ rest, bytes, ⟨hentry, Or.inl (List.prefix_append _ _)⟩, ?_⟩
      rw [if_pos (List.prefix_append _ _), List.drop_left]
    · exact ⟨path, bytes, ⟨hentry, Or.inr htarget⟩, if_neg hsource⟩

theorem nodup_moved (source target : FilePath) (contents : Contents) :
    ((moved source target contents).map Prod.fst).Nodup := by
  have hkeys : contents.toList.Pairwise fun a b => a.1 ≠ b.1 :=
    Std.ExtTreeMap.distinct_keys_toList.imp fun hne (heq : _ = _) =>
      hne (by rw [heq]; exact Std.ReflCmp.compare_self)
  rw [moved, List.map_map, List.nodup_iff_pairwise_ne, List.pairwise_map]
  refine (hkeys.filter _).imp_of_mem ?_
  rintro ⟨a, bytes⟩ ⟨b, bytes'⟩ ha hb hne
  simp only [List.mem_filter, decide_eq_true_eq] at ha hb
  simp only [Function.comp_apply]
  by_cases hsa : source <+: a <;> by_cases hsb : source <+: b
  · obtain ⟨rest, rfl⟩ := hsa
    obtain ⟨rest', rfl⟩ := hsb
    simpa using hne
  -- a file that stays is not under the new name
  · rw [if_pos hsa, if_neg hsb]
    intro (heq : target ++ a.drop source.length = b)
    exact hb.2.resolve_left hsb (heq ▸ List.prefix_append _ _)
  · rw [if_neg hsa, if_pos hsb]
    intro (heq : a = target ++ b.drop source.length)
    exact ha.2.resolve_left hsa (heq ▸ List.prefix_append _ _)
  · rwa [if_neg hsa, if_neg hsb]

/-- What is where after a directory was moved. -/
theorem getElem?_renamed {source target path : FilePath} {contents : Contents}
    {bytes : List UInt8} :
    (renamed source target contents)[path]? = some bytes ↔
      (∃ rest, path = target ++ rest ∧ contents[source ++ rest]? = some bytes) ∨
      (¬ source <+: path ∧ ¬ target <+: path ∧ contents[path]? = some bytes) := by
  rw [renamed, getElem?_ofList (nodup_moved source target contents), mem_moved]

theorem getElem?_renamed_target (source target rest : FilePath) (contents : Contents) :
    (renamed source target contents)[target ++ rest]? = contents[source ++ rest]? := by
  apply Option.ext
  intro bytes
  rw [getElem?_renamed]
  constructor
  · rintro (⟨other, heq, h⟩ | ⟨-, hbelow, -⟩)
    · rwa [List.append_cancel_left heq]
    · exact absurd (List.prefix_append _ _) hbelow
  · exact fun h => Or.inl ⟨rest, rfl, h⟩

/-- Nothing is left under the old name. -/
theorem getElem?_renamed_source {source target : FilePath}
    (h : ∀ rest rest', source ++ rest ≠ target ++ rest') (contents : Contents) (rest : FilePath) :
    (renamed source target contents)[source ++ rest]? = none := by
  by_contra hsome
  obtain ⟨bytes, hbytes⟩ := Option.ne_none_iff_exists'.1 hsome
  rcases getElem?_renamed.1 hbytes with ⟨rest', heq, -⟩ | ⟨hbelow, -⟩
  · exact h rest rest' heq
  · exact hbelow (List.prefix_append _ _)

end Contents

section Operations

/-- One change of the files. -/
def Disk.put (disk : Disk) (contents : Contents) : Disk := ⟨contents, disk.visited ++ [contents]⟩

def step (contents : Contents) : EStateM IoError Disk Unit := modify fun disk => disk.put contents

def read (path : FilePath) : EStateM IoError Disk (List UInt8) := do
  let disk ← get
  lift (okOr .notFound disk.contents[path]?)

/-- Opens a file that must not be there yet. -/
def createNew (path : FilePath) : EStateM IoError Disk Unit := do
  let disk ← get
  lift (ensure (present disk.contents path = false) .alreadyExists)
  step (disk.contents.insert path [])

def writeAll (path : FilePath) (bytes : List UInt8) : EStateM IoError Disk Unit := do
  let disk ← get
  step (disk.contents.insert path bytes)

def removeFile (path : FilePath) : EStateM IoError Disk Unit := do
  let disk ← get
  lift (ensure (path ∈ disk.contents) .notFound)
  step (disk.contents.erase path)

def renameFile (source target : FilePath) : EStateM IoError Disk Unit := do
  let disk ← get
  let bytes ← lift (okOr .notFound disk.contents[source]?)
  step ((disk.contents.erase source).insert target bytes)

def renameDirectory (source target : FilePath) : EStateM IoError Disk Unit := do
  let disk ← get
  lift (ensure (present disk.contents source = true) .notFound)
  step (renamed source target disk.contents)

/-- Changes no file, but the directory has to be there. -/
def syncDirectory (path : FilePath) : EStateM IoError Disk Unit := do
  let disk ← get
  lift (ensure (present disk.contents path = true) .notFound)

/-- A file written under a temporary name, which must not be taken, and moved into its place. -/
def writeAtomic (temporary path : FilePath) (bytes : List UInt8) : EStateM IoError Disk Unit := do
  createNew temporary
  writeAll temporary bytes
  renameFile temporary path
  syncDirectory path.dropLast

theorem present_of_getElem? {contents : Contents} {path directory : FilePath} {bytes : List UInt8}
    (h : contents[path]? = some bytes) (hbelow : directory <+: path) :
    present contents directory = true := by
  obtain ⟨rest, rfl⟩ := hbelow
  exact present_iff.2 ⟨rest, bytes, h⟩

theorem getElem?_of_absent {contents : Contents} {path : FilePath}
    (h : present contents path = false) :
    contents[path]? = none := by
  by_contra hsome
  obtain ⟨bytes, hbytes⟩ := Option.ne_none_iff_exists'.1 hsome
  rw [present_of_getElem? hbytes (List.prefix_refl path)] at h
  cases h

theorem read_eq {path : FilePath} {disk : Disk} {bytes : List UInt8}
    (h : disk.contents[path]? = some bytes) :
    read path disk = .ok bytes disk := by
  rw [read, get_bind]
  exact (lift_ok _ _ _ _).2 ⟨by rw [h]; rfl, rfl⟩

theorem read_missing {path : FilePath} {disk : Disk} (h : disk.contents[path]? = none) :
    read path disk = .error .notFound disk := by
  rw [read, get_bind]
  exact (lift_error _ _ _ _).2 ⟨by rw [h]; rfl, rfl⟩

theorem createNew_eq {path : FilePath} {disk : Disk} (h : present disk.contents path = false) :
    createNew path disk = .ok () (disk.put (disk.contents.insert path [])) := by
  rw [createNew, get_bind, lift_bind (a := ()) (by simp [ensure, h])]
  rfl

theorem createNew_taken {path : FilePath} {disk : Disk} (h : present disk.contents path = true) :
    createNew path disk = .error .alreadyExists disk := by
  rw [createNew, get_bind, lift_bind_error (e := .alreadyExists) (by simp [ensure, h])]

theorem writeAll_eq (path : FilePath) (bytes : List UInt8) (disk : Disk) :
    writeAll path bytes disk = .ok () (disk.put (disk.contents.insert path bytes)) := rfl

theorem renameFile_eq {source : FilePath} {disk : Disk} {bytes : List UInt8}
    (h : disk.contents[source]? = some bytes) (target : FilePath) :
    renameFile source target disk =
      .ok () (disk.put ((disk.contents.erase source).insert target bytes)) := by
  rw [renameFile, get_bind, lift_bind (a := bytes) (by rw [h]; rfl)]
  rfl

theorem removeFile_eq {path : FilePath} {disk : Disk} (h : path ∈ disk.contents) :
    removeFile path disk = .ok () (disk.put (disk.contents.erase path)) := by
  rw [removeFile, get_bind, lift_bind (a := ()) (by simp [ensure, h])]
  rfl

theorem renameDirectory_eq {source : FilePath} {disk : Disk}
    (h : present disk.contents source = true) (target : FilePath) :
    renameDirectory source target disk =
      .ok () (disk.put (renamed source target disk.contents)) := by
  rw [renameDirectory, get_bind, lift_bind (a := ()) (by simp [ensure, h])]
  rfl

theorem syncDirectory_eq {path : FilePath} {disk : Disk} (h : present disk.contents path = true) :
    syncDirectory path disk = .ok () disk := by
  rw [syncDirectory, get_bind]
  exact (lift_ok _ _ _ _).2 ⟨by simp [ensure, h], rfl⟩

/-- The states an atomic write goes through. -/
def atomicStates (temporary path : FilePath) (bytes : List UInt8) (disk : Disk) : Disk :=
  let created := disk.put (disk.contents.insert temporary [])
  let written := created.put (created.contents.insert temporary bytes)
  written.put ((written.contents.erase temporary).insert path bytes)

theorem writeAtomic_eq {temporary : FilePath} {disk : Disk}
    (h : present disk.contents temporary = false) (path : FilePath)
    (bytes : List UInt8) : writeAtomic temporary path bytes disk =
      .ok () (atomicStates temporary path bytes disk) := by
  rw [writeAtomic, bind_of_ok (createNew_eq h), bind_of_ok (writeAll_eq temporary bytes _),
    bind_of_ok (renameFile_eq Std.ExtTreeMap.getElem?_insert_self path)]
  exact syncDirectory_eq
    (present_of_getElem? Std.ExtTreeMap.getElem?_insert_self (List.dropLast_prefix path))

theorem writeAtomic_taken {temporary : FilePath} {disk : Disk}
    (h : present disk.contents temporary = true) (path : FilePath)
    (bytes : List UInt8) : writeAtomic temporary path bytes disk = .error .alreadyExists disk := by
  rw [writeAtomic, bind_of_error (createNew_taken h)]

theorem writeAtomic_ok {temporary path : FilePath} {bytes : List UInt8} {disk disk' : Disk}
    (h : writeAtomic temporary path bytes disk = .ok () disk') :
    disk'.contents[path]? = some bytes := by
  by_cases hpresent : present disk.contents temporary = true
  · rw [writeAtomic_taken hpresent] at h
    cases h
  · rw [writeAtomic_eq (Bool.eq_false_iff.2 hpresent)] at h
    cases h
    exact Std.ExtTreeMap.getElem?_insert_self

end Operations

section Frames
variable {ε ε' α β : Type} {area : FilePath → Prop}

/-- Outside of an area the files are the same. -/
def Agree (area : FilePath → Prop) (before after : Contents) : Prop :=
  ∀ path, ¬ area path → after[path]? = before[path]?

theorem Agree.refl (contents : Contents) : Agree area contents contents := fun _ _ => rfl

theorem Agree.trans {a b c : Contents} (h : Agree area a b) (h' : Agree area b c) :
    Agree area a c :=
  fun path hpath => (h' path hpath).trans (h path hpath)

theorem Agree.mono {area' : FilePath → Prop} {a b : Contents} (h : Agree area a b)
    (himp : ∀ path, area path → area' path) :
    Agree area' a b := fun path hpath => h path fun harea => hpath (himp path harea)

theorem Agree.insert {contents : Contents} {path : FilePath} (h : area path) (bytes : List UInt8) :
    Agree area contents (contents.insert path bytes) := by
  intro other hother
  rw [Std.ExtTreeMap.getElem?_insert, if_neg]
  intro heq
  exact hother (Std.LawfulEqOrd.eq_of_compare heq ▸ h)

theorem Agree.erase {contents : Contents} {path : FilePath} (h : area path) :
    Agree area contents (contents.erase path) := by
  intro other hother
  rw [Std.ExtTreeMap.getElem?_erase, if_neg]
  intro heq
  exact hother (Std.LawfulEqOrd.eq_of_compare heq ▸ h)

theorem Agree.renamed {contents : Contents} {source target : FilePath}
    (hsource : ∀ path, source <+: path → area path)
    (htarget : ∀ path, target <+: path → area path) :
    Agree area contents (renamed source target contents) := by
  intro path hpath
  apply Option.ext
  intro bytes
  rw [getElem?_renamed]
  constructor
  · rintro (⟨rest, rfl, -⟩ | ⟨-, -, h⟩)
    · exact absurd (htarget _ (List.prefix_append _ _)) hpath
    · exact h
  · exact fun h => Or.inr
      ⟨fun hbelow => hpath (hsource path hbelow), fun hbelow => hpath (htarget path hbelow), h⟩

/-- A later state, reached through states that differ from the first in an area alone. -/
structure Changes (area : FilePath → Prop) (before after : Disk) : Prop where
  agree : Agree area before.contents after.contents
  passed : ∃ later, after.visited = before.visited ++ later ∧
      ∀ contents ∈ later, Agree area before.contents contents

theorem Changes.refl (disk : Disk) : Changes area disk disk := ⟨Agree.refl _, [], by simp⟩

theorem Changes.trans {a b c : Disk} (h : Changes area a b) (h' : Changes area b c) :
    Changes area a c := by
  obtain ⟨first, hfirst, hagree⟩ := h.passed
  obtain ⟨second, hsecond, hagree'⟩ := h'.passed
  refine ⟨h.agree.trans h'.agree, first ++ second, by rw [hsecond, hfirst, List.append_assoc], ?_⟩
  intro contents hmem
  rcases List.mem_append.1 hmem with hmem | hmem
  · exact hagree contents hmem
  · exact h.agree.trans (hagree' contents hmem)

theorem Changes.mono {area' : FilePath → Prop} {a b : Disk} (h : Changes area a b)
    (himp : ∀ path, area path → area' path) :
    Changes area' a b := by
  obtain ⟨later, hlater, hagree⟩ := h.passed
  exact ⟨h.agree.mono himp, later, hlater, fun contents hmem => (hagree contents hmem).mono himp⟩

theorem Changes.put {disk : Disk} {contents : Contents} (h : Agree area disk.contents contents) :
    Changes area disk (disk.put contents) := ⟨h, [contents], rfl, by simpa using h⟩

/-- A condition on the files that holds in every state so far. -/
structure Throughout (P : Contents → Prop) (disk : Disk) : Prop where
  now : P disk.contents
  before : ∀ contents ∈ disk.visited, P contents

theorem Throughout.put {P : Contents → Prop} {disk : Disk} (h : Throughout P disk)
    {contents : Contents} (hnow : P contents) :
    Throughout P (disk.put contents) := by
  refine ⟨hnow, fun other hother => ?_⟩
  rcases List.mem_append.1 hother with hother | hother
  · exact h.before other hother
  · rw [List.mem_singleton.1 hother]
    exact hnow

theorem Throughout.changes {P : Contents → Prop} {a b : Disk} (h : Throughout P a)
    (hmoves : Changes area a b)
    (hP : ∀ contents, Agree area a.contents contents → P contents) : Throughout P b := by
  obtain ⟨later, hlater, hagree⟩ := hmoves.passed
  refine ⟨hP _ hmoves.agree, fun contents hmem => ?_⟩
  rw [hlater] at hmem
  rcases List.mem_append.1 hmem with hmem | hmem
  · exact h.before contents hmem
  · exact hP contents (hagree contents hmem)

theorem atomicStates_changes (temporary path : FilePath) (bytes : List UInt8) (disk : Disk) :
    Changes (fun other => other = temporary ∨ other = path) disk
      (atomicStates temporary path bytes disk) :=
  ((Changes.put (Agree.insert (Or.inl (by rfl)) _)).trans
    (Changes.put (Agree.insert (Or.inl (by rfl)) _))).trans
    (Changes.put ((Agree.erase (Or.inl (by rfl))).trans (Agree.insert (Or.inr (by rfl)) _)))

theorem atomicStates_agree (temporary path : FilePath) (bytes : List UInt8) (disk : Disk) :
    Agree (fun other => other = temporary ∨ other = path) disk.contents
      (atomicStates temporary path bytes disk).contents :=
  (atomicStates_changes temporary path bytes disk).agree

theorem atomicStates_getElem? (temporary path : FilePath) (bytes : List UInt8) (disk : Disk) :
    (atomicStates temporary path bytes disk).contents[path]? = some bytes :=
  Std.ExtTreeMap.getElem?_insert_self

theorem mem_visited_atomicStates {temporary path : FilePath} {bytes : List UInt8} {disk : Disk}
    {contents : Contents} (h : contents ∈ (atomicStates temporary path bytes disk).visited) :
    contents ∈ disk.visited ∨ Agree (· = temporary) disk.contents contents ∨
      contents = (atomicStates temporary path bytes disk).contents := by
  have hcreated : Agree (· = temporary) disk.contents (disk.contents.insert temporary []) :=
    Agree.insert (by rfl) []
  have hwritten := hcreated.trans (Agree.insert (by rfl) bytes)
  simp only [atomicStates, Disk.put, List.mem_append, List.mem_singleton] at h
  rcases h with ((h | rfl) | rfl) | rfl
  · exact Or.inl h
  · exact Or.inr (Or.inl hcreated)
  · exact Or.inr (Or.inl hwritten)
  · exact Or.inr (Or.inr rfl)

/-- An atomic write leaves the files alone until it is done, but for the temporary one. -/
theorem Throughout.atomicStates {P : Contents → Prop} {disk : Disk} {temporary path : FilePath}
    {bytes : List UInt8} (h : Throughout P disk)
    (htemporary : ∀ contents, Agree (· = temporary) disk.contents contents → P contents)
    (hdone : P (atomicStates temporary path bytes disk).contents) :
    Throughout P (atomicStates temporary path bytes disk) := by
  have hcreated : Agree (· = temporary) disk.contents (disk.contents.insert temporary []) :=
    Agree.insert (by rfl) []
  have hwritten := hcreated.trans (Agree.insert (by rfl) bytes)
  exact ((h.put (htemporary _ hcreated)).put (htemporary _ hwritten)).put hdone

/-- An operation that changes nothing outside of an area, whether it returns or fails. -/
def Confined (area : FilePath → Prop) (op : EStateM ε Disk α) : Prop :=
  ∀ disk, Changes area disk (stateAfter (op disk))

theorem Confined.pure (a : α) : Confined area (Pure.pure a : EStateM ε Disk α) := Changes.refl

theorem Confined.lift (x : Except ε α) : Confined area (lift x) := by
  intro disk
  cases x with
  | ok a => exact Changes.refl disk
  | error e => exact Changes.refl disk

theorem Confined.bind {op : EStateM ε Disk α} {f : α → EStateM ε Disk β} (h : Confined area op)
    (hf : ∀ a, Confined area (f a)) :
    Confined area (op >>= f) := by
  intro disk
  have hop := h disk
  cases hrun : op disk with
  | ok a disk' =>
    rw [bind_of_ok hrun]
    rw [hrun] at hop
    exact hop.trans (hf a disk')
  | error e disk' =>
    rw [bind_of_error hrun]
    rw [hrun] at hop
    exact hop

theorem Confined.get : Confined area (MonadState.get : EStateM ε Disk Disk) := Changes.refl

/-- The failures may be renamed. -/
theorem Confined.raise {op : EStateM ε' Disk α} (h : Confined area op) (f : ε' → ε) :
    Confined area (zoom id (fun _ disk => disk) f op) := by
  intro disk
  have hop := h disk
  unfold zoom
  rw [id]
  cases hrun : op disk with
  | ok a disk' =>
    rw [hrun] at hop
    exact hop
  | error e disk' =>
    rw [hrun] at hop
    exact hop

theorem Confined.each {step : α → EStateM ε Disk Unit} {l : List α}
    (h : ∀ a ∈ l, Confined area (step a)) :
    Confined area (each step l) := by
  induction l with
  | nil => exact Confined.pure ()
  | cons a l ih =>
    exact (h a List.mem_cons_self).bind fun _ => ih fun b hb => h b (List.mem_cons_of_mem a hb)

theorem Confined.syncDirectory (path : FilePath) : Confined area (syncDirectory path) :=
  Confined.get.bind fun _ => Confined.lift _

theorem Confined.createNew {path : FilePath} (h : area path) : Confined area (createNew path) := by
  intro disk
  by_cases hpresent : present disk.contents path = true
  · rw [createNew_taken hpresent]
    exact Changes.refl disk
  · rw [createNew_eq (Bool.eq_false_iff.2 hpresent)]
    exact Changes.put (Agree.insert h _)

theorem Confined.writeAll {path : FilePath} (h : area path) (bytes : List UInt8) :
    Confined area (writeAll path bytes) :=
  fun _ => Changes.put (Agree.insert h _)

theorem Confined.removeFile {path : FilePath} (h : area path) :
    Confined area (removeFile path) := by
  intro disk
  by_cases hmem : path ∈ disk.contents
  · rw [removeFile_eq hmem]
    exact Changes.put (Agree.erase h)
  · rw [Files.removeFile, Stateful.get_bind,
      lift_bind_error (e := .notFound) (by simp [ensure, hmem])]
    exact Changes.refl disk

theorem Confined.renameFile {source target : FilePath} (h : area source) (h' : area target) :
    Confined area (renameFile source target) := by
  intro disk
  cases hsource : disk.contents[source]? with
  | some bytes =>
    rw [renameFile_eq hsource]
    exact Changes.put ((Agree.erase h).trans (Agree.insert h' _))
  | none =>
    rw [Files.renameFile, Stateful.get_bind,
      lift_bind_error (e := .notFound) (by rw [hsource]; rfl)]
    exact Changes.refl disk

theorem Confined.writeAtomic {temporary path : FilePath} (h : area temporary) (h' : area path)
    (bytes : List UInt8) :
    Confined area (writeAtomic temporary path bytes) :=
  (Confined.createNew h).bind fun _ => (Confined.writeAll h bytes).bind fun _ =>
    (Confined.renameFile h h').bind fun _ => Confined.syncDirectory _

end Frames

section Crashes
variable {ε ε' α β : Type} {area : FilePath → Prop} {P : Contents → Prop}

/-- An operation that keeps a condition on the files, whether it returns, fails or is cut off. -/
def Keeps (P : Contents → Prop) (op : EStateM ε Disk α) : Prop :=
  ∀ disk, Throughout P disk → Throughout P (stateAfter (op disk))

theorem Keeps.of_confined {op : EStateM ε Disk α} (h : Confined area op)
    (hP : ∀ before after, P before → Agree area before after → P after) : Keeps P op :=
  fun disk hdisk => hdisk.changes (h disk) fun after hagree => hP _ after hdisk.now hagree

/-- What changes no file keeps every condition. -/
theorem Keeps.of_still {op : EStateM ε Disk α} (h : Confined (fun _ => False) op) : Keeps P op := by
  refine .of_confined h fun before after hbefore hagree => ?_
  have heq : after = before := Std.ExtTreeMap.ext_getElem? fun path => hagree path id
  rwa [heq]

theorem Keeps.bind {op : EStateM ε Disk α} {f : α → EStateM ε Disk β} (h : Keeps P op)
    (hf : ∀ a, Keeps P (f a)) :
    Keeps P (op >>= f) := by
  intro disk hdisk
  have hop := h disk hdisk
  cases hrun : op disk with
  | ok a disk' =>
    rw [hrun] at hop
    rw [bind_of_ok hrun]
    exact hf a disk' hop
  | error e disk' =>
    rw [hrun] at hop
    rwa [bind_of_error hrun]

theorem Keeps.each {step : α → EStateM ε Disk Unit} {l : List α} (h : ∀ a ∈ l, Keeps P (step a)) :
    Keeps P (each step l) := by
  induction l with
  | nil => exact .of_still (Confined.pure ())
  | cons a l ih =>
    exact (h a List.mem_cons_self).bind fun _ => ih fun b hb => h b (List.mem_cons_of_mem a hb)

/-- The failures may be renamed. -/
theorem Keeps.raise {op : EStateM ε' Disk α} (h : Keeps P op) (f : ε' → ε) :
    Keeps P (zoom id (fun _ disk => disk) f op) := by
  intro disk hdisk
  have hop := h disk hdisk
  unfold zoom
  rw [id]
  cases hrun : op disk with
  | ok a disk' => rwa [hrun] at hop
  | error e disk' => rwa [hrun] at hop

theorem Keeps.removeFile {path : FilePath} (h : ∀ contents, P contents → P (contents.erase path)) :
    Keeps P (removeFile path) := by
  intro disk hdisk
  by_cases hmem : path ∈ disk.contents
  · rw [removeFile_eq hmem]
    exact hdisk.put (h _ hdisk.now)
  · rw [Files.removeFile, Stateful.get_bind,
      lift_bind_error (e := .notFound) (by simp [ensure, hmem])]
    exact hdisk

theorem Keeps.renameDirectory {source target : FilePath}
    (h : ∀ contents, P contents → P (renamed source target contents)) :
    Keeps P (renameDirectory source target) := by
  intro disk hdisk
  by_cases hpresent : present disk.contents source = true
  · rw [renameDirectory_eq hpresent]
    exact hdisk.put (h _ hdisk.now)
  · rw [Files.renameDirectory, Stateful.get_bind,
      lift_bind_error (e := .notFound) (by simp [ensure, hpresent])]
    exact hdisk

end Crashes

end Files
