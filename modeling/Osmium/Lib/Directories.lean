import Osmium.Lib.Files
import Osmium.Lib.Hoare

/-! A file system with its directories: a map from paths to what is there. In a `Tree` whatever is
there is in a directory. An operation that fails leaves everything as it was. -/

namespace Directories
open Result Stateful
open Files (FilePath)

inductive Node | directory | file (bytes : List UInt8)
deriving DecidableEq

def Node.isFile : Node → Bool
  | .directory => false
  | .file _ => true

abbrev Nodes := Std.ExtTreeMap FilePath Node

inductive IoError | notFound | alreadyExists | notADirectory | isADirectory | directoryNotEmpty |
    invalidInput
deriving DecidableEq

/-- Everything but the root is in a directory. -/
structure Tree where
  nodes : Nodes
  root : nodes[([] : FilePath)]? = some .directory
  closed : ∀ path name, path ++ [name] ∈ nodes → nodes[path]? = some .directory

section Queries

def isDir (nodes : Nodes) (path : FilePath) : Bool := nodes[path]? = some .directory

def isFile (nodes : Nodes) (path : FilePath) : Bool := nodes[path]?.any Node.isFile

/-- A path that goes through a file. -/
def blocked (nodes : Nodes) (path : FilePath) : Bool :=
  path.inits.any fun directory => isFile nodes directory

/-- What is directly in a directory, in the order of the paths. -/
def entries (nodes : Nodes) (directory : FilePath) : List FilePath :=
  nodes.keys.filter fun key => directory <+: key ∧ key.length = directory.length + 1

/-- The files, without their directories. -/
def files (nodes : Nodes) : Files.Contents :=
  .ofList (nodes.toList.filterMap fun entry => match entry.2 with
    | .directory => none
    | .file bytes => some (entry.1, bytes))

theorem mem_iff {nodes : Nodes} {path : FilePath} : path ∈ nodes ↔
    ∃ node, nodes[path]? = some node := by
  rw [Std.ExtTreeMap.mem_iff_isSome_getElem?, Option.isSome_iff_exists]

theorem Tree.closed_below (tree : Tree) {path rest : FilePath} (h : path ++ rest ∈ tree.nodes)
    (hrest : rest ≠ []) :
    tree.nodes[path]? = some .directory := by
  induction rest using List.reverseRecOn with
  | nil => exact absurd rfl hrest
  | append_singleton rest name ih =>
    rw [← List.append_assoc] at h
    have hparent := tree.closed (path ++ rest) name h
    by_cases hnil : rest = []
    · rwa [hnil, List.append_nil] at hparent
    · exact ih (mem_iff.2 ⟨_, hparent⟩) hnil

/-- Under a path where nothing is there is nothing. -/
theorem Tree.absent_below (tree : Tree) {path other : FilePath} (h : path ∉ tree.nodes)
    (hleads : path <+: other) :
    other ∉ tree.nodes := by
  obtain ⟨rest, rfl⟩ := hleads
  intro hmem
  by_cases hrest : rest = []
  · rw [hrest, List.append_nil] at hmem
    exact h hmem
  · exact h (mem_iff.2 ⟨_, tree.closed_below hmem hrest⟩)

/-- A test of each path is enough. -/
def Tree.ofNodes (nodes : Nodes) (root : nodes[([] : FilePath)]? = some .directory)
    (closed : (nodes.keys.all fun path =>
      decide (path = [] ∨ nodes[path.dropLast]? = some .directory)) = true) : Tree where
  nodes := nodes
  root := root
  closed := by
    intro path name hmem
    have htest := List.all_eq_true.1 closed _ (Std.ExtTreeMap.mem_keys.2 hmem)
    rcases of_decide_eq_true htest with hnil | hdirectory
    · exact absurd hnil (List.append_ne_nil_of_right_ne_nil path (List.cons_ne_nil _ _))
    · rwa [List.dropLast_concat] at hdirectory

theorem blocked_iff {nodes : Nodes} {path : FilePath} :
    blocked nodes path = true ↔ ∃ directory, directory <+: path ∧
    isFile nodes directory = true := by
  rw [blocked, List.any_eq_true]
  simp only [List.mem_inits]

end Queries

section Changes

/-- A path with all its directories, those of them that were not there before. -/
def withDirectories (path : FilePath) (nodes : Nodes) : Nodes :=
  path.inits.foldl (fun nodes directory => nodes.insertIfNew directory .directory) nodes

theorem getElem?_foldl_insertIfNew (directories : List FilePath) (nodes : Nodes) (path : FilePath) :
    (directories.foldl (fun nodes directory => nodes.insertIfNew directory .directory)
      nodes)[path]? =
      if path ∈ directories then nodes[path]?.or (some .directory) else nodes[path]? := by
  induction directories generalizing nodes with
  | nil => simp
  | cons directory rest ih =>
    rw [List.foldl_cons, ih, Std.ExtTreeMap.getElem?_insertIfNew]
    by_cases hsame : path = directory
    · subst hsame
      by_cases hmem : path ∈ nodes
      · simp [hmem]
      · simp [hmem]
    · have hcompare : ¬ (compare directory path = .eq ∧ directory ∉ nodes) :=
        fun h => hsame (Std.LawfulEqOrd.eq_of_compare h.1).symm
      rw [if_neg hcompare]
      simp only [List.mem_cons, hsame, false_or]

theorem getElem?_withDirectories (path other : FilePath) (nodes : Nodes) :
    (withDirectories path nodes)[other]? =
    if other <+: path then nodes[other]?.or (some .directory) else nodes[other]? := by
  rw [withDirectories, getElem?_foldl_insertIfNew]
  simp only [List.mem_inits]

theorem mem_withDirectories {path other : FilePath} {nodes : Nodes} :
    other ∈ withDirectories path nodes ↔ other <+: path ∨ other ∈ nodes := by
  simp only [mem_iff, getElem?_withDirectories]
  by_cases hleads : other <+: path
  · simp [hleads]
  · simp [hleads]

theorem isFile_withDirectories (path other : FilePath) (nodes : Nodes) :
    isFile (withDirectories path nodes) other = isFile nodes other := by
  rw [isFile, isFile, getElem?_withDirectories]
  split_ifs
  · cases nodes[other]? <;> rfl
  · rfl

def relocated (source target : FilePath) (nodes : Nodes) : List (FilePath × Node) :=
  (nodes.toList.filter fun entry => source <+: entry.1 ∨ ¬ target <+: entry.1).map fun entry =>
    if source <+: entry.1 then (target ++ entry.1.drop source.length, entry.2) else entry

/-- Whatever is at a path and below it under a new name, in the place of what was there. -/
def renamed (source target : FilePath) (nodes : Nodes) : Nodes :=
  .ofList (relocated source target nodes)

theorem mem_relocated {source target path : FilePath} {nodes : Nodes} {node : Node} :
    (path, node) ∈ relocated source target nodes ↔
    (∃ rest, path = target ++ rest ∧ nodes[source ++ rest]? = some node) ∨
      (¬ source <+: path ∧ ¬ target <+: path ∧ nodes[path]? = some node) := by
  simp only [relocated, List.mem_map, List.mem_filter, decide_eq_true_eq,
    Std.ExtTreeMap.mem_toList_iff_getElem?_eq_some, Prod.exists]
  refine ⟨fun h => ?_, fun h => ?_⟩
  · obtain ⟨key, value, ⟨hentry, hkept⟩, heq⟩ := h
    by_cases hsource : source <+: key
    · rw [if_pos hsource, Prod.mk.injEq] at heq
      obtain ⟨rest, rfl⟩ := hsource
      rw [List.drop_left] at heq
      exact .inl ⟨rest, heq.1.symm, heq.2 ▸ hentry⟩
    · rw [if_neg hsource, Prod.mk.injEq] at heq
      obtain ⟨rfl, rfl⟩ := heq
      exact .inr ⟨hsource, hkept.resolve_left hsource, hentry⟩
  · rcases h with ⟨rest, rfl, hentry⟩ | ⟨hsource, htarget, hentry⟩
    · refine ⟨source ++ rest, node, ⟨hentry, .inl (List.prefix_append _ _)⟩, ?_⟩
      rw [if_pos (List.prefix_append _ _), List.drop_left]
    · exact ⟨path, node, ⟨hentry, .inr htarget⟩, if_neg hsource⟩

theorem nodup_relocated (source target : FilePath) (nodes : Nodes) :
    ((relocated source target nodes).map Prod.fst).Nodup := by
  have hkeys : nodes.toList.Pairwise fun a b => a.1 ≠ b.1 :=
    Std.ExtTreeMap.distinct_keys_toList.imp fun hne (heq : _ = _) =>
      hne (by rw [heq]; exact Std.ReflCmp.compare_self)
  rw [relocated, List.map_map, List.nodup_iff_pairwise_ne, List.pairwise_map]
  refine (hkeys.filter _).imp_of_mem fun {a b} ha hb hne => ?_
  simp only [List.mem_filter, decide_eq_true_eq] at ha hb
  simp only [Function.comp_apply]
  by_cases hsa : source <+: a.1 <;> by_cases hsb : source <+: b.1
  · rw [if_pos hsa, if_pos hsb]
    intro heq
    obtain ⟨rest, hrest⟩ := hsa
    obtain ⟨rest', hrest'⟩ := hsb
    rw [← hrest, ← hrest', List.drop_left, List.drop_left] at heq
    exact hne (by rw [← hrest, ← hrest', List.append_cancel_left heq])
  -- what stays is not under the new name
  · rw [if_pos hsa, if_neg hsb]
    intro heq
    exact hb.2.resolve_left hsb (heq ▸ List.prefix_append _ _)
  · rw [if_neg hsa, if_pos hsb]
    intro heq
    exact ha.2.resolve_left hsa (heq ▸ List.prefix_append _ _)
  · rwa [if_neg hsa, if_neg hsb]

theorem getElem?_renamed {source target path : FilePath} {nodes : Nodes} {node : Node} :
    (renamed source target nodes)[path]? = some node ↔
      (∃ rest, path = target ++ rest ∧ nodes[source ++ rest]? = some node) ∨
      (¬ source <+: path ∧ ¬ target <+: path ∧ nodes[path]? = some node) := by
  rw [renamed, Files.getElem?_ofList (nodup_relocated source target nodes), mem_relocated]

theorem getElem?_renamed_target (source target rest : FilePath) (nodes : Nodes) :
    (renamed source target nodes)[target ++ rest]? = nodes[source ++ rest]? := by
  apply Option.ext
  intro node
  rw [getElem?_renamed]
  refine ⟨fun h => ?_, fun h => .inl ⟨rest, rfl, h⟩⟩
  rcases h with ⟨other, heq, h⟩ | ⟨-, hbelow, -⟩
  · rwa [List.append_cancel_left heq]
  · exact absurd (List.prefix_append _ _) hbelow

theorem getElem?_renamed_source {source target path : FilePath} (hsource : source <+: path)
    (htarget : ¬ target <+: path)
    (nodes : Nodes) : (renamed source target nodes)[path]? = none := by
  by_contra hsome
  obtain ⟨node, hnode⟩ := Option.ne_none_iff_exists'.1 hsome
  rcases getElem?_renamed.1 hnode with ⟨rest, rfl, -⟩ | ⟨hbelow, -, -⟩
  · exact htarget (List.prefix_append _ _)
  · exact hbelow hsource

theorem getElem?_renamed_other {source target path : FilePath} (hsource : ¬ source <+: path)
    (htarget : ¬ target <+: path)
    (nodes : Nodes) : (renamed source target nodes)[path]? = nodes[path]? := by
  apply Option.ext
  intro node
  rw [getElem?_renamed]
  refine ⟨fun h => ?_, fun h => .inr ⟨hsource, htarget, h⟩⟩
  rcases h with ⟨rest, rfl, -⟩ | ⟨-, -, h⟩
  · exact absurd (List.prefix_append _ _) htarget
  · exact h

end Changes

section Operations

/-- Makes a directory and those it is in. -/
def createDirAll (path : FilePath) : EStateM IoError Nodes Unit := do
  let nodes ← get
  lift (ensure (blocked nodes path = false) .notADirectory)
  set (withDirectories path nodes)

/-- Opens a file that must not be there yet. -/
def createNew (path : FilePath) : EStateM IoError Nodes Unit := do
  let nodes ← get
  lift (ensure (path ∉ nodes) .alreadyExists)
  lift (ensure (isDir nodes path.dropLast = true) .notFound)
  set (nodes.insert path (.file []))

def read (path : FilePath) : EStateM IoError Nodes (List UInt8) := do
  let nodes ← get
  match nodes[path]? with
  | some (.file bytes) => return bytes
  | some .directory => throw .isADirectory
  | none => throw .notFound

/-- Writes at the end of an open file. -/
def append (path : FilePath) (bytes : List UInt8) : EStateM IoError Nodes Unit := do
  let old ← read path
  modify fun nodes => nodes.insert path (.file (old ++ bytes))

/-- Waits until what is at a path is on the disk. -/
def syncAll (path : FilePath) : EStateM IoError Nodes Unit := do
  let nodes ← get
  lift (ensure (path ∈ nodes) .notFound)

/-- What a rename may put in the place of what. -/
def mayReplace (nodes : Nodes) (target : FilePath) : Node → Option Node → Except IoError Unit
  | _, none => .ok ()
  | .file _, some (.file _) => .ok ()
  | .file _, some .directory => .error .isADirectory
  | .directory, some (.file _) => .error .notADirectory
  | .directory, some .directory => ensure (entries nodes target = []) .directoryNotEmpty

def rename (source target : FilePath) : EStateM IoError Nodes Unit := do
  let nodes ← get
  let node ← lift (okOr .notFound nodes[source]?)
  lift (ensure (isDir nodes target.dropLast = true) .notFound)
  lift (ensure (¬ source <+: target.dropLast) .invalidInput)
  lift (mayReplace nodes target node nodes[target]?)
  set (renamed source target nodes)

theorem createDirAll_eq {path : FilePath} {nodes : Nodes} (h : blocked nodes path = false) :
    createDirAll path nodes = .ok () (withDirectories path nodes) := by
  rw [createDirAll, get_bind, lift_bind (a := ()) (by simp [ensure, h])]
  rfl

theorem createDirAll_blocked {path : FilePath} {nodes : Nodes} (h : blocked nodes path = true) :
    createDirAll path nodes = .error .notADirectory nodes := by
  rw [createDirAll, get_bind, lift_bind_error (e := .notADirectory) (by simp [ensure, h])]

theorem createDirAll_ok {path : FilePath} {nodes next : Nodes} :
    createDirAll path nodes = .ok () next ↔
    blocked nodes path = false ∧ withDirectories path nodes = next := by
  cases hblocked : blocked nodes path with
  | false => simp [createDirAll_eq hblocked]
  | true => simp [createDirAll_blocked hblocked]

theorem createNew_eq {path : FilePath} {nodes : Nodes} (h : path ∉ nodes)
    (hdir : isDir nodes path.dropLast = true) :
    createNew path nodes = .ok () (nodes.insert path (.file [])) := by
  rw [createNew, get_bind, lift_bind (a := ()) (by simp [ensure, h]),
    lift_bind (a := ()) (by simp [ensure, hdir])]
  rfl

theorem read_ok {path : FilePath} {nodes next : Nodes} {bytes : List UInt8} :
    read path nodes = .ok bytes next ↔ nodes[path]? = some (.file bytes) ∧ nodes = next := by
  rw [read, get_bind]
  cases hnode : nodes[path]? with
  | none => simp only [throw_ok, reduceCtorEq, false_and]
  | some node =>
    cases node with
    | directory => simp only [throw_ok, Option.some.injEq, reduceCtorEq, false_and]
    | file content => simp only [pure_ok, Option.some.injEq, Node.file.injEq]

theorem read_eq {path : FilePath} {nodes : Nodes} {bytes : List UInt8}
    (h : nodes[path]? = some (.file bytes)) :
    read path nodes = .ok bytes nodes := by
  rw [read, get_bind, h]
  rfl

theorem append_eq {path : FilePath} {nodes : Nodes} {old : List UInt8}
    (h : nodes[path]? = some (.file old)) (bytes : List UInt8) : append path bytes nodes =
      .ok () (nodes.insert path (.file (old ++ bytes))) := by
  rw [append, bind_of_ok (read_eq h)]
  rfl

theorem syncAll_eq {path : FilePath} {nodes : Nodes} (h : path ∈ nodes) :
    syncAll path nodes = .ok () nodes := by
  rw [syncAll, get_bind]
  exact (lift_ok _ _ _ _).2 ⟨by simp [ensure, h], rfl⟩

theorem syncAll_ok {path : FilePath} {nodes next : Nodes} : syncAll path nodes = .ok () next ↔
    path ∈ nodes ∧ nodes = next := by
  rw [syncAll, get_bind, lift_ok, ensure_eq_ok]

theorem rename_ok {source target : FilePath} {nodes next : Nodes}
    (h : rename source target nodes = .ok () next) :
    next = renamed source target nodes := by
  rw [rename, get_bind] at h
  obtain ⟨node, -, h⟩ := lift_bind_ok.1 h
  obtain ⟨_, -, h⟩ := lift_bind_ok.1 h
  obtain ⟨_, -, h⟩ := lift_bind_ok.1 h
  obtain ⟨_, -, h⟩ := lift_bind_ok.1 h
  exact ((set_ok _ _ _ _).1 h).symm

theorem rename_eq {source target : FilePath} {nodes : Nodes} {node : Node}
    (hsource : nodes[source]? = some node)
    (hdir : isDir nodes target.dropLast = true) (hbelow : ¬ source <+: target.dropLast)
    (htarget : target ∉ nodes) :
    rename source target nodes = .ok () (renamed source target nodes) := by
  have hnone : nodes[target]? = none := Std.ExtTreeMap.getElem?_eq_none htarget
  rw [rename, get_bind, lift_bind (a := node) (by rw [hsource]; rfl),
    lift_bind (a := ()) (by simp [ensure, hdir]),
    lift_bind (a := ()) (by simp [ensure, hbelow]), hnone,
    lift_bind (a := ()) (by cases node <;> rfl)]
  rfl

end Operations

section Filling
variable {directory : FilePath} {base now : Nodes} {inside : List UInt8 → Option Node}
  {name : List UInt8}

/-- A directory that is being filled, with what is in it and everything else as it was. -/
structure Filling (directory : FilePath) (base : Nodes) (inside : List UInt8 → Option Node)
    (now : Nodes) : Prop where
  outside : ∀ path, ¬ directory <+: path → now[path]? = base[path]?
  self : now[directory]? = some .directory
  inside : ∀ name, now[directory ++ [name]]? = inside name

theorem not_prefix_self (directory : FilePath) (name : List UInt8) :
    ¬ directory ++ [name] <+: directory := by
  intro h
  have hlength := h.length_le
  rw [List.length_append, List.length_singleton] at hlength
  omega

theorem Filling.isDir (h : Filling directory base inside now) :
    isDir now (directory ++ [name]).dropLast = true := by
  rw [List.dropLast_concat, Directories.isDir, h.self, decide_eq_true_eq]

theorem Filling.insert (h : Filling directory base inside now) (name : List UInt8) (node : Node) :
    Filling directory base (Function.update inside name (some node))
      (now.insert (directory ++ [name]) node) := by
  have hother : ∀ path, path ≠ directory ++ [name] →
      (now.insert (directory ++ [name]) node)[path]? = now[path]? := by
    intro path hpath
    rw [Std.ExtTreeMap.getElem?_insert, if_neg fun heq =>
      hpath (Std.LawfulEqOrd.eq_of_compare heq).symm]
  refine ⟨fun path hpath => ?_, ?_, fun other => ?_⟩
  · rw [hother path fun heq => hpath (heq ▸ List.prefix_append _ _)]
    exact h.outside path hpath
  · rw [hother directory fun heq => not_prefix_self directory name (heq ▸ List.prefix_rfl)]
    exact h.self
  · by_cases hsame : other = name
    · rw [hsame, Std.ExtTreeMap.getElem?_insert_self, Function.update_self]
    · rw [hother _ fun heq => hsame (by simpa using heq), h.inside, Function.update_of_ne hsame]

theorem Filling.createNew (h : Filling directory base inside now) {name : List UInt8}
    (hname : inside name = none) :
    ∃ next, createNew (directory ++ [name]) now = .ok () next ∧
      Filling directory base (Function.update inside name (some (.file []))) next := by
  have hfresh : directory ++ [name] ∉ now := by
    rw [Std.ExtTreeMap.mem_iff_isSome_getElem?, h.inside, hname]
    exact Bool.false_ne_true
  exact ⟨_, createNew_eq hfresh h.isDir, h.insert name _⟩

theorem Filling.append (h : Filling directory base inside now) {old : List UInt8}
    (hname : inside name = some (.file old))
    (bytes : List UInt8) : ∃ next, append (directory ++ [name]) bytes now = .ok () next ∧
      Filling directory base (Function.update inside name (some (.file (old ++ bytes)))) next :=
  ⟨_, append_eq ((h.inside name).trans hname) bytes, h.insert name _⟩

theorem Filling.syncAll (h : Filling directory base inside now) {node : Node}
    (hname : inside name = some node) :
    syncAll (directory ++ [name]) now = .ok () now :=
  syncAll_eq (mem_iff.2 ⟨node, (h.inside name).trans hname⟩)

theorem Filling.rename (h : Filling directory base inside now) {node : Node} {target : List UInt8}
    (hname : inside name = some node) (htarget : inside target = none) :
    ∃ next, rename (directory ++ [name]) (directory ++ [target]) now = .ok () next ∧
      Filling directory base
        (Function.update (Function.update inside name none) target (some node)) next := by
  have hne : target ≠ name := by
    intro heq
    rw [heq, hname] at htarget
    cases htarget
  have hfresh : directory ++ [target] ∉ now := by
    rw [Std.ExtTreeMap.mem_iff_isSome_getElem?, h.inside, htarget]
    exact Bool.false_ne_true
  have hbelow : ¬ directory ++ [name] <+: (directory ++ [target]).dropLast := by
    rw [List.dropLast_concat]
    exact not_prefix_self directory name
  have hsource : now[directory ++ [name]]? = some node := (h.inside name).trans hname
  have hnames : ∀ {a b : List UInt8}, directory ++ [a] <+: directory ++ [b] → a = b := by
    intro a b hleads
    rw [List.prefix_append_right_inj] at hleads
    simpa using hleads
  refine ⟨_, rename_eq hsource h.isDir hbelow hfresh, fun path hpath => ?_, ?_, fun other => ?_⟩
  · have hbelow' : ∀ a, ¬ directory ++ [a] <+: path :=
      fun a ha => hpath ((List.prefix_append _ _).trans ha)
    rw [getElem?_renamed_other (hbelow' name) (hbelow' target)]
    exact h.outside path hpath
  · rw [getElem?_renamed_other (not_prefix_self directory name) (not_prefix_self directory target)]
    exact h.self
  · by_cases hsame : other = target
    · have hmoved := getElem?_renamed_target (directory ++ [name]) (directory ++ [target]) [] now
      rw [List.append_nil, List.append_nil, hsource] at hmoved
      rw [hsame, hmoved, Function.update_self]
    · rw [Function.update_of_ne hsame]
      have hother : ¬ directory ++ [target] <+: directory ++ [other] :=
        fun hleads => hsame (hnames hleads).symm
      by_cases hold : other = name
      · rw [hold] at hother ⊢
        rw [getElem?_renamed_source List.prefix_rfl hother, Function.update_self]
      · rw [getElem?_renamed_other (fun hleads => hold (hnames hleads).symm) hother, h.inside,
          Function.update_of_ne hold]

end Filling

section Keeping
variable {directory path : FilePath} {nodes before after : Nodes}

/-- Everything is in a directory. -/
def IsTree (nodes : Nodes) : Prop := ∃ tree : Tree, tree.nodes = nodes

/-- A tree stays a tree, and what is there outside of a directory stays there. -/
structure WorksIn (directory : FilePath) (before after : Nodes) : Prop where
  tree : IsTree before → IsTree after
  stays : IsTree before → ∀ path node, ¬ directory <+: path → before[path]? = some node →
      after[path]? = some node

instance : Std.Refl (WorksIn directory) := ⟨fun _ => ⟨id, fun _ _ _ _ h => h⟩⟩

instance : IsTrans Nodes (WorksIn directory) :=
  ⟨fun _ _ _ h h' => ⟨fun htree => h'.tree (h.tree htree), fun htree path node houtside hnode =>
    h'.stays (h.tree htree) path node houtside (h.stays htree path node houtside hnode)⟩⟩

/-- Nothing that is there is changed. -/
structure Extends (before after : Nodes) : Prop where
  tree : IsTree before → IsTree after
  stays : IsTree before → ∀ (path : FilePath) (node : Node), before[path]? = some node →
      after[path]? = some node

instance : Std.Refl Extends := ⟨fun _ => ⟨id, fun _ _ _ h => h⟩⟩

instance : IsTrans Nodes Extends :=
  ⟨fun _ _ _ h h' => ⟨fun htree => h'.tree (h.tree htree), fun htree path node hnode =>
    h'.stays (h.tree htree) path node (h.stays htree path node hnode)⟩⟩

/-- Under a directory that is not there is nothing. -/
theorem WorksIn.extends_of_fresh (h : WorksIn directory before after)
    (hfresh : directory ∉ before) : Extends before after := by
  refine ⟨h.tree, fun htree path node hnode => h.stays htree path node (fun hleads => ?_) hnode⟩
  obtain ⟨tree, rfl⟩ := htree
  exact tree.absent_below hfresh hleads (mem_iff.2 ⟨node, hnode⟩)

theorem isTree_withDirectories (tree : Tree) (hopen : blocked tree.nodes path = false) :
    IsTree (withDirectories path tree.nodes) := by
  have hdirectory : ∀ other, other <+: path →
      tree.nodes[other]?.or (some .directory) = some .directory := by
    intro other hleads
    have hfile : ¬ isFile tree.nodes other = true := fun hfile =>
      Bool.eq_false_iff.1 hopen (blocked_iff.2 ⟨other, hleads, hfile⟩)
    rw [isFile] at hfile
    cases hnode : tree.nodes[other]? with
    | none => rfl
    | some node =>
      cases node with
      | directory => rfl
      | file bytes => simp [hnode, Node.isFile] at hfile
  refine ⟨⟨withDirectories path tree.nodes, ?_, fun other name hmem => ?_⟩, rfl⟩
  · rw [getElem?_withDirectories, if_pos List.nil_prefix]
    exact hdirectory [] List.nil_prefix
  · rw [getElem?_withDirectories]
    split_ifs with hleads
    · exact hdirectory other hleads
    · rcases mem_withDirectories.1 hmem with hunder | hthere
      · exact absurd ((List.prefix_append _ _).trans hunder) hleads
      · exact tree.closed other name hthere

theorem Tree.parent (tree : Tree) (hmem : path ∈ tree.nodes) (hpath : path ≠ []) :
    tree.nodes[path.dropLast]? = some .directory := by
  refine tree.closed path.dropLast (path.getLast hpath) ?_
  rwa [List.dropLast_append_getLast]

/-- A file may be put into a directory where no directory is. -/
theorem isTree_insert (tree : Tree) (hpath : tree.nodes[path]? ≠ some .directory)
    (hparent : tree.nodes[path.dropLast]? = some .directory) (bytes : List UInt8) :
    IsTree (tree.nodes.insert path (.file bytes)) := by
  have hother : ∀ other : FilePath, tree.nodes[other]? = some Node.directory →
      (tree.nodes.insert path (.file bytes))[other]? = some Node.directory := by
    intro other hnode
    rw [Std.ExtTreeMap.getElem?_insert, if_neg fun heq => ?_]
    · exact hnode
    · exact hpath (Std.LawfulEqOrd.eq_of_compare heq ▸ hnode)
  refine ⟨⟨_, hother [] tree.root, fun other name hmem => hother other ?_⟩, rfl⟩
  rcases Std.ExtTreeMap.mem_insert.1 hmem with heq | hthere
  · rwa [Std.LawfulEqOrd.eq_of_compare heq, List.dropLast_concat] at hparent
  · exact tree.closed other name hthere

theorem isTree_renamed {source target : FilePath} {node : Node} (tree : Tree)
    (hsource : tree.nodes[source]? = some node)
    (hparent : tree.nodes[target.dropLast]? = some .directory)
    (hbelow : ¬ source <+: target.dropLast)
    (hroot : target = [] → node = .directory) : IsTree (renamed source target tree.nodes) := by
  refine ⟨⟨renamed source target tree.nodes, ?_, fun path name hmem => ?_⟩, rfl⟩
  · by_cases hnil : target = []
    · have hmoved := getElem?_renamed_target source target [] tree.nodes
      rw [List.append_nil, List.append_nil, hnil] at hmoved
      rw [hnil, hmoved, hsource, hroot hnil]
    · have hne : source ≠ [] := fun heq => hbelow (heq ▸ List.nil_prefix)
      rw [getElem?_renamed_other (by rwa [List.prefix_nil]) (by rwa [List.prefix_nil])]
      exact tree.root
  · obtain ⟨other, hother⟩ := mem_iff.1 hmem
    rcases getElem?_renamed.1 hother with ⟨rest, heq, hnode⟩ | ⟨hsourceOut, htargetOut, hnode⟩
    · induction rest using List.reverseRecOn with
      | nil =>
        -- the directory that the new name is in
        rw [List.append_nil] at heq
        rw [← heq, List.dropLast_concat] at hparent hbelow
        rw [← heq, getElem?_renamed_other hbelow (not_prefix_self path name), hparent]
      | append_singleton rest last _ =>
        rw [← List.append_assoc] at heq hnode
        obtain ⟨rfl, -⟩ := List.append_inj' heq rfl
        rw [getElem?_renamed_target]
        exact tree.closed _ _ (mem_iff.2 ⟨_, hnode⟩)
    · rw [getElem?_renamed_other (fun hleads => hsourceOut (hleads.trans (List.prefix_append _ _)))
        fun hleads => htargetOut (hleads.trans (List.prefix_append _ _))]
      exact tree.closed path name (mem_iff.2 ⟨_, hnode⟩)

theorem createDirAll_worksIn (path : FilePath) (nodes : Nodes) :
    Along (WorksIn directory) AnyFailure (createDirAll path) nodes := by
  refine Along.get_bind (Along.lift_bind (failsIn_any _) fun _ hopen => Along.set ?_)
  have hopen : blocked nodes path = false := (ensure_eq_ok _ _ _).1 hopen
  refine ⟨fun htree => ?_, fun _ other node _ hnode => ?_⟩
  · obtain ⟨tree, rfl⟩ := htree
    exact isTree_withDirectories tree hopen
  · rw [getElem?_withDirectories, hnode]
    simp

theorem createNew_worksIn (path : FilePath) (nodes : Nodes) :
    Along (WorksIn directory) AnyFailure (createNew path) nodes := by
  refine Along.get_bind (Along.lift_bind (failsIn_any _) fun _ hfresh =>
    Along.lift_bind (failsIn_any _) fun _ hparent => Along.set ?_)
  have hfresh : path ∉ nodes := (ensure_eq_ok _ _ _).1 hfresh
  have hparent := (ensure_eq_ok _ _ _).1 hparent
  refine ⟨fun htree => ?_, fun _ other node _ hnode => ?_⟩
  · obtain ⟨tree, rfl⟩ := htree
    exact isTree_insert tree (fun hnode => hfresh (mem_iff.2 ⟨_, hnode⟩))
      (of_decide_eq_true hparent) []
  · rw [Std.ExtTreeMap.getElem?_insert, if_neg fun heq => hfresh ?_]
    · exact hnode
    · rw [Std.LawfulEqOrd.eq_of_compare heq]
      exact mem_iff.2 ⟨node, hnode⟩

theorem atomic_read (path : FilePath) : Atomic (read path) := by
  intro nodes e s' h
  rw [read, get_bind] at h
  cases hnode : nodes[path]? with
  | none =>
    rw [hnode] at h
    exact ((throw_error _ _ _ _).1 h).2.symm
  | some node =>
    rw [hnode] at h
    cases node with
    | directory => exact ((throw_error _ _ _ _).1 h).2.symm
    | file bytes => exact ((pure_error _ _ _ _).1 h).elim

theorem append_worksIn (hpath : directory <+: path) (bytes : List UInt8) (nodes : Nodes) :
    Along (WorksIn directory) AnyFailure (append path bytes) nodes := by
  cases hread : read path nodes with
  | error e s' =>
    obtain rfl : s' = nodes := atomic_read path _ _ _ hread
    rw [Along, append, bind_of_error hread]
    exact ⟨Std.Refl.refl _, trivial⟩
  | ok old s' =>
    obtain ⟨hfile, rfl⟩ := read_ok.1 hread
    rw [Along, append_eq hfile]
    refine ⟨fun htree => ?_, fun _ other node houtside hnode => ?_⟩
    · obtain ⟨tree, rfl⟩ := htree
      have hnone : path ≠ [] := by
        rintro rfl
        cases tree.root.symm.trans hfile
      refine isTree_insert tree (by rw [hfile]; simp) (tree.parent (mem_iff.2 ⟨_, hfile⟩) hnone) _
    · rw [Std.ExtTreeMap.getElem?_insert, if_neg fun heq => houtside ?_]
      · exact hnode
      · rwa [← Std.LawfulEqOrd.eq_of_compare heq]

theorem syncAll_worksIn (path : FilePath) (nodes : Nodes) :
    Along (WorksIn directory) AnyFailure (syncAll path) nodes := by
  refine Along.get_bind ?_
  exact Meets.lift (fun _ _ => Std.Refl.refl nodes) fun _ _ => ⟨Std.Refl.refl nodes, trivial⟩

theorem rename_worksIn {source target : FilePath} (nodes : Nodes) (hsource : directory <+: source)
    (htarget : directory <+: target ∨ target ∉ nodes) :
    Along (WorksIn directory) AnyFailure (rename source target) nodes := by
  refine Along.get_bind
    (Along.lift_bind (failsIn_any _) fun node hnode => Along.lift_bind (failsIn_any _)
    fun _ hparent => Along.lift_bind (failsIn_any _) fun _ hbelow =>
      Along.lift_bind (failsIn_any _) fun _ hreplace =>
    Along.set ?_)
  have hnode := (okOr_eq_ok _ _ _).1 hnode
  have hparent := of_decide_eq_true ((ensure_eq_ok _ _ _).1 hparent)
  have hbelow := (ensure_eq_ok _ _ _).1 hbelow
  refine ⟨fun htree => ?_, fun htree other kept houtside hkept => ?_⟩
  · obtain ⟨tree, rfl⟩ := htree
    refine isTree_renamed tree hnode hparent hbelow fun hnil => ?_
    rw [hnil, tree.root] at hreplace
    cases node with
    | directory => rfl
    | file bytes => cases hreplace
  · obtain ⟨tree, rfl⟩ := htree
    rw [getElem?_renamed_other (fun hleads => houtside (hsource.trans hleads)) fun hleads => ?_]
    · exact hkept
    · rcases htarget with htarget | htarget
      · exact houtside (htarget.trans hleads)
      · exact tree.absent_below htarget hleads (mem_iff.2 ⟨kept, hkept⟩)

end Keeping

end Directories
