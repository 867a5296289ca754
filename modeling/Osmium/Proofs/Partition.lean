import Osmium.Spec.Partition
import Osmium.Proofs.Replay

/-! The roots of two partitions: one is above the other where a symbol starts the other one and its
encoded text ends with a whole component. Otherwise nothing under one root is under the other. -/

namespace Osmium
open Machine Bytes Result Files

section Encoding

/-- The byte written first, from the characters it and the rest are written in. -/
def decodedByte : List UInt8 → Option UInt8
  | 37 :: high :: low :: _ => do return (← Hex.nibble false high) <<< 4 ||| (← Hex.nibble false low)
  | byte :: _ => some byte
  | [] => none

theorem decodedByte_plain {byte : UInt8} (h : byte ≠ 37) (rest : List UInt8) :
    decodedByte (byte :: rest) = some byte := by
  unfold decodedByte
  split
  · rename_i heq
    exact absurd (List.cons_eq_cons.1 heq).1 h
  · rename_i heq
    rw [(List.cons_eq_cons.1 heq).1]
  · rename_i heq
    exact absurd heq (List.cons_ne_nil _ _)

theorem decodedByte_encodedByte (byte : UInt8) (rest : List UInt8) :
    decodedByte (encodedByte byte ++ rest) = some byte := by
  by_cases hsafe : isSafeByte byte = true
  · have hplain : byte ≠ 37 := by
      intro heq
      rw [heq] at hsafe
      exact absurd hsafe (by decide)
    rw [encodedByte, if_pos hsafe]
    exact decodedByte_plain hplain rest
  · rw [encodedByte, if_neg hsafe]
    simp only [List.cons_append, List.nil_append, decodedByte, Hex.nibble_high, Hex.nibble_low,
      bind, Option.bind, pure, Hex.join_nibbles]

theorem splits_encodedByte : Blocks.Splits encodedByte := by
  intro a b r r' heq
  have hdecode := congrArg decodedByte heq
  rw [decodedByte_encodedByte, decodedByte_encodedByte] at hdecode
  exact Option.some.inj hdecode

theorem encodedByte_ne_nil (byte : UInt8) : encodedByte byte ≠ [] := by
  unfold encodedByte
  split_ifs <;> exact List.cons_ne_nil _ _

theorem encodedSymbol_prefix_iff {value other : List UInt8} :
    encodedSymbol value <+: encodedSymbol other ↔ value <+: other :=
  splits_encodedByte.flatMap_prefix_iff encodedByte_ne_nil

theorem encodedSymbol_injective : Function.Injective encodedSymbol :=
  splits_encodedByte.flatMap_injective encodedByte_ne_nil

theorem symbolComponentChars_pos : 0 < symbolComponentChars := by decide

theorem encodedSymbolPath_injective : Function.Injective encodedSymbolPath :=
  (Blocks.cut_injective symbolComponentChars_pos).comp encodedSymbol_injective

/-- The characters of an encoded symbol: letters, digits, underscores, percent signs and hyphens. -/
def isPathByte (byte : UInt8) : Bool := isSafeByte byte || byte = 37

theorem isPathByte_digit (n : UInt8) (h : n < 16) : isPathByte (Hex.digit n) = true := by
  revert h
  refine Hex.forall_byte (P := fun n => n < 16 → isPathByte (Hex.digit n) = true) ?_ n
  decide +kernel

theorem isPathByte_of_mem_encodedByte {byte char : UInt8} (h : char ∈ encodedByte byte) :
    isPathByte char = true := by
  have hhigh : byte >>> 4 < 16 :=
    Hex.forall_byte (P := fun byte => byte >>> 4 < 16) (by decide +kernel) byte
  have hlow : byte &&& 15 < 16 :=
    Hex.forall_byte (P := fun byte => byte &&& 15 < 16) (by decide +kernel) byte
  unfold encodedByte at h
  split_ifs at h with hsafe
  · rw [List.mem_singleton.1 h, isPathByte, hsafe, Bool.true_or]
  · simp only [List.mem_cons, List.not_mem_nil, or_false] at h
    rcases h with rfl | rfl | rfl
    · decide
    · exact isPathByte_digit _ hhigh
    · exact isPathByte_digit _ hlow

/-- A component that stands for itself in a path, and is not too long for a name. -/
structure PathSafe (component : List UInt8) : Prop where
  nonempty : component ≠ []
  short : component.length ≤ symbolComponentChars
  bytes : ∀ byte ∈ component, isPathByte byte = true

theorem pathSafe_encodedSymbolPath {value component : List UInt8}
    (h : component ∈ encodedSymbolPath value) :
    PathSafe component := by
  obtain ⟨hne, hshort, hsub⟩ := Blocks.mem_cut symbolComponentChars_pos h
  refine ⟨hne, hshort, fun char hchar => ?_⟩
  obtain ⟨byte, -, hbyte⟩ := List.mem_flatMap.1 (hsub hchar)
  exact isPathByte_of_mem_encodedByte hbyte

end Encoding

section Roots

/-- A symbol whose directories hold those of a longer one. -/
def EndsComponent (value other : List UInt8) : Prop :=
  symbolComponentChars ∣ (encodedSymbol value).length ∧ value <+: other

instance (value other : List UInt8) : Decidable (EndsComponent value other) :=
  inferInstanceAs (Decidable (_ ∧ _))

theorem encodedSymbolPath_prefix_iff {value other : List UInt8} (hne : value ≠ other) :
    encodedSymbolPath value <+: encodedSymbolPath other ↔ EndsComponent value other := by
  rw [encodedSymbolPath, encodedSymbolPath, Blocks.cut_prefix_iff symbolComponentChars_pos,
    encodedSymbol_prefix_iff, encodedSymbol_injective.eq_iff, or_iff_right hne]
  rfl

/-- Two roots that no path is under both of. -/
def NothingShared (root other : FilePath) : Prop := ∀ path, root <+: path → ¬ other <+: path

theorem nothingShared_iff {root other : FilePath} : NothingShared root other ↔
    ¬ root <+: other ∧ ¬ other <+: root := by
  refine ⟨fun h => ⟨fun hleading => h other hleading List.prefix_rfl, fun hleading =>
    h root List.prefix_rfl hleading⟩, fun h path hroot hother => ?_⟩
  rcases List.prefix_or_prefix_of_prefix hroot hother with hleading | hleading
  · exact h.1 hleading
  · exact h.2 hleading

theorem nothingShared_append {directory root other : FilePath} :
    NothingShared (directory ++ root) (directory ++ other) ↔ NothingShared root other := by
  rw [nothingShared_iff, nothingShared_iff, List.prefix_append_right_inj,
    List.prefix_append_right_inj]

theorem nothingShared_of_head {directory root other : FilePath} {name name' : List UInt8}
    (h : name ≠ name') :
    NothingShared (directory ++ name :: root) (directory ++ name' :: other) := by
  rw [nothingShared_append, nothingShared_iff]
  exact ⟨fun hleading => h (List.cons_prefix_cons.1 hleading).1, fun hleading =>
    h (List.cons_prefix_cons.1 hleading).1.symm⟩

/-- The directories a partition owns: its source and its caches. -/
def ownedRoots (dataRoot : FilePath) (key : SourcePartitionKey) : List FilePath :=
  [partitionRoot dataRoot key, cachePartitionRoot dataRoot key]

/-- What keeps the storage of two partitions apart. -/
structure StorageSeparate (dataRoot : FilePath) (key other : SourcePartitionKey) : Prop where
  paths : encodedSymbolPath key.instrument.symbol.text.bytes ≠
      encodedSymbolPath other.instrument.symbol.text.bytes
  safe : ∀ component ∈ encodedSymbolPath key.instrument.symbol.text.bytes ++
    encodedSymbolPath other.instrument.symbol.text.bytes, PathSafe component
  someComponent : encodedSymbolPath key.instrument.symbol.text.bytes ≠ [] ∧
    encodedSymbolPath other.instrument.symbol.text.bytes ≠ []
  roots : ∀ root ∈ ownedRoots dataRoot key, ∀ root' ∈ ownedRoots dataRoot other, ¬ root <+: root' ∧
      ¬ root' <+: root
  files : ∀ root ∈ ownedRoots dataRoot key, ∀ root' ∈ ownedRoots dataRoot other,
      NothingShared root root'

variable {key other : SourcePartitionKey} {dataRoot : FilePath}

/-- Partitions of one source, market and date. -/
structure SameShelf (key other : SourcePartitionKey) : Prop where
  source : key.source = other.source
  market : key.instrument.market = other.instrument.market
  tradingDate : key.tradingDate = other.tradingDate

theorem SameShelf.keyedRoot_eq (h : SameShelf key other) (dataRoot directory : FilePath) : ∃ shelf,
    keyedRoot dataRoot directory key.source key.instrument key.tradingDate =
      shelf ++ encodedSymbolPath key.instrument.symbol.text.bytes ∧
    keyedRoot dataRoot directory other.source other.instrument other.tradingDate =
      shelf ++ encodedSymbolPath other.instrument.symbol.text.bytes := by
  refine ⟨_, rfl, ?_⟩
  rw [keyedRoot, marketName, marketName, h.source, h.market, h.tradingDate]

theorem SameShelf.keyedRoot_nothingShared (h : SameShelf key other) (directory : FilePath) :
    NothingShared (keyedRoot dataRoot directory key.source key.instrument key.tradingDate)
      (keyedRoot dataRoot directory other.source other.instrument other.tradingDate) ↔
    NothingShared (encodedSymbolPath key.instrument.symbol.text.bytes)
      (encodedSymbolPath other.instrument.symbol.text.bytes) := by
  obtain ⟨shelf, hkey, hother⟩ := h.keyedRoot_eq dataRoot directory
  rw [hkey, hother, nothingShared_append]

/-- The sources and the caches are in different directories. -/
theorem source_cache_nothingShared (dataRoot : FilePath) (key other : SourcePartitionKey) :
    NothingShared (partitionRoot dataRoot key) (cachePartitionRoot dataRoot other) := by
  have hname : sourceName ≠ ([99, 97, 99, 104, 101] : List UInt8) := by decide
  unfold partitionRoot cachePartitionRoot keyedRoot cacheDirectory
  simp only [List.append_assoc, List.cons_append, List.nil_append]
  exact nothingShared_of_head hname

theorem NothingShared.symm {root root' : FilePath} (h : NothingShared root root') :
    NothingShared root' root :=
  fun path hroot' hroot => h path hroot hroot'

theorem encodedSymbolPath_nothingShared_iff {value value' : List UInt8} (hne : value ≠ value') :
    NothingShared (encodedSymbolPath value) (encodedSymbolPath value') ↔
      ¬ EndsComponent value value' ∧ ¬ EndsComponent value' value := by
  rw [nothingShared_iff, encodedSymbolPath_prefix_iff hne, encodedSymbolPath_prefix_iff hne.symm]

theorem SameShelf.ownedRoots_nothingShared_iff (h : SameShelf key other)
    (hsymbol : key.instrument.symbol.text.bytes ≠ other.instrument.symbol.text.bytes) :
    (∀ root ∈ ownedRoots dataRoot key, ∀ root' ∈ ownedRoots dataRoot other,
      NothingShared root root') ↔
      ¬ EndsComponent key.instrument.symbol.text.bytes other.instrument.symbol.text.bytes ∧
        ¬ EndsComponent other.instrument.symbol.text.bytes key.instrument.symbol.text.bytes := by
  rw [← encodedSymbolPath_nothingShared_iff hsymbol]
  refine ⟨fun hall => ?_, fun hpaths root hroot root' hroot' => ?_⟩
  · exact (h.keyedRoot_nothingShared [sourceName]).1
      (hall _ List.mem_cons_self _ List.mem_cons_self)
  · simp only [ownedRoots, List.mem_cons, List.not_mem_nil, or_false] at hroot hroot'
    rcases hroot with rfl | rfl <;> rcases hroot' with rfl | rfl
    · exact (h.keyedRoot_nothingShared [sourceName]).2 hpaths
    · exact source_cache_nothingShared dataRoot key other
    · exact (source_cache_nothingShared dataRoot other key).symm
    · exact (h.keyedRoot_nothingShared cacheDirectory).2 hpaths

theorem encodedSymbolPath_ne_nil (symbol : Symbol) : encodedSymbolPath symbol.text.bytes ≠ [] := by
  have hsymbol : symbol.text.bytes ≠ [] := by
    have hempty := symbol.nonempty
    rwa [Text.isEmpty, List.isEmpty_eq_false_iff] at hempty
  intro hpath
  have hnil : encodedSymbolPath ([] : List UInt8) = [] := rfl
  exact hsymbol (encodedSymbolPath_injective (hpath.trans hnil.symm))

theorem partition_storage_separate_iff (h : SameShelf key other)
    (hsymbol : key.instrument.symbol ≠ other.instrument.symbol)
    (dataRoot : FilePath) : StorageSeparate dataRoot key other ↔
      ¬ EndsComponent key.instrument.symbol.text.bytes other.instrument.symbol.text.bytes ∧
        ¬ EndsComponent other.instrument.symbol.text.bytes key.instrument.symbol.text.bytes := by
  have hbytes : key.instrument.symbol.text.bytes ≠ other.instrument.symbol.text.bytes :=
    fun heq => hsymbol (Symbol.ext (Text.ext heq))
  rw [← h.ownedRoots_nothingShared_iff hbytes]
  refine ⟨StorageSeparate.files, fun hfiles => ?_⟩
  refine ⟨encodedSymbolPath_injective.ne hbytes, fun component hcomponent => ?_,
    ⟨encodedSymbolPath_ne_nil _, encodedSymbolPath_ne_nil _⟩,
    fun root hroot root' hroot' => nothingShared_iff.1 (hfiles root hroot root' hroot'), hfiles⟩
  rcases List.mem_append.1 hcomponent with hcomponent | hcomponent
  · exact pathSafe_encodedSymbolPath hcomponent
  · exact pathSafe_encodedSymbolPath hcomponent

end Roots

section Samples

def sampleSource : SourceId := ⟨⟨[115], Eq.refl true⟩, rfl, by decide, by decide⟩

theorem length_zeros : (List.replicate 32 (0 : UInt8)).length = 32 := rfl

def sampleKey (symbol : Symbol) : SourcePartitionKey :=
  ⟨sampleSource, ⟨.twse, symbol⟩, firstDay, [.regular], ⟨List.replicate 32 0, length_zeros⟩, [],
    ⟨List.replicate 32 0, length_zeros⟩⟩

/-- 2330 -/
def firstSymbol : Symbol := ⟨⟨[50, 51, 51, 48], Eq.refl true⟩, rfl⟩

/-- 2317 -/
def secondSymbol : Symbol := ⟨⟨[50, 51, 49, 55], by decide⟩, rfl⟩

/-- Neither symbol ends a component in the other, so no file is shared. -/
theorem short_symbols_separate :
    SameShelf (sampleKey firstSymbol) (sampleKey secondSymbol) ∧
      StorageSeparate [] (sampleKey firstSymbol) (sampleKey secondSymbol) := by
  have hshelf : SameShelf (sampleKey firstSymbol) (sampleKey secondSymbol) := ⟨rfl, rfl, rfl⟩
  have hdiffer : firstSymbol ≠ secondSymbol := by decide
  exact ⟨hshelf, (partition_storage_separate_iff hshelf hdiffer []).2 ⟨by decide, by decide⟩⟩

/-- A symbol of one whole component. -/
def longSymbol : Symbol := ⟨⟨List.replicate 180 120, by decide +kernel⟩, rfl⟩

/-- The long symbol with "revisions" after it. -/
def longerSymbol : Symbol := ⟨⟨List.replicate 180 120 ++ revisionsName, by decide +kernel⟩, rfl⟩

/-- The revisions of one partition are in the root of the other. -/
theorem long_symbols_nest : ¬ StorageSeparate [] (sampleKey longSymbol) (sampleKey longerSymbol) ∧
    partitionRoot [] (sampleKey longerSymbol) =
      partitionRoot [] (sampleKey longSymbol) ++ [revisionsName] := by
  have hroot : partitionRoot [] (sampleKey longerSymbol) =
      partitionRoot [] (sampleKey longSymbol) ++ [revisionsName] := by
    decide +kernel
  refine ⟨fun hseparate => ?_, hroot⟩
  refine (hseparate.roots _ List.mem_cons_self _ List.mem_cons_self).1 ?_
  rw [hroot]
  exact List.prefix_append _ _

end Samples

end Osmium
