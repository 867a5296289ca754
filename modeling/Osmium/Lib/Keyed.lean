import Mathlib.Data.List.Destutter
import Osmium.Lib.OrderedMap

/-! Lists of values with keys: sorting by key, neighbours that clash, and the values that are left
when only the first of each key is kept. What comes out of a sorted list does not depend on the
order in which its values came. -/

namespace Keyed
variable {α κ : Type} [Ord κ] (key : α → κ)

def before (a b : α) : Prop := (compare (key a) (key b)).isLE = true

instance (a b : α) : Decidable (before key a b) := inferInstanceAs (Decidable (_ = true))

def sort (l : List α) : List α := l.insertionSort (before key)

/-- No key twice, and in order. -/
def Ascending (l : List α) : Prop := l.Pairwise fun a b => compare (key a) (key b) = .lt

theorem sort_perm (l : List α) : (sort key l).Perm l := l.perm_insertionSort (before key)

theorem mem_sort {l : List α} {a : α} : a ∈ sort key l ↔ a ∈ l := (sort_perm key l).mem_iff

theorem lt_of_before {key : α → κ} [Std.LawfulEqOrd κ] {a b : α} (hle : before key a b)
    (hne : key a ≠ key b) :
    compare (key a) (key b) = .lt := by
  rw [before] at hle
  cases hcompare : compare (key a) (key b) with
  | lt => rfl
  | eq => exact absurd (Std.LawfulEqCmp.eq_of_compare hcompare) hne
  | gt => rw [hcompare] at hle; cases hle

/-- Distinct keys in order ascend. -/
theorem ascending_of_nodup {key : α → κ} [Std.LawfulEqOrd κ] {l : List α}
    (hsorted : l.Pairwise (before key)) (hkeys : (l.map key).Nodup) :
    Ascending key l := by
  have hne : l.Pairwise fun a b => key a ≠ key b := List.pairwise_map.1 hkeys
  exact (hsorted.and hne).imp fun hboth => lt_of_before hboth.1 hboth.2

section Sorting
variable [Std.TransOrd κ]

instance : IsTrans α (before key) := ⟨fun _ _ _ hab hbc => Std.TransCmp.isLE_trans hab hbc⟩

instance : Std.Total (before key) := ⟨fun a b => by
  rw [before, before, Order.compare_swap (key a) (key b)]
  cases compare (key a) (key b) <;> simp⟩

theorem sort_sorted (l : List α) : (sort key l).Pairwise (before key) :=
  List.pairwise_insertionSort (before key) l

variable {key}

theorem compare_self_eq (k : κ) : compare k k = .eq := Std.ReflCmp.compare_self

theorem key_eq_of_before [Std.LawfulEqOrd κ] {a b : α} (hab : before key a b)
    (hba : before key b a) : key a = key b := by
  rw [before, Order.compare_swap (key a) (key b)] at hba
  rw [before] at hab
  cases hcompare : compare (key a) (key b) with
  | eq => exact Std.LawfulEqCmp.eq_of_compare hcompare
  | lt => rw [hcompare] at hba; cases hba
  | gt => rw [hcompare] at hab; cases hab

theorem key_eq_between [Std.LawfulEqOrd κ] {a b c : α} (hab : before key a b) (hbc : before key b c)
    (h : key a = key c) :
    key a = key b := by
  refine key_eq_of_before hab ?_
  rw [before, h]
  exact hbc

/-- Where values of one key are the same, the sorted list is that of any order. -/
theorem sort_eq_of_perm [Std.LawfulEqOrd κ] {l l' : List α} (hperm : l.Perm l')
    (hsame : ∀ a ∈ l, ∀ b ∈ l, key a = key b → a = b) : sort key l = sort key l' := by
  have hboth : (sort key l).Perm (sort key l') :=
    ((sort_perm key l).trans hperm).trans (sort_perm key l').symm
  refine List.Perm.eq_of_pairwise (fun a b ha hb hab hba => ?_) (sort_sorted key l)
    (sort_sorted key l') hboth
  have hb' : b ∈ l := hperm.mem_iff.2 ((mem_sort key).1 hb)
  exact hsame a ((mem_sort key).1 ha) b hb' (key_eq_of_before hab hba)

theorem Ascending.lt_trans {a b c : α} (hab : compare (key a) (key b) = .lt)
    (hbc : compare (key b) (key c) = .lt) :
    compare (key a) (key c) = .lt := Std.TransCmp.lt_trans hab hbc

theorem Ascending.nodup {l : List α} (h : Ascending key l) : (l.map key).Nodup := by
  rw [List.Nodup, List.pairwise_map]
  refine h.imp fun {a b} hlt heq => ?_
  rw [heq, compare_self_eq] at hlt
  cases hlt

/-- Ascending lists with the same keys in whatever order have them in the same order. -/
theorem Ascending.keys_eq [Std.LawfulEqOrd κ] {β : Type} {key' : β → κ} {l : List α} {l' : List β}
    (h : Ascending key l) (h' : Ascending key' l')
    (hperm : (l.map key).Perm (l'.map key')) : l.map key = l'.map key' := by
  have hlt : ∀ a b : κ, a ∈ l.map key → b ∈ l'.map key' → compare a b = .lt →
      compare b a = .lt → a = b := by
    intro a b _ _ hab hba
    rw [Order.compare_swap a b, hab] at hba
    cases hba
  exact List.Perm.eq_of_pairwise hlt (List.pairwise_map.2 h) (List.pairwise_map.2 h') hperm

end Sorting

section Clashes

/-- The key of the first neighbours that clash. -/
def firstClash (p : α → α → Bool) : List α → Option κ
  | a :: b :: rest => if p a b = true then some (key a) else firstClash p (b :: rest)
  | _ => none

/-- A clash is between values of one key, and a value that does not clash with another of its key
clashes with the same ones. -/
structure IsClash (p : α → α → Bool) : Prop where
  symm : ∀ a b, p a b = true → p b a = true
  same : ∀ a b, p a b = true → key a = key b
  alike : ∀ a b c, key a = key b → p a b = false → p a c = true → p b c = true

def Unclashing (p : α → α → Bool) (l : List α) : Prop := l.Pairwise fun a b => p a b = false

variable {key} {p : α → α → Bool}

theorem Unclashing.perm (hsymm : ∀ a b, p a b = true → p b a = true) {l l' : List α}
    (hperm : l.Perm l') (h : Unclashing p l) :
    Unclashing p l' := by
  refine (hperm.pairwise_iff fun {a b} hab => ?_).1 h
  by_contra hba
  rw [hsymm b a (Bool.eq_true_of_not_eq_false hba)] at hab
  cases hab

variable [Std.TransOrd κ] [Std.LawfulEqOrd κ]

theorem firstClash_none (hclash : IsClash key p) {l : List α} (hsorted : l.Pairwise (before key))
    (h : firstClash key p l = none) :
    Unclashing p l := by
  induction l with
  | nil => exact .nil
  | cons a rest ih =>
    cases rest with
    | nil => exact List.pairwise_singleton _ _
    | cons b rest =>
      rw [firstClash] at h
      split_ifs at h with hab
      obtain ⟨hfirst, hrest⟩ := List.pairwise_cons.1 hsorted
      have hapart := ih hrest h
      refine List.pairwise_cons.2 ⟨fun c hc => ?_, hapart⟩
      rcases List.mem_cons.1 hc with rfl | hc
      · exact Bool.eq_false_iff.2 hab
      · by_contra hac
        have hac : p a c = true := Bool.eq_true_of_not_eq_false hac
        have hkey := key_eq_between (hfirst b List.mem_cons_self)
          ((List.pairwise_cons.1 hrest).1 c hc) (hclash.same a c hac)
        have hbc := hclash.alike a b c hkey (Bool.eq_false_iff.2 hab) hac
        rw [(List.pairwise_cons.1 hapart).1 c hc] at hbc
        cases hbc

variable [DecidableEq κ]

/-- The first clash is at the least key that has one. -/
theorem firstClash_some (hclash : IsClash key p) {l : List α}
    (hsorted : l.Pairwise (before key)) {k : κ}
    (h : firstClash key p l = some k) : ¬ Unclashing p (l.filter fun a => key a = k) ∧
      ∀ k', compare k' k = .lt → Unclashing p (l.filter fun a => key a = k') := by
  induction l with
  | nil => cases h
  | cons a rest ih =>
    cases rest with
    | nil => cases h
    | cons b rest =>
      rw [firstClash] at h
      obtain ⟨hfirst, hrest⟩ := List.pairwise_cons.1 hsorted
      split_ifs at h with hab
      · obtain rfl := Option.some.inj h
        constructor
        · intro hapart
          rw [List.filter_cons_of_pos (by simp),
            List.filter_cons_of_pos (by simp [hclash.same a b hab])] at hapart
          have hnot := (List.pairwise_cons.1 hapart).1 b List.mem_cons_self
          rw [hab] at hnot
          cases hnot
        · intro k' hlt
          have hnone : (a :: b :: rest).filter (fun c => key c = k') = [] := by
            refine List.filter_eq_nil_iff.2 fun c hc => ?_
            rw [decide_eq_true_eq]
            rintro rfl
            have hle : before key a c := by
              rcases List.mem_cons.1 hc with rfl | hc
              · rw [before, compare_self_eq]
                rfl
              · exact hfirst c hc
            rw [before, Order.compare_swap (key c) (key a), hlt] at hle
            cases hle
          rw [hnone]
          exact .nil
      · obtain ⟨hat, hbelow⟩ := ih hrest h
        refine ⟨fun hapart => hat (hapart.sublist ((List.sublist_cons_self a _).filter _)),
          fun k' hlt => ?_⟩
        have hapart := hbelow k' hlt
        by_cases hkey : key a = k'
        · rw [List.filter_cons_of_pos (by simp [hkey])]
          refine List.pairwise_cons.2 ⟨fun c hc => ?_, hapart⟩
          obtain ⟨hc, hkc⟩ := List.mem_filter.1 hc
          rw [decide_eq_true_eq] at hkc
          rcases List.mem_cons.1 hc with rfl | hc
          · exact Bool.eq_false_iff.2 hab
          · by_contra hac
            have hac : p a c = true := Bool.eq_true_of_not_eq_false hac
            have hkb := key_eq_between (hfirst b List.mem_cons_self)
              ((List.pairwise_cons.1 hrest).1 c hc) (hkey.trans hkc.symm)
            have hbc := hclash.alike a b c hkb (Bool.eq_false_iff.2 hab) hac
            rw [List.filter_cons_of_pos (by simp [← hkb, hkey])] at hapart
            rw [(List.pairwise_cons.1 hapart).1 c (List.mem_filter.2 ⟨hc, by simp [hkc]⟩)] at hbc
            cases hbc
        · rw [List.filter_cons_of_neg (by simp [hkey])]
          exact hapart

/-- Which clash is found first does not depend on the order before the sort. -/
theorem firstClash_sort_perm (hclash : IsClash key p) {l l' : List α} (hperm : l.Perm l') :
    firstClash key p (sort key l) = firstClash key p (sort key l') := by
  have hboth : (sort key l).Perm (sort key l') :=
    ((sort_perm key l).trans hperm).trans (sort_perm key l').symm
  have hfilter : ∀ k :
      κ, ((sort key l).filter fun a => key a = k).Perm ((sort key l').filter fun a => key a = k) :=
    fun k => hboth.filter _
  cases h : firstClash key p (sort key l) with
  | none =>
    cases h' : firstClash key p (sort key l') with
    | none => rfl
    | some k' =>
      have hapart := (firstClash_none hclash (sort_sorted key l) h).perm hclash.symm hboth
      exact absurd (hapart.filter _) (firstClash_some hclash (sort_sorted key l') h').1
  | some k =>
    obtain ⟨hat, hbelow⟩ := firstClash_some hclash (sort_sorted key l) h
    cases h' : firstClash key p (sort key l') with
    | none =>
      have hapart := (firstClash_none hclash (sort_sorted key l') h').perm hclash.symm hboth.symm
      exact absurd (hapart.filter _) hat
    | some k' =>
      obtain ⟨hat', hbelow'⟩ := firstClash_some hclash (sort_sorted key l') h'
      cases hcompare : compare k k' with
      | eq => rw [Std.LawfulEqCmp.eq_of_compare hcompare]
      | lt => exact absurd ((hbelow' k hcompare).perm hclash.symm (hfilter k).symm) hat
      | gt =>
        have hlt : compare k' k = .lt := by rw [Order.compare_swap k k', hcompare]; rfl
        exact absurd ((hbelow k' hlt).perm hclash.symm (hfilter k')) hat'

end Clashes

section Firsts
variable [DecidableEq κ]

/-- Of neighbours of one key, the first. -/
def firsts (l : List α) : List α := l.destutter fun a b => key a ≠ key b

omit [Ord κ] in
theorem firsts_sublist (l : List α) : (firsts key l).Sublist l := List.destutter_sublist _ l

variable [Std.TransOrd κ] [Std.LawfulEqOrd κ]

/-- Of a sorted list, one value of each key is left. -/
theorem firsts_ascending {l : List α} (hsorted : l.Pairwise (before key)) :
    Ascending key (firsts key l) := by
  have hbefore : (firsts key l).Pairwise (before key) := hsorted.sublist (firsts_sublist key l)
  have hne : (firsts key l).IsChain fun a b => key a ≠ key b := List.isChain_destutter _ l
  have hchain : (firsts key l).IsChain fun a b => compare (key a) (key b) = .lt := by
    rw [List.isChain_iff_getElem] at hne ⊢
    intro i hi
    exact lt_of_before
      (List.pairwise_iff_getElem.1 hbefore i (i + 1) (by omega) hi (by omega)) (hne i hi)
  have htrans : IsTrans α fun a b => compare (key a) (key b) = .lt :=
    ⟨fun _ _ _ => Ascending.lt_trans⟩
  exact hchain.pairwise

end Firsts

section Index
variable [Std.TransOrd κ]

/-- A map of the values by their keys. -/
def Indexes (l : List α) (m : Std.ExtTreeMap κ α) : Prop :=
  ∀ k v, m[k]? = some v ↔ v ∈ l ∧ key v = k

theorem Indexes.empty : Indexes key [] ∅ := by
  intro k v
  rw [Std.ExtTreeMap.getElem?_empty]
  simp

variable {key} {l : List α} {m : Std.ExtTreeMap κ α}

theorem Indexes.mem_iff [DecidableEq κ] (h : Indexes key l m) (k : κ) : k ∈ m ↔ k ∈ l.map key := by
  rw [← Std.ExtTreeMap.isSome_getElem?_iff_mem, Option.isSome_iff_exists, List.mem_map]
  exact exists_congr fun v => h k v

variable [Std.LawfulEqOrd κ]

theorem Indexes.insert [DecidableEq κ] (h : Indexes key l m) {a : α} (hfresh : key a ∉ m) :
    Indexes key (a :: l) (m.insert (key a) a) := by
  intro k v
  rw [Std.ExtTreeMap.getElem?_insert, List.mem_cons]
  split_ifs with hk
  · obtain rfl := Std.LawfulEqOrd.compare_eq_iff_eq.1 hk
    constructor
    · intro hv
      obtain rfl := Option.some.inj hv
      exact ⟨.inl rfl, rfl⟩
    · rintro ⟨rfl | hmem, hkey⟩
      · rfl
      · exact absurd ((h.mem_iff (key a)).2 (List.mem_map.2 ⟨v, hmem, hkey⟩)) hfresh
  · rw [h k v]
    constructor
    · exact fun hv => ⟨.inr hv.1, hv.2⟩
    · rintro ⟨rfl | hmem, hkey⟩
      · exact absurd (Std.LawfulEqOrd.compare_eq_iff_eq.2 hkey) hk
      · exact ⟨hmem, hkey⟩

omit [Std.LawfulEqOrd κ] in
theorem Indexes.congr {l' : List α} (h : Indexes key l m) (hmem : ∀ a, a ∈ l ↔ a ∈ l') :
    Indexes key l' m := by
  intro k v
  rw [h k v, hmem v]

/-- The values of two such maps are the same where those of the lists are. -/
theorem Indexes.eq_of_mem_iff {l' : List α} {m' : Std.ExtTreeMap κ α} (h : Indexes key l m)
    (h' : Indexes key l' m') (hmem : ∀ a, a ∈ l ↔ a ∈ l') : m = m' := by
  refine Std.ExtTreeMap.ext_getElem? fun k => Option.ext fun v => ?_
  rw [h k v, h' k v, hmem v]

theorem Indexes.mem_values (h : Indexes key l m) (v : α) : v ∈ m.values ↔ v ∈ l := by
  rw [OrderedMap.values_eq, List.mem_map]
  constructor
  · rintro ⟨entry, hentry, rfl⟩
    exact ((h entry.1 entry.2).1 (Std.ExtTreeMap.mem_toList_iff_getElem?_eq_some.1 hentry)).1
  · exact fun hv => ⟨(key v, v),
      Std.ExtTreeMap.mem_toList_iff_getElem?_eq_some.2 ((h (key v) v).2 ⟨hv, rfl⟩), rfl⟩

theorem Indexes.values_ascending (h : Indexes key l m) : Ascending key m.values := by
  rw [OrderedMap.values_eq, Ascending, List.pairwise_map]
  refine (Std.ExtTreeMap.ordered_keys_toList ).imp_of_mem fun {a b} ha hb hlt => ?_
  rw [((h a.1 a.2).1 (Std.ExtTreeMap.mem_toList_iff_getElem?_eq_some.1 ha)).2,
    ((h b.1 b.2).1 (Std.ExtTreeMap.mem_toList_iff_getElem?_eq_some.1 hb)).2]
  exact hlt

end Index

end Keyed
