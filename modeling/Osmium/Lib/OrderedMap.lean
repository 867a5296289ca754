import Osmium.Lib.Order

/-! Extensional ordered maps with one entry replaced: the keys stay, and a sum over the entries
changes by the difference at that key and by nothing else. -/

namespace OrderedMap
variable {α β γ : Type} [Ord α] [Std.TransOrd α] [Std.LawfulEqOrd α]

theorem nodup_toList (m : Std.ExtTreeMap α β) : m.toList.Nodup := by
  have hdistinct := Std.ExtTreeMap.distinct_keys_toList (t := m)
  refine hdistinct.imp fun h heq => h ?_
  rw [heq]
  exact Std.ReflCmp.compare_self

omit [Std.LawfulEqOrd α] in
theorem values_eq (m : Std.ExtTreeMap α β) : m.values = m.toList.map Prod.snd := by
  obtain ⟨⟨inner⟩⟩ := m
  induction inner using Quotient.inductionOn with
  | h tree =>
    change tree.inner.values = (Std.DTreeMap.Internal.Impl.Const.toList tree.inner).map Prod.snd
    rw [Std.DTreeMap.Internal.Impl.values_eq_map_snd,
      Std.DTreeMap.Internal.Impl.Const.toList_eq_toListModel_map, List.map_map]
    rfl

theorem ofList_toList [DecidableEq α] (m : Std.ExtTreeMap α β) :
    Std.ExtTreeMap.ofList m.toList = m := by
  refine Std.ExtTreeMap.ext_getElem? fun k => ?_
  cases h : m[k]? with
  | some v =>
    have hmem := Std.ExtTreeMap.mem_toList_iff_getElem?_eq_some.2 h
    exact Std.ExtTreeMap.getElem?_ofList_of_mem Std.ReflCmp.compare_self
      Std.ExtTreeMap.distinct_keys_toList hmem
  | none =>
    refine Std.ExtTreeMap.getElem?_ofList_of_contains_eq_false ?_
    rw [Std.ExtTreeMap.map_fst_toList_eq_keys]
    simpa using h

theorem foldl_insert_toList [DecidableEq α] (m : Std.ExtTreeMap α β) :
    m.toList.foldl (fun m entry => m.insert entry.1 entry.2) (∅ : Std.ExtTreeMap α β) = m := by
  rw [← Std.ExtTreeMap.ofList_eq_foldl, ofList_toList]

theorem forall_foldl_insert [DecidableEq α] {p : α → β → Prop} {l : List (α × β)}
    {m : Std.ExtTreeMap α β}
    (hm : ∀ k v, m[k]? = some v → p k v) (hl : ∀ entry ∈ l, p entry.1 entry.2) :
    ∀ k v, (l.foldl (fun m entry => m.insert entry.1 entry.2) m)[k]? = some v → p k v := by
  induction l generalizing m with
  | nil => exact hm
  | cons entry rest ih =>
    refine ih (fun k v hv => ?_) fun other hother => hl other (List.mem_cons_of_mem _ hother)
    rw [Std.ExtTreeMap.getElem?_insert] at hv
    split_ifs at hv with hk
    · obtain rfl := Std.LawfulEqOrd.compare_eq_iff_eq.1 hk
      obtain rfl := Option.some.inj hv
      exact hl entry List.mem_cons_self
    · exact hm k v hv

/-- The entry at a key, and the others. -/
theorem toList_perm_cons_erase [DecidableEq α] {m : Std.ExtTreeMap α β} {k : α} {v : β}
    (h : m[k]? = some v) :
    m.toList.Perm ((k, v) :: (m.erase k).toList) := by
  have hfresh : (k, v) ∉ (m.erase k).toList := by
    rw [Std.ExtTreeMap.mem_toList_iff_getElem?_eq_some, Std.ExtTreeMap.getElem?_erase_self]
    exact Option.some_ne_none v ∘ Eq.symm
  rw [List.perm_ext_iff_of_nodup (nodup_toList m) (List.nodup_cons.2 ⟨hfresh, nodup_toList _⟩)]
  rintro ⟨k', v'⟩
  rw [List.mem_cons, Std.ExtTreeMap.mem_toList_iff_getElem?_eq_some,
    Std.ExtTreeMap.mem_toList_iff_getElem?_eq_some, Std.ExtTreeMap.getElem?_erase]
  by_cases hk : k = k'
  · subst hk
    simp [h, eq_comm]
  · have hne : ¬ compare k k' = .eq := fun hcmp => hk (Std.LawfulEqCmp.eq_of_compare hcmp)
    simp [hne, Ne.symm hk]

theorem insert_erase [DecidableEq α] (m : Std.ExtTreeMap α β) (k : α) (w : β) :
    (m.insert k w).erase k = m.erase k := by
  apply Std.ExtTreeMap.ext_getElem?
  intro k'
  rw [Std.ExtTreeMap.getElem?_erase, Std.ExtTreeMap.getElem?_erase, Std.ExtTreeMap.getElem?_insert]
  split_ifs <;> rfl

/-- Maps with an entry at the same keys list the same keys. -/
theorem keys_congr [DecidableEq α] {m : Std.ExtTreeMap α β} {m' : Std.ExtTreeMap α γ}
    (h : ∀ k, k ∈ m ↔ k ∈ m') :
    m.keys = m'.keys := by
  have hanti : ∀ a b : α, a ∈ m.keys → b ∈ m'.keys → compare a b = .lt →
      compare b a = .lt → a = b := by
    intro a b _ _ hab hba
    rw [Order.compare_swap a b, hab] at hba
    cases hba
  refine List.Perm.eq_of_pairwise hanti Std.ExtTreeMap.ordered_keys Std.ExtTreeMap.ordered_keys ?_
  refine (List.perm_ext_iff_of_nodup Std.ExtTreeMap.nodup_keys Std.ExtTreeMap.nodup_keys).2 fun k =>
    ?_
  rw [Std.ExtTreeMap.mem_keys, Std.ExtTreeMap.mem_keys, h]

theorem keys_insert_of_mem [DecidableEq α] {m : Std.ExtTreeMap α β} {k : α} (h : k ∈ m) (w : β) :
    (m.insert k w).keys = m.keys := by
  refine keys_congr fun k' => ?_
  rw [Std.ExtTreeMap.mem_insert]
  refine or_iff_right_of_imp fun hk => ?_
  rwa [← Std.LawfulEqCmp.eq_of_compare hk]

/-- Replacing an entry moves a sum over the map by the difference at that entry. -/
theorem sum_insert [DecidableEq α] [AddCommMonoid γ] (f : α × β → γ) {m : Std.ExtTreeMap α β}
    {k : α} {v : β} (w : β) (h : m[k]? = some v) : ((m.insert k w).toList.map f).sum + f (k, v) =
      (m.toList.map f).sum + f (k, w) := by
  have hnew :=
    toList_perm_cons_erase (Std.ExtTreeMap.getElem?_insert_self (t := m) (k := k) (v := w))
  rw [insert_erase] at hnew
  rw [(hnew.map f).sum_eq, ((toList_perm_cons_erase h).map f).sum_eq, List.map_cons, List.map_cons,
    List.sum_cons, List.sum_cons]
  abel

end OrderedMap
