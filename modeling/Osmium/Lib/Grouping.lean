import Mathlib.Data.List.Perm.Basic
import Osmium.Lib.Order

/-! Grouping a list by key: the groups as blocks of the list, and as the lists a fold collects in an
ordered map. -/

namespace Grouping
variable {α β κ : Type}

section Blocks
variable [DecidableEq κ]

/-- The blocks of distinct keys make up the part of the list with those keys. -/
theorem perm_flatMap_filter (key : α → κ) (p : α → Bool) (l : List α) {keys : List κ}
    (h : keys.Nodup) :
    (keys.flatMap fun k => l.filter fun a => p a && key a = k).Perm
      (l.filter fun a => p a && key a ∈ keys) := by
  induction keys with
  | nil => simp
  | cons k keys ih =>
    obtain ⟨hnotin, hrest⟩ := List.nodup_cons.1 h
    have hsplit :=
      List.filter_append_perm (fun a => key a = k) (l.filter fun a => p a && key a ∈ k :: keys)
    rw [List.filter_filter, List.filter_filter] at hsplit
    have hown : (l.filter fun a => decide (key a = k) && (p a && decide (key a ∈ k :: keys))) =
        l.filter fun a => p a && key a = k := List.filter_congr fun a _ => by
      by_cases hk : key a = k <;> simp [hk]
    have hothers : (l.filter fun a => !decide (key a = k) && (p a && decide (key a ∈ k :: keys))) =
        l.filter fun a => p a && key a ∈ keys := List.filter_congr fun a _ => by
      by_cases hk : key a = k
      · simp [hk, hnotin]
      · simp [hk]
    rw [hown, hothers] at hsplit
    rw [List.flatMap_cons]
    exact ((ih hrest).append_left _).trans hsplit

/-- A block that was empty is filled. -/
theorem perm_flatMap_fill [DecidableEq α] {l : List α} {a : α} (ha : a ∈ l) (hnodup : l.Nodup)
    {f g : α → List β} (hsame : ∀ x, x ≠ a → g x = f x) (hnone : f a = []) :
    (l.flatMap g).Perm (g a ++ l.flatMap f) := by
  have hperm := List.perm_cons_erase ha
  have hrest : (l.erase a).flatMap g = (l.erase a).flatMap f :=
    List.flatMap_congr fun x hx => hsame x fun heq => (hnodup.not_mem_erase (heq ▸ hx))
  refine (hperm.flatMap_right g).trans ?_
  rw [List.flatMap_cons, hrest]
  refine List.Perm.append_left _ ?_
  have hback := (hperm.flatMap_right f).symm
  rwa [List.flatMap_cons, hnone, List.nil_append] at hback

end Blocks

section Collect
variable [Ord κ] [Std.TransOrd κ] [Std.LawfulEqOrd κ] (p : α → Bool) (key : α → κ) (value : α → β)

/-- Puts one element to the end of the list of its key. -/
def collect (m : Std.ExtTreeMap κ (List β)) (a : α) : Std.ExtTreeMap κ (List β) :=
  if p a = true then m.insert (key a) (m[key a]?.getD [] ++ [value a]) else m

theorem mem_collect (l : List α) (m : Std.ExtTreeMap κ (List β)) (k : κ) :
    k ∈ l.foldl (collect p key value) m ↔ k ∈ m ∨ ∃ a ∈ l, p a = true ∧ key a = k := by
  induction l generalizing m with
  | nil => simp
  | cons a l ih =>
    rw [List.foldl_cons, ih, List.exists_mem_cons_iff]
    unfold collect
    by_cases hp : p a = true
    · rw [if_pos hp, Std.ExtTreeMap.mem_insert, Std.LawfulEqCmp.compare_eq_iff_eq]
      simp only [hp, true_and]
      tauto
    · simp [hp]

variable [DecidableEq κ]

theorem getD_collect (l : List α) (m : Std.ExtTreeMap κ (List β)) (k : κ) :
    (l.foldl (collect p key value) m)[k]?.getD [] =
      m[k]?.getD [] ++ (l.filter fun a => p a && key a = k).map value := by
  induction l generalizing m with
  | nil => simp
  | cons a l ih =>
    rw [List.foldl_cons, ih, List.filter_cons]
    unfold collect
    by_cases hp : p a = true
    · by_cases hk : key a = k
      · subst hk
        simp [hp, List.append_assoc]
      · have hne : ¬ compare (key a) k = .eq := fun h => hk (Std.LawfulEqCmp.eq_of_compare h)
        simp [hp, hk, hne, Std.ExtTreeMap.getElem?_insert]
    · simp [hp]

end Collect

end Grouping
