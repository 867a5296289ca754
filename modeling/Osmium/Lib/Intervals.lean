import Mathlib.Data.List.Destutter
import Mathlib.Data.List.Find
import Mathlib.Order.Defs.LinearOrder

/-! Half-open intervals of a linear order that do not meet. Sorted by their starts each ends before
the next begins, and a point lies in one of them at most, so that it does not matter in which order
they are searched. -/

namespace Intervals
variable {α β κ : Type} [LinearOrder κ] {start finish : α → κ} {l : List α}

def Apart (start finish : α → κ) (a b : α) : Prop := finish a ≤ start b ∨ finish b ≤ start a

instance : Std.Symm (Apart start finish) := ⟨fun _ _ => Or.symm⟩

theorem ordered_of_sorted {sorted : List α} (hapart : l.Pairwise (Apart start finish))
    (hperm : sorted.Perm l)
    (hsorted : sorted.Pairwise fun a b => start a ≤ start b) (hpositive : ∀ a, start a < finish a) :
    sorted.Pairwise fun a b => finish a ≤ start b := by
  have hapart' : sorted.Pairwise (Apart start finish) :=
    (hperm.pairwise_iff fun h => Or.symm h).2 hapart
  refine (hsorted.and hapart').imp ?_
  rintro a b ⟨hle, hab | hba⟩
  · exact hab
  · exact absurd (hba.trans hle) (not_le.2 (hpositive b))

theorem eq_of_mem {a b : α} {t : κ} (hapart : l.Pairwise (Apart start finish)) (ha : a ∈ l)
    (hb : b ∈ l) (hat : start a ≤ t ∧ t < finish a) (hbt : start b ≤ t ∧ t < finish b) : a = b := by
  by_contra hne
  rcases hapart.forall ha hb hne with hab | hba
  · exact absurd (hab.trans hbt.1) (not_le.2 hat.2)
  · exact absurd (hba.trans hat.1) (not_le.2 hbt.2)

/-- Searching two lists that describe the same things, where at most one thing fits. -/
theorem find?_of_perm {γ : Type} {f : α → γ} {g : β → γ} {p : γ → Bool} {m : List β}
    (h : (l.map f).Perm (m.map g))
    (hunique : ∀ a ∈ m, ∀ b ∈ m, p (g a) = true → p (g b) = true → a = b) :
    (l.find? (p ∘ f)).map f = (m.find? (p ∘ g)).map g := by
  rw [← List.find?_map, ← List.find?_map]
  refine (List.find?_eq_find?_of_perm h.symm ?_).symm
  rintro x ⟨hx, hpx⟩ y ⟨hy, hpy⟩
  obtain ⟨a, ha, rfl⟩ := List.mem_map.1 hx
  obtain ⟨b, hb, rfl⟩ := List.mem_map.1 hy
  rw [hunique a ha b hb hpx hpy]

/-- A sorted list without equal neighbours has no repetitions. -/
theorem nodup_of_isChain_ne {r : α → α → Prop} (hanti : ∀ a b, r a b → r b a → a = b)
    (hsorted : l.Pairwise r) (hchain : l.IsChain (· ≠ ·)) : l.Nodup := by
  induction l with
  | nil => exact List.nodup_nil
  | cons a l ih =>
    obtain ⟨hhead, htail⟩ := List.pairwise_cons.1 hsorted
    refine List.nodup_cons.2 ⟨fun hmem => ?_, ih htail hchain.tail⟩
    rcases l with _ | ⟨b, l⟩
    · cases hmem
    have hne : a ≠ b := (List.isChain_cons_cons.1 hchain).1
    rcases List.mem_cons.1 hmem with rfl | hmem
    · exact hne rfl
    -- a second `a` would come after `b`
    · exact hne (hanti a b (hhead b List.mem_cons_self) ((List.pairwise_cons.1 htail).1 a hmem))

end Intervals
