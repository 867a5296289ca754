import Osmium.Lib.Bytes

/-! Orders for map keys. A type ordered by an injective key inherits a lawful comparison, which is
what extensional ordered maps ask of their keys. -/

namespace Order
variable {α β : Type}

theorem transCmp_of_key [Ord β] [Std.TransOrd β] (cmp : α → α → Ordering) (key : α → β)
    (h : ∀ a b, cmp a b = compare (key a) (key b)) : Std.TransCmp cmp := by
  obtain rfl : cmp = compareOn key := by funext a b; exact h a b
  infer_instance

theorem lawfulEqCmp_of_key [Ord β] [Std.LawfulEqOrd β] (cmp : α → α → Ordering) (key : α → β)
    (h : ∀ a b, cmp a b = compare (key a) (key b)) (inj : Function.Injective key) :
    Std.LawfulEqCmp cmp where
  compare_self := by intro a; rw [h]; exact Std.ReflCmp.compare_self
  eq_of_compare {a b} hab := by
    rw [h] at hab
    exact inj (Std.LawfulEqCmp.eq_of_compare hab)

instance (priority := low) instLawfulEqOrdOfLinearOrder [LinearOrder α] : Std.LawfulEqOrd α where
  compare_self := compare_eq_iff_eq.2 rfl
  eq_of_compare h := compare_eq_iff_eq.1 h

theorem compare_swap [Ord α] [Std.TransOrd α] (a b : α) : compare b a = (compare a b).swap :=
  Std.OrientedOrd.eq_swap

/-- A lawful comparison is a linear order. -/
abbrev linearOrderOfOrd (α : Type) [DecidableEq α] [Ord α] [Std.TransOrd α] [Std.LawfulEqOrd α] :
    LinearOrder α where
  le a b := (compare a b).isLE = true
  lt a b := compare a b = .lt
  le_refl a := by simp
  le_trans _ _ _ := Std.TransCmp.isLE_trans
  lt_iff_le_not_ge a b := by
    rw [compare_swap a b]
    cases compare a b <;> simp
  le_antisymm a b hab hba := by
    rw [compare_swap a b] at hba
    cases h : compare a b with
    | lt => simp [h] at hba
    | eq => exact Std.LawfulEqCmp.eq_of_compare h
    | gt => simp [h] at hab
  le_total a b := by
    rw [compare_swap a b]
    cases compare a b <;> simp
  toDecidableLE a b := inferInstanceAs (Decidable (_ = true))
  toDecidableLT a b := inferInstanceAs (Decidable (_ = Ordering.lt))
  toDecidableEq := inferInstance
  compare_eq_compareOfLessAndEq a b := by
    change compare a b = if compare a b = .lt then .lt else if a = b then .eq else .gt
    split_ifs with hlt heq
    · exact hlt
    · subst heq
      exact Std.ReflCmp.compare_self
    · cases h : compare a b with
      | lt => exact absurd h hlt
      | eq => exact absurd (Std.LawfulEqCmp.eq_of_compare h) heq
      | gt => rfl

section Bytes
open Bytes

/-- Texts and digests are ordered by their bytes. -/
instance : Ord Text := ⟨fun a b => compare a.bytes b.bytes⟩

instance : Ord Digest := ⟨fun a b => compare a.bytes b.bytes⟩

instance : Std.TransOrd Text := transCmp_of_key _ Text.bytes fun _ _ => rfl

instance : Std.LawfulEqOrd Text :=
  lawfulEqCmp_of_key _ Text.bytes (fun _ _ => rfl) fun _ _ h => Text.ext h

instance : Std.TransOrd Digest := transCmp_of_key _ Digest.bytes fun _ _ => rfl

instance : Std.LawfulEqOrd Digest :=
  lawfulEqCmp_of_key _ Digest.bytes (fun _ _ => rfl) fun _ _ h => Digest.ext h

end Bytes

end Order
