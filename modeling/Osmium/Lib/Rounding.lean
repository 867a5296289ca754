import Mathlib.Algebra.Order.Round
import Mathlib.Data.Rat.Floor
import Mathlib.Tactic

/-! Rounding twice. A number rounded to a unit and then to a multiple of that unit is rounded as if
only the second rounding had been made when both go down, or both go up. When both go to the nearest
they can disagree with the single rounding on one stretch below each tie: half a unit long, where
the first rounding reaches the tie. -/

namespace Rounding
variable {K : Type} [Field K] [LinearOrder K] [IsStrictOrderedRing K] [FloorRing K]

theorem floor_floor_div (x : K) {q : ℤ} (hq : 0 < q) : ⌊(⌊x⌋ : K) / q⌋ = ⌊x / q⌋ := by
  rw [Int.floor_div_cast_of_nonneg hq.le, Int.floor_div_cast_of_nonneg hq.le, Int.floor_intCast]

theorem ceil_ceil_div (x : K) {q : ℤ} (hq : 0 < q) : ⌈(⌈x⌉ : K) / q⌉ = ⌈x / q⌉ := by
  have h := floor_floor_div (-x) hq
  rw [Int.floor_neg, Int.cast_neg, neg_div, neg_div, Int.floor_neg, Int.floor_neg] at h
  exact neg_injective h

/-- The stretch below the tie between `k` and `k + 1`, in a grid of `2 * h` units, that the first
rounding takes to the tie. -/
def BelowTie (h k : ℤ) (x : K) : Prop := (2 * k + 1) * h - 1 / 2 ≤ x ∧ x < (2 * k + 1) * h

theorem round_round_div_of_belowTie {x : K} {h k : ℤ} (hh : 0 < h) (hx : BelowTie h k x) :
    round ((round x : K) / (2 * h)) = k + 1 ∧ round (x / (2 * h)) = k := by
  have hK : (0 : K) < h := by exact_mod_cast hh
  obtain ⟨hlow, hhigh⟩ := hx
  have htie : round x = (2 * k + 1) * h := by
    rw [round_eq_iff, Set.mem_Ico]
    push_cast
    exact ⟨hlow, by linarith⟩
  have h1 : (1 : K) ≤ h := by exact_mod_cast hh
  refine ⟨?_, ?_⟩
  · rw [htie, round_eq_iff, Set.mem_Ico]
    push_cast
    rw [le_div_iff₀ (by linarith), div_lt_iff₀ (by linarith)]
    exact ⟨by linarith, by nlinarith⟩
  · rw [round_eq_iff, Set.mem_Ico, le_div_iff₀ (by linarith), div_lt_iff₀ (by linarith)]
    exact ⟨by nlinarith, by linarith⟩

theorem round_round_div_of_not_belowTie {x : K} {h : ℤ} (hh : 0 < h) (hx : ∀ k, ¬ BelowTie h k x) :
    round ((round x : K) / (2 * h)) = round (x / (2 * h)) := by
  have hK : (0 : K) < h := by exact_mod_cast hh
  set k := round (x / (2 * h)) with hk
  obtain ⟨hlow, hhigh⟩ := Set.mem_Ico.1 (round_eq_iff.1 hk.symm)
  rw [le_div_iff₀ (by linarith)] at hlow
  rw [div_lt_iff₀ (by linarith)] at hhigh
  obtain ⟨hlow', hhigh'⟩ := Set.mem_Ico.1 (round_eq_iff.1 (rfl : round x = round x))
  -- both ends of the interval are whole units, so the first rounding leaves it at the upper end
  -- only
  have hleft : (2 * k - 1) * h ≤ round x := by
    have : (((2 * k - 1) * h : ℤ) : K) < ((round x + 1 : ℤ) : K) := by
      push_cast
      linarith
    have := Int.cast_lt.1 this
    omega
  have hright : round x < (2 * k + 1) * h := by
    by_contra hge
    have hge' : (((2 * k + 1) * h : ℤ) : K) ≤ (round x : K) := Int.cast_le.2 (not_lt.1 hge)
    push_cast at hge'
    exact hx k ⟨by linarith, by linarith⟩
  have hleft' : ((2 * k - 1) * h : K) ≤ round x := by exact_mod_cast hleft
  have hright' : (round x : K) < (2 * k + 1) * h := by exact_mod_cast hright
  rw [round_eq_iff, Set.mem_Ico, le_div_iff₀ (by linarith), div_lt_iff₀ (by linarith)]
  exact ⟨by linarith, by linarith⟩

section Quotients

omit [IsStrictOrderedRing K] in
/-- The truncated quotient of a positive divisor, with the remainder's share of it. -/
theorem div_eq_tdiv_add (n : ℤ) {d : ℤ} (hd : 0 < d) : (n / d : K) = n.tdiv d + n.tmod d / d := by
  have hK : (d : K) ≠ 0 := by exact_mod_cast hd.ne'
  have h : ((n.tmod d + d * n.tdiv d : ℤ) : K) = n := by rw [Int.tmod_add_mul_tdiv]
  push_cast at h
  rw [eq_comm, ← h]
  field_simp
  ring

theorem floor_div_of_nonneg {n d : ℤ} (hn : 0 ≤ n) (hd : 0 < d) : ⌊(n / d : K)⌋ = n.tdiv d := by
  rw [Int.floor_div_cast_of_nonneg hd.le, Int.floor_intCast, Int.tdiv_eq_ediv_of_nonneg hn]

theorem ceil_div_of_nonneg {n d : ℤ} (hn : 0 ≤ n) (hd : 0 < d) (hrem : n.tmod d ≠ 0) :
    ⌈(n / d : K)⌉ = n.tdiv d + 1 := by
  have hK : (0 : K) < d := by exact_mod_cast hd
  have hpos : (0 : K) < n.tmod d := by
    have := Int.tmod_nonneg d hn
    exact_mod_cast lt_of_le_of_ne this hrem.symm
  have hlt : (n.tmod d : K) < d := by exact_mod_cast Int.tmod_lt_of_pos n hd
  rw [div_eq_tdiv_add n hd, Int.ceil_intCast_add, add_right_inj, Int.ceil_eq_iff]
  push_cast
  rw [sub_self, div_le_one hK]
  exact ⟨div_pos hpos hK, hlt.le⟩

theorem round_div_of_nonneg {n d : ℤ} (hn : 0 ≤ n) (hd : 0 < d) :
    round (n / d : K) = n.tdiv d + if d ≤ 2 * n.tmod d then 1 else 0 := by
  have hK : (0 : K) < d := by exact_mod_cast hd
  have hnonneg : (0 : K) ≤ n.tmod d := by exact_mod_cast Int.tmod_nonneg d hn
  have hlt : (n.tmod d : K) < d := by exact_mod_cast Int.tmod_lt_of_pos n hd
  rw [div_eq_tdiv_add n hd, round_intCast_add, add_right_inj, round_eq_iff, Set.mem_Ico,
    le_div_iff₀ hK, div_lt_iff₀ hK]
  by_cases hhalf : d ≤ 2 * n.tmod d
  · have : (d : K) ≤ 2 * n.tmod d := by exact_mod_cast hhalf
    rw [if_pos hhalf]
    push_cast
    exact ⟨by linarith, by linarith⟩
  · have : (2 * n.tmod d : K) < d := by exact_mod_cast not_le.1 hhalf
    rw [if_neg hhalf]
    push_cast
    exact ⟨by linarith, by linarith⟩

end Quotients

end Rounding
