import Mathlib.Algebra.BigOperators.Group.List.Basic
import Mathlib.Data.List.Zip
import Mathlib.Tactic

/-! Serving demands in order from a limited supply. Each demand gets what it asks for while the
supply lasts, so that what is served depends on the supply and the demands only: serving in rounds,
or adding a demand at the end, comes to the same. -/

namespace Allotment

/-- What each demand gets. -/
def allot : ℕ → List ℕ → List ℕ
  | _, [] => []
  | supply, demand :: demands => min supply demand :: allot (supply - demand) demands

@[simp] theorem allot_nil (supply : ℕ) : allot supply [] = [] := rfl

@[simp] theorem allot_cons (supply demand : ℕ) (demands : List ℕ) :
    allot supply (demand :: demands) = min supply demand :: allot (supply - demand) demands := rfl

@[simp] theorem length_allot (supply : ℕ) (demands : List ℕ) :
    (allot supply demands).length = demands.length := by
  induction demands generalizing supply with
  | nil => rfl
  | cons demand demands ih => rw [allot_cons, List.length_cons, List.length_cons, ih]

theorem allot_append (supply : ℕ) (demands more : List ℕ) :
    allot supply (demands ++ more) = allot supply demands ++ allot (supply - demands.sum) more := by
  induction demands generalizing supply with
  | nil => simp
  | cons demand demands ih =>
    rw [List.cons_append, allot_cons, allot_cons, ih, List.sum_cons, Nat.sub_sub, List.cons_append]

/-- Supply beyond the demands is of no use. -/
theorem allot_min_sum (supply : ℕ) (demands : List ℕ) :
    allot (min supply demands.sum) demands = allot supply demands := by
  induction demands generalizing supply with
  | nil => rfl
  | cons demand demands ih =>
    have hrest : min supply (demand + demands.sum) - demand =
        min (supply - demand) demands.sum := by omega
    have hhead : min (min supply (demand + demands.sum)) demand = min supply demand := by omega
    rw [List.sum_cons, allot_cons, allot_cons, hrest, hhead, ih]

/-- Nothing is served without supply, or without demand. -/
theorem eq_zero_of_mem_allot {supply : ℕ} {demands : List ℕ}
    (h : supply = 0 ∨ ∀ demand ∈ demands, demand = 0) :
    ∀ served ∈ allot supply demands, served = 0 := by
  induction demands generalizing supply with
  | nil => simp
  | cons demand demands ih =>
    rw [allot_cons, List.forall_mem_cons]
    rcases h with rfl | hzero
    · exact ⟨Nat.zero_min _, ih (.inl (Nat.zero_sub _))⟩
    · rw [List.forall_mem_cons] at hzero
      exact ⟨by omega, ih (.inr hzero.2)⟩

theorem zipWith_add_of_zero {served more : List ℕ} (hlength : served.length = more.length)
    (h : ∀ m ∈ more, m = 0) :
    List.zipWith (· + ·) served more = served := by
  induction served generalizing more with
  | nil => rfl
  | cons first served ih =>
    rcases more with _ | ⟨m, more⟩
    · simp at hlength
    · rw [List.forall_mem_cons] at h
      rw [List.zipWith_cons_cons, h.1, Nat.add_zero, ih (by simpa using hlength) h.2]

/-- What is left of each demand. -/
def left (supply : ℕ) (demands : List ℕ) : List ℕ :=
  List.zipWith (· - ·) demands (allot supply demands)

theorem left_cons (supply demand : ℕ) (demands : List ℕ) :
    left supply (demand :: demands) = (demand - supply) :: left (supply - demand) demands := by
  have : demand - min supply demand = demand - supply := by omega
  rw [left, allot_cons, List.zipWith_cons_cons, this]
  rfl

/-- A second supply serves what the first has left. -/
theorem allot_add (supply more : ℕ) (demands : List ℕ) :
    allot (supply + more) demands =
      List.zipWith (· + ·) (allot supply demands) (allot more (left supply demands)) := by
  induction demands generalizing supply more with
  | nil => rfl
  | cons demand demands ih =>
    rw [left_cons, allot_cons, allot_cons, allot_cons, List.zipWith_cons_cons, ← ih]
    have hhead : min (supply + more) demand =
        min supply demand + min more (demand - supply) := by omega
    have hrest : supply + more - demand = supply - demand + (more - (demand - supply)) := by omega
    rw [hhead, hrest]

theorem sum_left (supply : ℕ) (demands : List ℕ) :
    (left supply demands).sum = demands.sum - supply := by
  induction demands generalizing supply with
  | nil => simp [left]
  | cons demand demands ih =>
    rw [left_cons, List.sum_cons, List.sum_cons, ih]
    omega

end Allotment
