import Osmium.Spec.Depth

/-! A sweep takes no more than was asked and, at each level, no more than is displayed and not yet
consumed. Where consumption is within what is displayed, the sweep never reports that it is not. -/

namespace Osmium
open Machine Result

/-- The quantity a list of fills takes in all. -/
def filledTotal (fills : List LevelFill) : ℕ := (fills.map fun fill => fill.quantity.value.val).sum

/-- The quantity a list of fills takes at one level. -/
def takenAt (fills : List LevelFill) (levelIndex : ℕ) : ℕ :=
  filledTotal (fills.filter fun fill => fill.levelIndex = levelIndex)

@[simp] theorem filledTotal_nil : filledTotal [] = 0 := rfl

@[simp] theorem takenAt_nil (k : ℕ) : takenAt [] k = 0 := rfl

@[simp] theorem filledTotal_cons (fill : LevelFill) (fills : List LevelFill) :
    filledTotal (fill :: fills) = fill.quantity.value.val + filledTotal fills := by
  simp [filledTotal]

theorem filledTotal_eq_zero (fills : List LevelFill) : filledTotal fills = 0 ↔ fills = [] := by
  cases fills with
  | nil => simp
  | cons fill rest =>
    have hpos := fill.quantity.pos
    simp only [filledTotal_cons, reduceCtorEq, iff_false]
    omega

theorem takenAt_cons (fill : LevelFill) (fills : List LevelFill) (k : ℕ) :
    takenAt (fill :: fills) k = (if fill.levelIndex = k then fill.quantity.value.val else 0) +
      takenAt fills k := by
  unfold takenAt
  by_cases h : fill.levelIndex = k
  · rw [List.filter_cons_of_pos (by simpa using h), filledTotal_cons, if_pos h]
  · rw [List.filter_cons_of_neg (by simpa using h), if_neg h, zero_add]

theorem takenAt_eq_zero {fills : List LevelFill} {k : ℕ} (h : ∀ fill ∈ fills, fill.levelIndex ≠ k) :
    takenAt fills k = 0 := by
  unfold takenAt
  rw [List.filter_eq_nil_iff.2 fun fill hfill => by simpa using h fill hfill, filledTotal_nil]

/-- Every level has at least what is consumed of it. -/
def WithinDisplayed (levels : List (BookLevel × U64)) : Prop :=
  ∀ p ∈ levels, p.2.val ≤ p.1.displayedQuantity.value.val

/-- A sweep from the level after `index`: what it asks for is split into fills and what is left,
each fill is at one of the levels, and no level gives more than it has. -/
structure Sweeps (levels : List (BookLevel × U64)) (index : ℕ) (remaining left : U64)
    (unit : QuantityUnit) (fills : List LevelFill) : Prop where
  total : filledTotal fills + left.val = remaining.val
  located : ∀ fill ∈ fills, index < fill.levelIndex ∧ fill.levelIndex ≤ index + levels.length
  unit : ∀ fill ∈ fills, fill.quantity.unit = unit
  available : ∀ k level consumed, levels[k]? = some (level, consumed) →
    consumed.val + takenAt fills (index + k + 1) ≤ level.displayedQuantity.value.val

theorem Sweeps.nothing {levels : List (BookLevel × U64)} (h : WithinDisplayed levels) (index : ℕ)
    (remaining : U64) (unit : QuantityUnit) : Sweeps levels index remaining remaining unit [] where
  total := by simp
  located := by simp
  unit := by simp
  available := fun k level consumed hk => by simpa using h _ (List.mem_of_getElem? hk)

section Sweep
variable {side : OrderSide} {orderType : OrderType} {delta : Decimal} {unit : QuantityUnit}

theorem sweepLevels_ok {levels : List (BookLevel × U64)} {index : ℕ} {remaining left : U64}
    {fills : List LevelFill} (hwithin : WithinDisplayed levels)
    (h : sweepLevels side orderType delta unit levels index remaining = .ok (fills, left)) :
    Sweeps levels index remaining left unit fills := by
  induction levels generalizing index remaining left fills with
  | nil =>
    cases h
    exact Sweeps.nothing hwithin _ _ _
  | cons p rest ih =>
    obtain ⟨level, consumed⟩ := p
    obtain ⟨hp, hrest⟩ := List.forall_mem_cons.1 hwithin
    unfold sweepLevels at h
    by_cases hremaining : remaining.val = 0
    · rw [dif_pos hremaining] at h
      cases h
      exact Sweeps.nothing hwithin _ _ _
    rw [dif_neg hremaining, bind_eq_ok] at h
    obtain ⟨price, -, h⟩ := h
    by_cases hmarketable : isMarketable price side orderType = false
    · rw [if_pos hmarketable] at h
      cases h
      exact Sweeps.nothing hwithin _ _ _
    rw [if_neg hmarketable, bind_eq_ok] at h
    obtain ⟨available, havail, h⟩ := h
    rw [okOr_eq_ok, Unsigned.checkedSub_eq_some] at havail
    by_cases hzero : available.val = 0
    · -- an exhausted level is passed over
      rw [dif_pos hzero] at h
      have hsweep := ih hrest h
      refine ⟨hsweep.total, fun fill hfill => ?_, hsweep.unit, fun k l c hk => ?_⟩
      · have := hsweep.located fill hfill
        simp only [List.length_cons]
        omega
      · cases k with
        | zero =>
          obtain ⟨rfl, rfl⟩ : level = l ∧ consumed = c := by simpa using hk
          rw [takenAt_eq_zero fun fill hfill => by have := (hsweep.located fill hfill).1; omega]
          simpa using hp
        | succ k =>
          have := hsweep.available k l c (by simpa using hk)
          rwa [show index + (k + 1) + 1 = index + 1 + k + 1 by omega]
    · rw [dif_neg hzero] at h
      simp only [bind_eq_ok, pure_eq_ok] at h
      obtain ⟨⟨later, left'⟩, hlater, hresult⟩ := h
      obtain ⟨rfl, rfl⟩ := Prod.mk.inj hresult
      have hsweep := ih hrest hlater
      have hle : (min remaining available).val ≤ remaining.val := min_le_left remaining available
      have hle' : (min remaining available).val ≤ available.val := min_le_right remaining available
      have htotal := hsweep.total
      rw [Unsigned.val_wrappingSub _ _ hle] at htotal
      refine ⟨?_, ?_, ?_, fun k l c hk => ?_⟩
      · simp only [filledTotal_cons]
        omega
      · rw [List.forall_mem_cons]
        refine ⟨?_, fun fill hfill => ?_⟩
        · simp only [List.length_cons]
          omega
        · have := hsweep.located fill hfill
          simp only [List.length_cons]
          omega
      · rw [List.forall_mem_cons]
        exact ⟨rfl, hsweep.unit⟩
      · cases k with
        | zero =>
          obtain ⟨rfl, rfl⟩ : level = l ∧ consumed = c := by simpa using hk
          rw [takenAt_cons,
            takenAt_eq_zero fun fill hfill => by have := (hsweep.located fill hfill).1; omega]
          simp only [Nat.add_zero, if_true]
          omega
        | succ k =>
          have := hsweep.available k l c (by simpa using hk)
          rw [takenAt_cons, if_neg (by simp only []; omega), zero_add,
            show index + (k + 1) + 1 = index + 1 + k + 1 by omega]
          exact this

theorem sweepLevels_error {levels : List (BookLevel × U64)} {index : ℕ} {remaining : U64}
    {e : DepthSweepError} (hwithin : WithinDisplayed levels)
    (h : sweepLevels side orderType delta unit levels index remaining = .error e) :
    e = .invalidAdversePriceDelta := by
  induction levels generalizing index remaining with
  | nil => cases h
  | cons p rest ih =>
    obtain ⟨level, consumed⟩ := p
    obtain ⟨hp, hrest⟩ := List.forall_mem_cons.1 hwithin
    unfold sweepLevels at h
    by_cases hremaining : remaining.val = 0
    · rw [dif_pos hremaining] at h
      cases h
    rw [dif_neg hremaining, bind_eq_error] at h
    rcases h with hprice | ⟨price, -, h⟩
    · unfold applyAdversePrice at hprice
      rw [map_eq_error, mapError_eq_error] at hprice
      obtain ⟨_, -, rfl⟩ := hprice
      rfl
    by_cases hmarketable : isMarketable price side orderType = false
    · rw [if_pos hmarketable] at h
      cases h
    rw [if_neg hmarketable, bind_eq_error] at h
    rcases h with hshort | ⟨available, -, h⟩
    · -- the level has what is consumed of it, so the difference exists
      rw [okOr_eq_error] at hshort
      have hlt := level.displayedQuantity.value.lt
      have hsome : level.displayedQuantity.value.checkedSub consumed =
          some ⟨level.displayedQuantity.value.val - consumed.val, by omega⟩ := by
        rw [Unsigned.checkedSub_eq_some]
        simp only [] at hp ⊢
        omega
      rw [hsome] at hshort
      exact absurd hshort.1 (by simp)
    by_cases hzero : available.val = 0
    · rw [dif_pos hzero] at h
      exact ih hrest h
    · rw [dif_neg hzero] at h
      simp only [bind_eq_error, pure_eq_error, and_false, exists_false, or_false] at h
      exact ih hrest h

end Sweep

section Book
variable {book : CompleteBookSnapshot} {side : OrderSide} {requested : Quantity} {depthLevels : ℕ}
  {orderType : OrderType} {delta : Decimal} {consumed : Vector U64 bookDepth}

/-- What is consumed of the level at a position. -/
def consumedAt (consumed : Vector U64 bookDepth) (k : ℕ) : ℕ :=
  (consumed.toList[k]?.map Unsigned.val).getD 0

/-- No level of a side has more consumed of it than it displays. -/
def ConsumedWithin (levels : List BookLevel) (consumed : Vector U64 bookDepth) : Prop :=
  ∀ (k : ℕ) (level : BookLevel), levels[k]? = some level →
  consumedAt consumed k ≤ level.displayedQuantity.value.val

theorem ConsumedWithin.zip {levels : List BookLevel} (h : ConsumedWithin levels consumed) (n : ℕ) :
    WithinDisplayed ((levels.take n).zip consumed.toList) := by
  intro p hp
  obtain ⟨k, hk⟩ := List.mem_iff_getElem?.1 hp
  rw [List.getElem?_zip_eq_some, List.getElem?_take] at hk
  obtain ⟨hlevel, hamount⟩ := hk
  split_ifs at hlevel
  have hle := h k p.1 hlevel
  rwa [consumedAt, hamount] at hle

/-- A sweep against a book: at most what was asked, at levels the side has, within what is left of
each. -/
structure SweepsBook (levels : List BookLevel) (consumed : Vector U64 bookDepth)
    (requested : Quantity) (sweep : DepthSweepResult) : Prop where
  asked : sweep.requested = requested
  filled : sweep.filledValue.val = filledTotal sweep.fills
  total : filledTotal sweep.fills ≤ requested.value.val
  located : ∀ fill ∈ sweep.fills, 1 ≤ fill.levelIndex ∧ fill.levelIndex ≤ bookDepth ∧
      fill.levelIndex ≤ levels.length
  unit : ∀ fill ∈ sweep.fills, fill.quantity.unit = requested.unit
  available : ∀ (k : ℕ) (level : BookLevel), levels[k]? = some level →
    consumedAt consumed k + takenAt sweep.fills (k + 1) ≤ level.displayedQuantity.value.val

theorem sweepMarketableDepthWithConsumed_ok {sweep : DepthSweepResult}
    (hwithin : ConsumedWithin (book.opposite side).levels consumed)
    (h : sweepMarketableDepthWithConsumed book side requested depthLevels orderType delta consumed =
      .ok sweep) :
    SweepsBook (book.opposite side).levels consumed requested sweep := by
  simp only [sweepMarketableDepthWithConsumed, bind_eq_ok, ensure_eq_ok, pure_eq_ok] at h
  obtain ⟨-, hdepth, -, -, -, -, ⟨fills, left⟩, hsweep, rfl⟩ := h
  have hs := sweepLevels_ok (hwithin.zip depthLevels) hsweep
  have htotal := hs.total
  have hlength :
      (((book.opposite side).levels.take depthLevels).zip consumed.toList).length ≤ bookDepth ∧
      (((book.opposite side).levels.take depthLevels).zip consumed.toList).length ≤
        (book.opposite side).levels.length := by
    simp only [List.length_zip, List.length_take, Vector.length_toList]
    omega
  refine ⟨rfl, ?_, ?_, fun fill hfill => ?_, hs.unit, fun k level hlevel => ?_⟩
  · simp only []
    rw [Unsigned.val_wrappingSub _ _ (by omega)]
    omega
  · simp only []
    omega
  · have := hs.located fill hfill
    omega
  · cases hamount : (((book.opposite side).levels.take depthLevels).zip consumed.toList)[k]? with
    | some p =>
      have havailable := hs.available k p.1 p.2 hamount
      rw [List.getElem?_zip_eq_some, List.getElem?_take] at hamount
      obtain ⟨hp, hconsumed⟩ := hamount
      split_ifs at hp
      rw [hlevel, Option.some_inj] at hp
      simpa [consumedAt, hconsumed, hp] using havailable
    | none =>
      -- no fill lies past the levels that were swept
      rw [List.getElem?_eq_none_iff] at hamount
      rw [takenAt_eq_zero fun fill hfill => by have := hs.located fill hfill; omega, add_zero]
      exact hwithin k level hlevel

theorem sweepMarketableDepthWithConsumed_error {e : DepthSweepError}
    (hwithin : ConsumedWithin (book.opposite side).levels consumed)
    (h : sweepMarketableDepthWithConsumed book side requested depthLevels orderType delta consumed =
      .error e) (k : ℕ) :
    e ≠ .consumedQuantityExceedsDisplayed k := by
  simp only [sweepMarketableDepthWithConsumed, bind_eq_error, ensure_eq_error, pure_eq_error,
    and_false, exists_false, or_false] at h
  rcases h with ⟨-, rfl⟩ | ⟨_, -, ⟨-, rfl⟩ | ⟨_, -, hunit | ⟨_, -, hsweep⟩⟩⟩
  · simp
  · simp
  · unfold checkBookUnit at hunit
    cases hq : book.quantityUnit with
    | none =>
      rw [hq] at hunit
      cases hunit
    | some actual =>
      rw [hq] at hunit
      obtain ⟨-, rfl⟩ := (ensure_eq_error _ _ _).1 hunit
      simp
  · rw [sweepLevels_error (hwithin.zip depthLevels) hsweep]
    simp

end Book

end Osmium
