import Osmium.Sanity.Depth
import Osmium.Proofs.Scheduled

/-! A sweep fills as much as the levels within the limit offer, and an execution over several legs
fills all of them or touches nothing. -/

namespace Osmium
open Machine Result Stateful

section Ordering

/-- Each level of a side is worse than the one before it. -/
def BookSideKind.Better (kind : BookSideKind) (a b : BookLevel) : Prop :=
  match kind with
  | .bid => b.price < a.price
  | .ask => a.price < b.price

theorem correctlyOrdered_iff (kind : BookSideKind) (a b : BookLevel) :
    correctlyOrdered kind a.price b.price = true ↔ kind.Better a b := by
  cases kind <;> simp [correctlyOrdered, BookSideKind.Better]

theorem BookSideKind.Better.trans {kind : BookSideKind} {a b c : BookLevel} (hab : kind.Better a b)
    (hbc : kind.Better b c) : kind.Better a c := by
  cases kind with
  | bid => exact lt_trans hbc hab
  | ask => exact lt_trans hab hbc

/-- The validation loop compares each level with the one before it. -/
theorem validateSlots_cons {kind : BookSideKind} {level : BookLevel}
    {rest : List (Option BookLevel)} {index : ℕ}
    {emptySeen : Bool} {previous : Option BookLevel} {unit : Option QuantityUnit}
    (h : validateSlots kind (some level :: rest) index emptySeen previous unit = .ok ()) :
    (∀ before ∈ previous, kind.Better before level) ∧
      validateSlots kind rest (index + 1) emptySeen (some level)
        (some (unit.getD level.displayedQuantity.unit)) = .ok () := by
  cases previous with
  | none =>
    refine ⟨by simp, ?_⟩
    unfold validateSlots at h
    simp only [bind_eq_ok] at h
    obtain ⟨_, -, h⟩ := h
    cases unit with
    | none => exact h
    | some expected =>
      simp only [bind_eq_ok] at h
      obtain ⟨_, -, h⟩ := h
      exact h
  | some before =>
    have hordered : correctlyOrdered kind before.price level.price = true ∧
        validateSlots kind rest (index + 1) emptySeen
        (some level) (some (unit.getD level.displayedQuantity.unit)) = .ok () := by
      unfold validateSlots at h
      simp only [bind_eq_ok, ensure_eq_ok] at h
      obtain ⟨_, -, h⟩ := h
      cases unit with
      | none =>
        simp only [bind_eq_ok, ensure_eq_ok] at h
        obtain ⟨-, hordered, h⟩ := h
        exact ⟨hordered, h⟩
      | some expected =>
        simp only [bind_eq_ok, ensure_eq_ok] at h
        obtain ⟨-, -, -, hordered, h⟩ := h
        exact ⟨hordered, h⟩
    refine ⟨fun b hb => ?_, hordered.2⟩
    obtain rfl : before = b := by simpa using hb
    exact (correctlyOrdered_iff _ _ _).1 hordered.1

theorem validateSlots_pairwise {kind : BookSideKind} {slots : List (Option BookLevel)} {index : ℕ}
    {emptySeen : Bool} {previous : Option BookLevel} {unit : Option QuantityUnit}
    (h : validateSlots kind slots index emptySeen previous unit = .ok ()) :
    (levelsOf slots).Pairwise kind.Better ∧
    ∀ before ∈ previous, ∀ level ∈ levelsOf slots, kind.Better before level := by
  induction slots generalizing index emptySeen previous unit with
  | nil => exact ⟨.nil, by simp [levelsOf]⟩
  | cons slot rest ih =>
    cases slot with
    | none => exact ⟨.nil, by simp [levelsOf]⟩
    | some level =>
      obtain ⟨hfirst, h⟩ := validateSlots_cons h
      obtain ⟨hpairwise, hlater⟩ := ih h
      have hlevel := hlater level rfl
      refine ⟨List.pairwise_cons.2 ⟨hlevel, hpairwise⟩, fun before hbefore => ?_⟩
      rw [levelsOf, List.forall_mem_cons]
      exact ⟨hfirst before hbefore, fun l hl => (hfirst before hbefore).trans (hlevel l hl)⟩

theorem BookSide.pairwise_levels (side : BookSide) : side.levels.Pairwise side.kind.Better := by
  have h := side.valid
  simp only [validateSide, bind_eq_ok] at h
  obtain ⟨_, -, h⟩ := h
  exact (validateSlots_pairwise h).1

end Ordering

section Sweep
variable {side : OrderSide} {orderType : OrderType} {delta : Decimal} {unit : QuantityUnit}

/-- A level's price moved by the delta against the order. -/
def slipped (side : OrderSide) (delta : Decimal) (level : BookLevel) : ℤ :=
  match side with
  | .buy => level.price.key + delta.atoms.val
  | .sell => level.price.key - delta.atoms.val

/-- The slipped price of the level satisfies the limit, if there is one. -/
def withinLimit (side : OrderSide) (orderType : OrderType) (delta : Decimal)
    (level : BookLevel) : Bool :=
  match orderType, side with
  | .market, _ => true
  | .limit limitPrice, .buy => slipped side delta level ≤ limitPrice.key
  | .limit limitPrice, .sell => limitPrice.key ≤ slipped side delta level

/-- What a level within the limit offers: what is displayed and not yet consumed. -/
def offer (side : OrderSide) (orderType : OrderType) (delta : Decimal)
    (entry : BookLevel × U64) : ℕ :=
  if withinLimit side orderType delta entry.1 then
    entry.1.displayedQuantity.value.val - entry.2.val else 0

theorem applyAdversePrice_key {level : BookLevel} {price : Price}
    (h : applyAdversePrice level.price side delta = .ok price) :
    price.key = slipped side delta level := by
  unfold applyAdversePrice at h
  simp only [map_eq_ok, mapError_eq_ok] at h
  obtain ⟨value, hvalue, rfl⟩ := h
  cases side with
  | buy => exact (Decimal.checkedAdd_eq_ok _ _ _).1 hvalue
  | sell => exact (Decimal.checkedSub_eq_ok _ _ _).1 hvalue

theorem isMarketable_eq {level : BookLevel} {price : Price}
    (h : price.key = slipped side delta level) :
    isMarketable price side orderType = withinLimit side orderType delta level := by
  cases orderType with
  | market => rfl
  | limit limitPrice =>
    cases side with
    | buy => simp [isMarketable, withinLimit, Price.le_iff, h]
    | sell => simp [isMarketable, withinLimit, Price.le_iff, h]

/-- The levels get worse, so that none after one beyond the limit is within it. -/
theorem withinLimit_of_better {a b : BookLevel} {kind : BookSideKind}
    (hkind : kind = match side with | .buy => .ask | .sell => .bid) (hbetter : kind.Better a b)
    (hb : withinLimit side orderType delta b = true) :
    withinLimit side orderType delta a = true := by
  cases orderType with
  | market => rfl
  | limit limitPrice =>
    cases side with
    | buy =>
      subst hkind
      have hlt : a.price.key < b.price.key := hbetter
      have hle : b.price.key + delta.atoms.val ≤ limitPrice.key := of_decide_eq_true hb
      exact decide_eq_true (show a.price.key + delta.atoms.val ≤ limitPrice.key by omega)
    | sell =>
      subst hkind
      have hlt : b.price.key < a.price.key := hbetter
      have hle : limitPrice.key ≤ b.price.key - delta.atoms.val := of_decide_eq_true hb
      exact decide_eq_true (show limitPrice.key ≤ a.price.key - delta.atoms.val by omega)

/-- Within the limit as far as a level is, so are the levels before it. -/
def LimitOrdered (side : OrderSide) (orderType : OrderType) (delta : Decimal)
    (levels : List (BookLevel × U64)) : Prop :=
  levels.Pairwise fun a b => withinLimit side orderType delta b.1 = true →
  withinLimit side orderType delta a.1 = true

/-- What a sweep takes, level by level: the levels in order, each within its offer, at its slipped
price. -/
structure LevelTakes (side : OrderSide) (orderType : OrderType) (delta : Decimal)
    (levels : List (BookLevel × U64)) (index : ℕ) (fills : List LevelFill) : Prop where
  increasing : (fills.map LevelFill.levelIndex).Pairwise (· < ·)
  after : ∀ fill ∈ fills, index < fill.levelIndex
  priced : ∀ fill ∈ fills, ∃ level consumed,
      levels[fill.levelIndex - index - 1]? = some (level, consumed) ∧
    fill.quantity.value.val ≤ level.displayedQuantity.value.val - consumed.val ∧
    fill.price.key = slipped side delta level ∧ isMarketable fill.price side orderType = true

theorem LevelTakes.nothing (levels : List (BookLevel × U64)) (index : ℕ) :
    LevelTakes side orderType delta levels index [] :=
  ⟨.nil, by simp, by simp⟩

/-- Levels before those that are taken from only move the index. -/
theorem LevelTakes.skip {levels : List (BookLevel × U64)} {index : ℕ} {fills : List LevelFill}
    (entry : BookLevel × U64) (h : LevelTakes side orderType delta levels (index + 1) fills) :
    LevelTakes side orderType delta (entry :: levels) index fills := by
  refine ⟨h.increasing, fun fill hfill => ?_, fun fill hfill => ?_⟩
  · have := h.after fill hfill
    omega
  · obtain ⟨level, consumed, hlevel, hrest⟩ := h.priced fill hfill
    have hafter := h.after fill hfill
    refine ⟨level, consumed, ?_, hrest⟩
    rw [show fill.levelIndex - index - 1 =
      fill.levelIndex - (index + 1) - 1 + 1 by omega, List.getElem?_cons_succ]
    exact hlevel

theorem LevelTakes.take {levels : List (BookLevel × U64)} {index : ℕ} {fills : List LevelFill}
    {level : BookLevel} {consumed : U64} {price : Price} {quantity : Quantity}
    (h : LevelTakes side orderType delta levels (index + 1) fills)
    (hquantity : quantity.value.val ≤ level.displayedQuantity.value.val - consumed.val)
    (hprice : price.key = slipped side delta level)
    (hmarketable : isMarketable price side orderType = true) :
    LevelTakes side orderType delta ((level, consumed) :: levels) index
      (⟨index + 1, price, quantity⟩ :: fills) := by
  have hskip := h.skip (level, consumed)
  refine ⟨?_, ?_, ?_⟩
  · rw [List.map_cons, List.pairwise_cons]
    refine ⟨fun k hk => ?_, h.increasing⟩
    obtain ⟨fill, hfill, rfl⟩ := List.mem_map.1 hk
    exact h.after fill hfill
  · rw [List.forall_mem_cons]
    exact ⟨Nat.lt_succ_self _, hskip.after⟩
  · rw [List.forall_mem_cons]
    refine ⟨⟨level, consumed, ?_, hquantity, hprice, hmarketable⟩, hskip.priced⟩
    simp

/-- The loop over the levels takes the minimum of what is asked and what the levels within the limit
offer. -/
theorem sweepLevels_exact {levels : List (BookLevel × U64)} {index : ℕ} {remaining left : U64}
    {fills : List LevelFill} (hordered : LimitOrdered side orderType delta levels)
    (h : sweepLevels side orderType delta unit levels index remaining = .ok (fills, left)) :
    filledTotal fills = min remaining.val (levels.map (offer side orderType delta)).sum ∧
      filledTotal fills + left.val = remaining.val ∧
      LevelTakes side orderType delta levels index fills := by
  induction levels generalizing index remaining left fills with
  | nil =>
    cases h
    exact ⟨by simp, by simp, .nothing _ _⟩
  | cons entry rest ih =>
    obtain ⟨level, consumed⟩ := entry
    obtain ⟨hlater, hrest⟩ := List.pairwise_cons.1 hordered
    unfold sweepLevels at h
    by_cases hremaining : remaining.val = 0
    · rw [dif_pos hremaining] at h
      cases h
      exact ⟨by simp [hremaining], by simp, .nothing _ _⟩
    rw [dif_neg hremaining, bind_eq_ok] at h
    obtain ⟨price, hprice, h⟩ := h
    have hkey := applyAdversePrice_key hprice
    have hmarket : isMarketable price side orderType = withinLimit side orderType delta level :=
      isMarketable_eq hkey
    rw [List.map_cons, List.sum_cons]
    by_cases hmarketable : isMarketable price side orderType = false
    · -- no level from here on is within the limit, so none offers anything
      rw [if_pos hmarketable] at h
      cases h
      have hnone : ∀ entry ∈ rest, offer side orderType delta entry = 0 := fun entry hentry => by
        unfold offer
        rw [if_neg fun hwithin => ?_]
        have := hlater entry hentry hwithin
        simp only [← hmarket, hmarketable] at this
        cases this
      have hsum : (rest.map (offer side orderType delta)).sum = 0 :=
        List.sum_eq_zero fun n hn => by
          obtain ⟨entry, hentry, rfl⟩ := List.mem_map.1 hn
          exact hnone entry hentry
      have hoffer : offer side orderType delta (level, consumed) = 0 := by
        rw [offer, if_neg (by rw [← hmarket, hmarketable]; decide)]
      rw [hsum, hoffer]
      exact ⟨by simp, by simp, .nothing _ _⟩
    rw [if_neg hmarketable, bind_eq_ok] at h
    obtain ⟨available, havail, h⟩ := h
    rw [okOr_eq_ok, Unsigned.checkedSub_eq_some] at havail
    rw [Bool.not_eq_false] at hmarketable
    have hoffer : offer side orderType delta (level, consumed) = available.val := by
      rw [offer, if_pos (by rw [← hmarket, hmarketable])]
      simp only []
      omega
    rw [hoffer]
    by_cases hzero : available.val = 0
    · rw [dif_pos hzero] at h
      obtain ⟨htotal, hleft, htakes⟩ := ih hrest h
      exact ⟨by omega, hleft, htakes.skip _⟩
    · rw [dif_neg hzero] at h
      simp only [bind_eq_ok, pure_eq_ok] at h
      obtain ⟨⟨later, left'⟩, hlevels, hresult⟩ := h
      obtain ⟨rfl, rfl⟩ := Prod.mk.inj hresult
      obtain ⟨htotal, hleft, htakes⟩ := ih hrest hlevels
      have hmin : (min remaining available).val = min remaining.val available.val := by
        rcases le_total remaining available with hle | hle
        · rw [min_eq_left hle, min_eq_left ((Unsigned.le_iff _ _).1 hle)]
        · rw [min_eq_right hle, min_eq_right ((Unsigned.le_iff _ _).1 hle)]
      rw [Unsigned.val_wrappingSub _ _ (by omega)] at htotal hleft
      refine ⟨?_, ?_, htakes.take ?_ hkey hmarketable⟩
      · rw [filledTotal_cons]
        simp only []
        omega
      · rw [filledTotal_cons]
        simp only []
        omega
      · simp only []
        omega

end Sweep

section Book
variable {book : CompleteBookSnapshot} {side : OrderSide} {orderType : OrderType} {delta : Decimal}

theorem opposite_kind (book : CompleteBookSnapshot) (side : OrderSide) :
    (book.opposite side).kind = match side with | .buy => .ask | .sell => .bid := by
  cases side with
  | buy => exact book.kinds.2
  | sell => exact book.kinds.1

theorem pairwise_zip {α β : Type} {R : α → α → Prop} {l : List α} (h : l.Pairwise R) (m : List β) :
    (l.zip m).Pairwise fun a b => R a.1 b.1 := by
  induction l generalizing m with
  | nil => exact .nil
  | cons a l ih =>
    rcases m with _ | ⟨b, m⟩
    · exact .nil
    · obtain ⟨hhead, htail⟩ := List.pairwise_cons.1 h
      rw [List.zip_cons_cons, List.pairwise_cons]
      exact ⟨fun entry hentry => hhead entry.1 (List.of_mem_zip hentry).1, ih htail m⟩

theorem limitOrdered_zip (book : CompleteBookSnapshot) (side : OrderSide) (orderType : OrderType)
    (delta : Decimal) (depthLevels : ℕ) (consumed : List U64) :
    LimitOrdered side orderType delta
      (((book.opposite side).levels.take depthLevels).zip consumed) := by
  have hbetter :=
    pairwise_zip
      ((book.opposite side).pairwise_levels.sublist (List.take_sublist depthLevels _)) consumed
  exact hbetter.imp fun hab hb => withinLimit_of_better (opposite_kind book side) hab hb

/-- What the first levels within the limit offer in all. -/
def offered (book : CompleteBookSnapshot) (side : OrderSide) (depthLevels : ℕ)
    (orderType : OrderType) (delta : Decimal) (consumed : Vector U64 bookDepth) : ℕ :=
  ((((book.opposite side).levels.take depthLevels).zip consumed.toList).map
    (offer side orderType delta)).sum

/-- What a sweep that returns has taken. -/
theorem sweep_takes {requested : Quantity} {depthLevels : ℕ} {consumed : Vector U64 bookDepth}
    {sweep : DepthSweepResult}
    (h : sweepMarketableDepthWithConsumed book side requested depthLevels orderType delta consumed =
      .ok sweep) :
    filledTotal sweep.fills =
      min requested.value.val (offered book side depthLevels orderType delta consumed) ∧
      LevelTakes side orderType delta
        (((book.opposite side).levels.take depthLevels).zip consumed.toList) 0 sweep.fills := by
  simp only [sweepMarketableDepthWithConsumed, bind_eq_ok, ensure_eq_ok, pure_eq_ok] at h
  obtain ⟨-, -, -, -, -, -, ⟨fills, left⟩, hsweep, rfl⟩ := h
  have hordered := limitOrdered_zip book side orderType delta depthLevels consumed.toList
  obtain ⟨htotal, -, htakes⟩ := sweepLevels_exact hordered hsweep
  exact ⟨htotal, htakes⟩

/-- A sweep that returns has filled as much as it could, from the best level on and nowhere beyond
the limit. -/
theorem depth_sweep_exact (book : CompleteBookSnapshot) (side : OrderSide) (requested : Quantity)
    (depthLevels : ℕ) (orderType : OrderType) (delta : Decimal) (consumed : Vector U64 bookDepth)
    (sweep : DepthSweepResult) (hwithin : ConsumedWithin (book.opposite side).levels consumed)
    (h : sweepMarketableDepthWithConsumed book side requested depthLevels orderType delta consumed =
      .ok sweep) :
    filledTotal sweep.fills =
      min requested.value.val (offered book side depthLevels orderType delta consumed) ∧
    sweep.filledValue.val = filledTotal sweep.fills ∧
    (sweep.fills.map LevelFill.levelIndex).Pairwise (· < ·) ∧
    ∀ fill ∈ sweep.fills, ∃ level, (book.opposite side).levels[fill.levelIndex - 1]? = some level ∧
      1 ≤ fill.levelIndex ∧ fill.levelIndex ≤ depthLevels ∧ 0 < fill.quantity.value.val ∧
      fill.quantity.value.val ≤ level.displayedQuantity.value.val -
        consumedAt consumed (fill.levelIndex - 1) ∧
      fill.price.key = slipped side delta level ∧
      isMarketable fill.price side orderType = true := by
  have hbook := sweepMarketableDepthWithConsumed_ok hwithin h
  obtain ⟨htotal, htakes⟩ := sweep_takes h
  refine ⟨htotal, hbook.filled, htakes.increasing, fun fill hfill => ?_⟩
  obtain ⟨level, amount, hlevel, hquantity, hprice, hmarketable⟩ := htakes.priced fill hfill
  have hafter := htakes.after fill hfill
  rw [Nat.sub_zero, List.getElem?_zip_eq_some, List.getElem?_take] at hlevel
  obtain ⟨hlevel, hamount⟩ := hlevel
  split_ifs at hlevel with hdepth
  refine ⟨level, hlevel, hafter, by omega, fill.quantity.pos, ?_, hprice, hmarketable⟩
  simpa [consumedAt, hamount] using hquantity

/-- Offers of ten, five and seven lots at a hundred, a hundred and one and a hundred and three. -/
def threeOffers : CompleteBookSnapshot where
  bids := ⟨.bid, none, #v[none, none, none, none, none], by decide +kernel⟩
  asks := ⟨.ask, none, #v[some ⟨samplePrice 100, sampleLots 10 tenLots⟩,
    some ⟨samplePrice 101, sampleLots 5 (by decide)⟩,
    some ⟨samplePrice 103, sampleLots 7 (by decide)⟩, none, none], by decide +kernel⟩
  valid := by decide +kernel

/-- Four of the ten lots of the best level are gone. -/
def fourConsumed : Vector U64 bookDepth := #v[Unsigned.wrap 64 4, 0, 0, 0, 0]

/-- A limit of a hundred and two and a slippage of one leave the last level out, and the order for
twenty lots gets eleven. -/
theorem depth_sweep_exact_of_three : ∃ sweep,
    sweepMarketableDepthWithConsumed threeOffers .buy (sampleLots 20 (by decide)) 5
      (.limit (samplePrice 102))
      (samplePrice 1).value fourConsumed = .ok sweep ∧ filledTotal sweep.fills = 11 := by
  have hok :
      (sweepMarketableDepthWithConsumed threeOffers .buy (sampleLots 20 (by decide)) 5
        (.limit (samplePrice 102))
      (samplePrice 1).value fourConsumed).isOk = true := by
    decide +kernel
  obtain ⟨sweep, hsweep⟩ := exists_of_isOk hok
  have hwithin : ConsumedWithin (threeOffers.opposite .buy).levels fourConsumed := by
    intro k level hlevel
    have hlt : k < 3 := (List.getElem?_eq_some_iff.1 hlevel).1
    interval_cases k <;> obtain rfl := Option.some.inj hlevel <;> decide +kernel
  refine ⟨sweep, hsweep, ?_⟩
  rw [(depth_sweep_exact _ _ _ _ _ _ _ _ hwithin hsweep).1]
  decide +kernel

end Book

section Legs
variable {fills : List LevelFill} {consumed consumed' : Vector U64 bookDepth}

/-- Applying a sweep adds to each level what the sweep took from it. -/
theorem consumeFills_ok (hlocated : ∀ fill ∈ fills, 1 ≤ fill.levelIndex)
    (h : consumeFills fills consumed = .ok consumed')
    (k : ℕ) : consumedAt consumed' k = consumedAt consumed k + takenAt fills (k + 1) := by
  induction fills generalizing consumed with
  | nil =>
    cases h
    rfl
  | cons fill rest ih =>
    obtain ⟨hfirst, hrest⟩ := List.forall_mem_cons.1 hlocated
    simp only [consumeFills, bind_eq_ok, okOr_eq_ok, Unsigned.checkedAdd_eq_some] at h
    obtain ⟨before, hbefore, after, hafter, h⟩ := h
    have hindex : fill.levelIndex - 1 < bookDepth := by
      by_contra hge
      rw [Vector.getElem?_eq_none (by omega)] at hbefore
      cases hbefore
    have hvalue : consumedAt consumed (fill.levelIndex - 1) = before.val := by
      rw [consumedAt, Vector.getElem?_toList, hbefore]
      rfl
    rw [ih hrest h, consumedAt_setIfInBounds _ _ _ hindex, takenAt_cons]
    by_cases hk : k = fill.levelIndex - 1
    · rw [if_pos hk, if_pos (by omega), hk, hvalue, hafter]
      omega
    · rw [if_neg hk, if_neg (by omega)]
      omega

/-- No level of the book has more consumed of it than it displays. -/
def ConsumableDepth.Within (depth : ConsumableDepth) : Prop :=
  ∀ side, ConsumedWithin (depth.book.opposite side).levels (depth.consumed side)

theorem ConsumableDepth.new_within (book : CompleteBookSnapshot) :
    (ConsumableDepth.new book).Within := by
  intro side k level _
  have hzero : consumedAt ((ConsumableDepth.new book).consumed side) k = 0 := by
    cases side <;> unfold consumedAt ConsumableDepth.consumed ConsumableDepth.new <;>
      simp only [Vector.getElem?_toList] <;> rcases Nat.lt_or_ge k bookDepth with
        hk | hk <;> simp [hk]
  omega

/-- A leg filled in full: what it took, and what became of its book. -/
structure FillsLeg (side : OrderSide) (requested : Quantity) (depth : ConsumableDepth)
    (sweep : DepthSweepResult) (depth' : ConsumableDepth) : Prop where
  asked : sweep.requested = requested
  total : filledTotal sweep.fills = requested.value.val
  book : depth'.book = depth.book
  grown : ∀ s k, consumedAt (depth'.consumed s) k =
    consumedAt (depth.consumed s) k + if s = side then takenAt sweep.fills (k + 1) else 0
  within : depth.Within → depth'.Within

theorem fillsLeg {side : OrderSide} {requested : Quantity} {depthLevels : ℕ}
    {depth depth' : ConsumableDepth}
    {sweep : DepthSweepResult} (hpreview : depth.preview side requested depthLevels = .ok sweep)
    (hcomplete : sweep.isComplete = true) (happly : depth.apply side sweep = .ok depth') :
    FillsLeg side requested depth sweep depth' := by
  have hsweep := hpreview
  simp only [ConsumableDepth.preview, sweepMarketableDepthWithConsumed, bind_eq_ok, ensure_eq_ok,
    pure_eq_ok] at hsweep
  obtain ⟨-, -, -, -, -, -, ⟨fills, left⟩, hlevels, rfl⟩ := hsweep
  obtain ⟨-, hleft, htakes⟩ := sweepLevels_exact (limitOrdered_zip _ _ _ _ _ _) hlevels
  have hfilled : requested.value.wrappingSub left = requested.value := of_decide_eq_true hcomplete
  have hzero : left.val = 0 := by
    have := congrArg Unsigned.val hfilled
    rw [Unsigned.val_wrappingSub _ _ (by omega)] at this
    have := requested.pos
    omega
  simp only [ConsumableDepth.apply, bind_eq_ok, pure_eq_ok] at happly
  obtain ⟨consumed, hconsumed, rfl⟩ := happly
  have hgrown := consumeFills_ok (fun fill hfill => htakes.after fill hfill) hconsumed
  have hall (s : OrderSide) (k : ℕ) : consumedAt ((depth.setConsumed side consumed).consumed s) k =
      consumedAt (depth.consumed s) k + if s = side then takenAt fills (k + 1) else 0 := by
    by_cases hside : s = side
    · subst hside
      rw [if_pos rfl, ← hgrown k]
      cases s <;> rfl
    · rw [if_neg hside, add_zero]
      cases s <;> cases side <;> first | rfl | exact absurd rfl hside
  have hbook : (depth.setConsumed side consumed).book = depth.book := by cases side <;> rfl
  refine ⟨rfl, by simp only []; omega, hbook, hall, fun hwithin s k level hlevel => ?_⟩
  rw [hbook] at hlevel
  rw [hall]
  by_cases hside : s = side
  · subst hside
    rw [if_pos rfl]
    exact (sweepMarketableDepthWithConsumed_ok (hwithin s) hpreview).available k level hlevel
  · rw [if_neg hside, add_zero]
    exact hwithin s k level hlevel

/-- What the legs on one side of an instrument took from a level. -/
def takenByLegs (fills : List AtomicDepthFill) (instrument : InstrumentId) (side : OrderSide)
    (levelIndex : ℕ) : ℕ :=
  ((fills.filter fun fill => fill.leg = ⟨instrument, side⟩).map fun fill =>
    takenAt fill.sweep.fills levelIndex).sum

theorem takenByLegs_cons (leg : AtomicDepthLeg) (sweep : DepthSweepResult)
    (fills : List AtomicDepthFill) (instrument : InstrumentId) (side : OrderSide) (levelIndex : ℕ) :
    takenByLegs (⟨leg, sweep⟩ :: fills) instrument side levelIndex =
      (if leg = ⟨instrument, side⟩ then takenAt sweep.fills levelIndex else 0) +
        takenByLegs fills instrument side levelIndex := by
  unfold takenByLegs
  by_cases h : leg = ⟨instrument, side⟩
  · rw [List.filter_cons_of_pos (by simpa using h), List.map_cons, List.sum_cons, if_pos h]
  · rw [List.filter_cons_of_neg (by simpa using h), if_neg h, Nat.zero_add]

theorem takenByLegs_eq_zero {fills : List AtomicDepthFill} {instrument : InstrumentId}
    (h : ∀ fill ∈ fills, fill.leg.instrument ≠ instrument) (side : OrderSide) (levelIndex : ℕ) :
    takenByLegs fills instrument side levelIndex = 0 := by
  unfold takenByLegs
  rw [List.filter_eq_nil_iff.2 fun fill hfill => ?_]
  · rfl
  · simpa using fun heq => h fill hfill (by rw [heq])

/-- The same book with more consumed of it, by what the legs took. -/
structure GrowsBy (fills : List AtomicDepthFill) (instrument : InstrumentId)
    (depth depth' : ConsumableDepth) : Prop where
  book : depth'.book = depth.book
  grown : ∀ side k, consumedAt (depth'.consumed side) k =
    consumedAt (depth.consumed side) k + takenByLegs fills instrument side (k + 1)

/-- All legs filled, on the staged books. -/
structure FillsLegs (requested : Quantity) (legs : List AtomicDepthLeg)
    (fills : List AtomicDepthFill) (staged staged' : DepthBooks) : Prop where
  inOrder : fills.map AtomicDepthFill.leg = legs
  known : ∀ leg ∈ legs, (staged[leg.instrument]?).isSome
  complete : ∀ fill ∈ fills, fill.sweep.requested = requested ∧
      filledTotal fill.sweep.fills = requested.value.val
  absent : ∀ instrument : InstrumentId, staged[instrument]? = none → staged'[instrument]? = none
  present : ∀ (instrument : InstrumentId) depth, staged[instrument]? = some depth →
    ∃ depth', staged'[instrument]? = some depth' ∧ GrowsBy fills instrument depth depth'
  within : (∀ (instrument : InstrumentId) depth, staged[instrument]? = some depth → depth.Within) →
    ∀ (instrument : InstrumentId) depth, staged'[instrument]? = some depth → depth.Within

theorem GrowsBy.none (instrument : InstrumentId) (depth : ConsumableDepth) :
    GrowsBy [] instrument depth depth :=
  ⟨rfl, fun _ _ => rfl⟩

/-- A leg first, and then the others. -/
theorem FillsLegs.cons {requested : Quantity} {leg : AtomicDepthLeg} {legs : List AtomicDepthLeg}
    {depth depth' : ConsumableDepth} {sweep : DepthSweepResult} {fills : List AtomicDepthFill}
    {staged staged' : DepthBooks} (hstaged : staged[leg.instrument]? = some depth)
    (hleg : FillsLeg leg.side requested depth sweep depth')
    (h : FillsLegs requested legs fills (staged.insert leg.instrument depth') staged') :
    FillsLegs requested (leg :: legs) (⟨leg, sweep⟩ :: fills) staged staged' := by
  have hget (instrument : InstrumentId) : (staged.insert leg.instrument depth')[instrument]? =
      if leg.instrument = instrument then some depth' else staged[instrument]? := by
    rw [Std.ExtTreeMap.getElem?_insert]
    simp only [Std.LawfulEqCmp.compare_eq_iff_eq]
  refine ⟨by rw [List.map_cons, h.inOrder], ?_, ?_, ?_, ?_, ?_⟩
  · rw [List.forall_mem_cons]
    refine ⟨by rw [hstaged]; rfl, fun other hother => ?_⟩
    have hknown := h.known other hother
    rw [hget] at hknown
    split_ifs at hknown with hsame
    · rw [← hsame, hstaged]
      rfl
    · exact hknown
  · rw [List.forall_mem_cons]
    exact ⟨⟨hleg.asked, hleg.total⟩, h.complete⟩
  · intro instrument hnone
    refine h.absent instrument ?_
    rw [hget, if_neg, hnone]
    rintro rfl
    rw [hstaged] at hnone
    cases hnone
  · intro instrument before hbefore
    by_cases hsame : leg.instrument = instrument
    · subst hsame
      obtain rfl : depth = before := Option.some.inj (hstaged.symm.trans hbefore)
      obtain ⟨after, hafter, hconsumes⟩ :=
        h.present leg.instrument depth' (by rw [hget, if_pos rfl])
      refine ⟨after, hafter, hconsumes.book.trans hleg.book, fun side k => ?_⟩
      have hiff : leg = ⟨leg.instrument, side⟩ ↔ side = leg.side := by
        cases leg
        simp [eq_comm]
      rw [hconsumes.grown, hleg.grown, takenByLegs_cons]
      simp only [hiff]
      omega
    · obtain ⟨after, hafter, hconsumes⟩ :=
        h.present instrument before (by rw [hget, if_neg hsame, hbefore])
      refine ⟨after, hafter, hconsumes.book, fun side k => ?_⟩
      rw [hconsumes.grown, takenByLegs_cons, if_neg fun heq => hsame (by rw [heq]), Nat.zero_add]
  · intro hwithin
    refine h.within fun instrument d hd => ?_
    rw [hget] at hd
    split_ifs at hd with hsame
    · obtain rfl := Option.some.inj hd
      exact hleg.within (hwithin leg.instrument depth hstaged)
    · exact hwithin instrument d hd

theorem executeLegs_ok {requested : Quantity} {depthLevels : ℕ} {legs : List AtomicDepthLeg}
    {staged staged' : DepthBooks} {fills : List AtomicDepthFill}
    (h : executeLegs requested depthLevels legs staged = .ok (some (fills, staged'))) :
    FillsLegs requested legs fills staged staged' := by
  induction legs generalizing staged fills with
  | nil =>
    cases h
    exact ⟨rfl, by simp, by simp, fun _ h => h,
      fun instrument depth h => ⟨depth, h, .none _ _⟩, fun h => h⟩
  | cons leg legs ih =>
    unfold executeLegs at h
    cases hstaged : staged[leg.instrument]? with
    | none =>
      rw [hstaged] at h
      cases h
    | some depth =>
      simp only [hstaged, bind_eq_ok, mapError_eq_ok] at h
      obtain ⟨sweep, hpreview, h⟩ := h
      by_cases hcomplete : sweep.isComplete = false
      · rw [if_pos hcomplete] at h
        cases h
      · rw [if_neg hcomplete] at h
        simp only [bind_eq_ok, pure_eq_ok, Option.map_eq_some_iff] at h
        obtain ⟨depth', happly, result, hrest, ⟨fills', staged''⟩, rfl, hfills⟩ := h
        obtain ⟨rfl, rfl⟩ := Prod.mk.inj hfills
        exact .cons hstaged (fillsLeg hpreview (by simpa using hcomplete) happly) (ih hrest)

/-- The staged books are copies, of the instruments of the legs only. -/
theorem stageBooks_some {books staged : DepthBooks} {legs : List AtomicDepthLeg} {seen : DepthBooks}
    (h : stageBooks books legs seen = some staged)
    (hseen : ∀ (instrument : InstrumentId) depth, seen[instrument]? = some depth →
      books[instrument]? = some depth) :
    (∀ (instrument : InstrumentId) depth, staged[instrument]? = some depth →
      books[instrument]? = some depth) ∧
      ∀ instrument : InstrumentId, (∀ leg ∈ legs, leg.instrument ≠ instrument) →
      staged[instrument]? = seen[instrument]? := by
  induction legs generalizing seen with
  | nil =>
    cases h
    exact ⟨hseen, fun _ _ => rfl⟩
  | cons leg legs ih =>
    unfold stageBooks at h
    cases hbook : books[leg.instrument]? with
    | none =>
      rw [hbook] at h
      cases h
    | some book =>
      rw [hbook] at h
      have hget (instrument : InstrumentId) : (seen.insertIfNew leg.instrument book)[instrument]? =
          if leg.instrument = instrument ∧
            leg.instrument ∉ seen then some book else seen[instrument]? := by
        rw [Std.ExtTreeMap.getElem?_insertIfNew]
        simp only [Std.LawfulEqCmp.compare_eq_iff_eq]
      obtain ⟨hcopies, hothers⟩ := ih h fun instrument depth hdepth => by
        rw [hget] at hdepth
        split_ifs at hdepth with hnew
        · rw [← hnew.1, hbook, ← hdepth]
        · exact hseen instrument depth hdepth
      refine ⟨hcopies, fun instrument hnone => ?_⟩
      rw [List.forall_mem_cons] at hnone
      rw [hothers instrument hnone.2, hget, if_neg fun hnew => hnone.1 hnew.1]

/-- Everything an execution can do: leave the books as they are, or put the staged ones in place. -/
theorem executeAtomicDepth_cases (legs : List AtomicDepthLeg) (requested : Quantity)
    (depthLevels : ℕ) (books : DepthBooks) :
    (∃ e, executeAtomicDepth legs requested depthLevels books = .error e books) ∨
    executeAtomicDepth legs requested depthLevels books = .ok none books ∨
    ∃ staged fills staged', stageBooks books legs ∅ = some staged ∧
      executeLegs requested depthLevels legs staged = .ok (some (fills, staged')) ∧
      executeAtomicDepth legs requested depthLevels books = .ok (some fills) (books ∪ staged') := by
  unfold executeAtomicDepth
  rw [get_bind]
  cases hstage : stageBooks books legs ∅ with
  | none => exact .inr (.inl rfl)
  | some staged =>
    cases hlegs : executeLegs requested depthLevels legs staged with
    | error e => exact .inl ⟨e, by simp only [lift_bind_error hlegs]⟩
    | ok result =>
      simp only [lift_bind hlegs]
      cases result with
      | none => exact .inr (.inl rfl)
      | some filled => exact .inr (.inr ⟨staged, filled.1, filled.2, rfl, hlegs, rfl⟩)

/-- All legs are filled in full and their books consumed by just that, or nothing changes. -/
theorem atomic_depth_all_or_nothing (books : DepthBooks) (legs : List AtomicDepthLeg)
    (requested : Quantity) (depthLevels : ℕ) :
    (∀ e books', executeAtomicDepth legs requested depthLevels books = .error e books' →
      books' = books) ∧
    (∀ books', executeAtomicDepth legs requested depthLevels books = .ok none books' →
      books' = books) ∧
    ∀ fills books', executeAtomicDepth legs requested depthLevels books = .ok (some fills) books' →
      fills.map AtomicDepthFill.leg = legs ∧
      (∀ fill ∈ fills, fill.sweep.requested = requested ∧
        filledTotal fill.sweep.fills = requested.value.val) ∧
      (∀ instrument : InstrumentId, books[instrument]? = none → books'[instrument]? = none) ∧
      (∀ (instrument : InstrumentId) depth, books[instrument]? = some depth →
        ∃ depth', books'[instrument]? = some depth' ∧ GrowsBy fills instrument depth depth') ∧
      (∀ instrument : InstrumentId, (∀ leg ∈ legs, leg.instrument ≠ instrument) →
        books'[instrument]? = books[instrument]?) ∧
      ((∀ (instrument : InstrumentId) depth, books[instrument]? = some depth → depth.Within) →
        ∀ (instrument : InstrumentId) depth, books'[instrument]? = some depth → depth.Within) := by
  rcases executeAtomicDepth_cases legs requested depthLevels books with
    ⟨e, he⟩ | hnone | ⟨staged, fills, staged', hstage, hlegs, hok⟩
  · rw [he]
    refine ⟨fun e' books' h => ?_, fun books' h => (nomatch h), fun fills books' h => (nomatch h)⟩
    injection h with _ h
    exact h.symm
  · rw [hnone]
    refine ⟨fun e' books' h => (nomatch h), fun books' h => ?_, fun fills books' h => (nomatch h)⟩
    injection h with _ h
    exact h.symm
  · rw [hok]
    refine ⟨fun e' books' h => (nomatch h), fun books' h => (nomatch h), fun fills' books' h => ?_⟩
    injection h with hfills hbooks
    obtain rfl := Option.some.inj hfills
    subst hbooks
    have hfilled := executeLegs_ok hlegs
    obtain ⟨hcopies, hothers⟩ := stageBooks_some hstage fun instrument depth h => by simp at h
    have hunstaged (instrument : InstrumentId) (h : staged[instrument]? = none) :
        (books ∪ staged')[instrument]? = books[instrument]? := by
      rw [Std.ExtTreeMap.getElem?_union, hfilled.absent instrument h]
      rfl
    refine ⟨hfilled.inOrder, hfilled.complete, ?_, ?_, ?_, ?_⟩
    · intro instrument hnone
      rw [hunstaged instrument, hnone]
      by_contra hsome
      obtain ⟨depth, hdepth⟩ := Option.ne_none_iff_exists'.1 hsome
      rw [hcopies instrument depth hdepth] at hnone
      cases hnone
    · intro instrument depth hdepth
      cases hstaged : staged[instrument]? with
      | some copy =>
        obtain rfl : depth = copy :=
          Option.some.inj (hdepth.symm.trans (hcopies instrument copy hstaged))
        obtain ⟨depth', hdepth', hconsumes⟩ := hfilled.present instrument depth hstaged
        exact ⟨depth', by rw [Std.ExtTreeMap.getElem?_union, hdepth']; rfl, hconsumes⟩
      | none =>
        refine ⟨depth, by rw [hunstaged instrument hstaged, hdepth], rfl, fun side k => ?_⟩
        rw [takenByLegs_eq_zero, Nat.add_zero]
        intro fill hfill hsame
        have hknown := hfilled.known fill.leg (hfilled.inOrder ▸ List.mem_map_of_mem hfill)
        rw [hsame, hstaged] at hknown
        cases hknown
    · intro instrument hlegs
      refine hunstaged instrument ?_
      rw [hothers instrument hlegs]
      rfl
    · intro hwithin instrument depth hdepth
      rw [Std.ExtTreeMap.getElem?_union] at hdepth
      cases hstaged : staged'[instrument]? with
      | some copy =>
        rw [hstaged] at hdepth
        obtain rfl : copy = depth := Option.some.inj hdepth
        exact hfilled.within (fun i d hd => hwithin i d (hcopies i d hd)) instrument copy hstaged
      | none =>
        rw [hstaged] at hdepth
        exact hwithin instrument depth hdepth

end Legs

end Osmium
