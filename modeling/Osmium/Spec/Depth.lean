import Osmium.Lib.Stateful
import Osmium.Spec.Orders

/-! A sweep of displayed depth: levels are taken from the best price on, each up to what is
displayed and not yet consumed, until the order is filled or a level is no longer marketable. A
sweep over several legs works on copies of the books and puts them in place at the end. -/

namespace Osmium
open Machine Result Stateful

@[ext] structure LevelFill where
  levelIndex : ℕ
  price : Price
  quantity : Quantity
deriving DecidableEq

structure DepthSweepResult where
  fills : List LevelFill
  requested : Quantity
  filledValue : U64
deriving DecidableEq

def DepthSweepResult.isComplete (self : DepthSweepResult) : Bool :=
  self.filledValue = self.requested.value

inductive DepthSweepError
  | invalidDepthLevels (levels : ℕ)
  | invalidAdversePriceDelta
  | consumedQuantityExceedsDisplayed (levelIndex : ℕ)
  | quantityUnitMismatch (expected actual : QuantityUnit)
  | quantityOverflow
deriving DecidableEq

def applyAdversePrice (price : Price) (side : OrderSide) (adversePriceDelta : Decimal) :
    Except DepthSweepError Price :=
  let adjusted := match side with
    | .buy => price.value.checkedAdd adversePriceDelta
    | .sell => price.value.checkedSub adversePriceDelta
  Price.mk <$> adjusted.mapError fun _ => .invalidAdversePriceDelta

def isMarketable (price : Price) (side : OrderSide) (orderType : OrderType) : Bool :=
  match orderType, side with
  | .market, _ => true
  | .limit limitPrice, .buy => price ≤ limitPrice
  | .limit limitPrice, .sell => limitPrice ≤ price

/-- The loop over levels paired with what is consumed of them; the accumulators are the index of the
next level and the quantity that remains. -/
def sweepLevels (side : OrderSide) (orderType : OrderType) (adversePriceDelta : Decimal)
    (unit : QuantityUnit) :
    List (BookLevel × U64) → ℕ → U64 → Except DepthSweepError (List LevelFill × U64)
  | [], _, remaining => .ok ([], remaining)
  | (level, consumed) :: rest, index, remaining =>
    if hremaining : remaining.val = 0 then .ok ([], remaining)
    else do
      let price ← applyAdversePrice level.price side adversePriceDelta
      if isMarketable price side orderType = false then .ok ([], remaining)
      else
        let available ← okOr (.consumedQuantityExceedsDisplayed (index + 1))
          (level.displayedQuantity.value.checkedSub consumed)
        if havailable : available.val = 0 then
          sweepLevels side orderType adversePriceDelta unit rest (index + 1) remaining
        else
          let fillValue := min remaining available
          have hpos : 0 < fillValue.val := by
            rcases min_choice remaining available with h | h <;> simp only [fillValue, h] <;> omega
          let (fills, left) ← sweepLevels side orderType adversePriceDelta unit rest (index + 1)
            (remaining.wrappingSub fillValue)
          return (LevelFill.mk (index + 1) price (Quantity.mk fillValue unit hpos) :: fills, left)

/-- The side of the book an order takes from. -/
def CompleteBookSnapshot.opposite (book : CompleteBookSnapshot) : OrderSide → BookSide
  | .buy => book.asks
  | .sell => book.bids

def checkBookUnit (book : CompleteBookSnapshot) (expected : QuantityUnit) :
    Except DepthSweepError Unit :=
  match book.quantityUnit with
  | some actual => ensure (actual = expected) (.quantityUnitMismatch expected actual)
  | none => .ok ()

def sweepMarketableDepthWithConsumed (book : CompleteBookSnapshot) (side : OrderSide)
    (requested : Quantity) (depthLevels : ℕ) (orderType : OrderType) (adversePriceDelta : Decimal)
    (consumed : Vector U64 bookDepth) :
    Except DepthSweepError DepthSweepResult := do
  ensure (1 ≤ depthLevels ∧ depthLevels ≤ bookDepth) (.invalidDepthLevels depthLevels)
  ensure (0 ≤ adversePriceDelta.atoms.val) .invalidAdversePriceDelta
  checkBookUnit book requested.unit
  let levels := (book.opposite side).levels.take depthLevels
  let (fills, remaining) ← sweepLevels side orderType adversePriceDelta requested.unit
      (levels.zip consumed.toList) 0
    requested.value
  return {
    fills := fills
    requested := requested
    filledValue := requested.value.wrappingSub remaining }

/-- A visible snapshot with what the strategy has consumed of it. -/
@[ext] structure ConsumableDepth where
  book : CompleteBookSnapshot
  consumedBids : Vector U64 bookDepth
  consumedAsks : Vector U64 bookDepth
deriving DecidableEq

def ConsumableDepth.new (book : CompleteBookSnapshot) : ConsumableDepth where
  book := book
  consumedBids := Vector.replicate bookDepth 0
  consumedAsks := Vector.replicate bookDepth 0

def ConsumableDepth.consumed (self : ConsumableDepth) : OrderSide → Vector U64 bookDepth
  | .buy => self.consumedAsks
  | .sell => self.consumedBids

def ConsumableDepth.setConsumed (self : ConsumableDepth) (side : OrderSide)
    (consumed : Vector U64 bookDepth) :
    ConsumableDepth :=
  match side with
  | .buy => { self with consumedAsks := consumed }
  | .sell => { self with consumedBids := consumed }

def ConsumableDepth.preview (self : ConsumableDepth) (side : OrderSide) (requested : Quantity)
    (depthLevels : ℕ) :
    Except DepthSweepError DepthSweepResult :=
  sweepMarketableDepthWithConsumed self.book side requested depthLevels .market Decimal.zero
    (self.consumed side)

/-- The errors of a sweep, and an index outside of the five levels. -/
inductive AtomicDepthError
  | sweep (error : DepthSweepError)
  | panicked
deriving DecidableEq

/-- The loop of `apply` over the fills of a sweep. -/
def consumeFills : List LevelFill → Vector U64 bookDepth →
    Except AtomicDepthError (Vector U64 bookDepth)
  | [], consumed => .ok consumed
  | fill :: rest, consumed => do
    let index := fill.levelIndex - 1
    let before ← okOr .panicked consumed[index]?
    let after ← okOr (.sweep .quantityOverflow) (before.checkedAdd fill.quantity.value)
    consumeFills rest (consumed.setIfInBounds index after)

def ConsumableDepth.apply (self : ConsumableDepth) (side : OrderSide) (sweep : DepthSweepResult) :
    Except AtomicDepthError ConsumableDepth := do
  return self.setConsumed side (← consumeFills sweep.fills (self.consumed side))

structure AtomicDepthLeg where
  instrument : InstrumentId
  side : OrderSide
deriving DecidableEq

structure AtomicDepthFill where
  leg : AtomicDepthLeg
  sweep : DepthSweepResult
deriving DecidableEq

abbrev DepthBooks := Std.ExtTreeMap InstrumentId ConsumableDepth

/-- A copy of the book of every leg, or nothing when one is missing. -/
def stageBooks (books : DepthBooks) : List AtomicDepthLeg → DepthBooks → Option DepthBooks
  | [], staged => some staged
  | leg :: rest, staged =>
    match books[leg.instrument]? with
    | none => none
    | some book => stageBooks books rest (staged.insertIfNew leg.instrument book)

/-- The legs in order on the staged books; nothing when one of them is not filled in full. -/
def executeLegs (requested : Quantity) (depthLevels : ℕ) :
    List AtomicDepthLeg → DepthBooks →
    Except AtomicDepthError (Option (List AtomicDepthFill × DepthBooks))
  | [], staged => .ok (some ([], staged))
  | leg :: rest, staged =>
    match staged[leg.instrument]? with
    | none => .ok none
    | some book => do
      let sweep ← (book.preview leg.side requested depthLevels).mapError .sweep
      if sweep.isComplete = false then .ok none
      else
        let book ← book.apply leg.side sweep
        let result ← executeLegs requested depthLevels rest (staged.insert leg.instrument book)
        return result.map fun (fills, staged) => (⟨leg, sweep⟩ :: fills, staged)

/-- The staged books replace their originals only when every leg is filled. -/
def executeAtomicDepth (legs : List AtomicDepthLeg) (requested : Quantity) (depthLevels : ℕ) :
    EStateM AtomicDepthError DepthBooks (Option (List AtomicDepthFill)) := do
  let books ← get
  match stageBooks books legs ∅ with
  | none => return none
  | some staged =>
    match ← lift (executeLegs requested depthLevels legs staged) with
    | none => return none
    | some (fills, staged) =>
      set (books ∪ staged)
      return some fills

end Osmium
