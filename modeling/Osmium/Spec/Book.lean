import Osmium.Spec.Values

/-! Five-level book sides and complete book snapshots. A side can only be built through its
validation, which the structure carries, so that every book in the model has contiguous levels,
strictly ordered prices and one quantity unit. -/

namespace Osmium
open Machine Result

abbrev bookDepth : ℕ := 5

@[ext] structure BookLevel where
  price : Price
  displayedQuantity : Quantity
deriving DecidableEq

inductive BookSideKind | bid | ask
deriving DecidableEq

inductive BookError
  | tooManyLevels (side : BookSideKind) (count : ℕ)
  | nonContiguous (side : BookSideKind) (index : ℕ)
  | priceOrder (side : BookSideKind) (index : ℕ)
  | unitMismatch (side : BookSideKind) (expected actual : QuantityUnit) (index : ℕ)
  | wrongSide (expected actual : BookSideKind)
  | crossSideUnitMismatch (bid ask : QuantityUnit)
deriving DecidableEq

abbrev Slots := Vector (Option BookLevel) bookDepth

/-- The levels before the first empty slot. -/
def levelsOf : List (Option BookLevel) → List BookLevel
  | some level :: rest => level :: levelsOf rest
  | _ => []

def correctlyOrdered : BookSideKind → Price → Price → Bool
  | .bid, previous, price => price < previous
  | .ask, previous, price => previous < price

/-- The loop of `BookSide::validate`: the accumulators are the slot index, whether an empty slot was
seen, the level before, and the unit every level must have. -/
def validateSlots (kind : BookSideKind) :
    List (Option BookLevel) → ℕ → Bool → Option BookLevel → Option QuantityUnit →
    Except BookError Unit
  | [], _, _, _, _ => .ok ()
  | none :: rest, index, _, previous, unit => validateSlots kind rest (index + 1) true previous unit
  | some level :: rest, index, emptySeen, previous, unit => do
    ensure (emptySeen = false) (.nonContiguous kind index)
    let levelUnit := level.displayedQuantity.unit
    match unit with
    | some expected => ensure (expected = levelUnit) (.unitMismatch kind expected levelUnit index)
    | none => pure ()
    match previous with
    | some before =>
      ensure (correctlyOrdered kind before.price level.price) (.priceOrder kind index)
    | none => pure ()
    validateSlots kind rest (index + 1) emptySeen (some level) (some (unit.getD levelUnit))

def validateSide (kind : BookSideKind) (marketOrderQuantity : Option Quantity) (slots : Slots) :
    Except BookError Unit := do
  let displayedEntryCount :=
    (levelsOf slots.toList).length + (if marketOrderQuantity.isSome then 1 else 0)
  ensure (displayedEntryCount ≤ bookDepth) (.tooManyLevels kind displayedEntryCount)
  validateSlots kind slots.toList 0 false none (marketOrderQuantity.map Quantity.unit)

/-- One complete displayed side of a book. The aggregate market-order quantity is kept apart from
the priced levels. -/
@[ext] structure BookSide where
  kind : BookSideKind
  marketOrderQuantity : Option Quantity
  slots : Slots
  valid : validateSide kind marketOrderQuantity slots = .ok ()
deriving DecidableEq

def BookSide.fromParts (kind : BookSideKind) (marketOrderQuantity : Option Quantity)
    (slots : Slots) :
    Except BookError BookSide :=
  match h : validateSide kind marketOrderQuantity slots with
  | .ok () => .ok ⟨kind, marketOrderQuantity, slots, h⟩
  | .error e => .error e

theorem BookSide.fromParts_eq_ok (k : BookSideKind) (q : Option Quantity) (s : Slots)
    (side : BookSide) :
    BookSide.fromParts k q s = .ok side ↔
    k = side.kind ∧ q = side.marketOrderQuantity ∧ s = side.slots := by
  unfold BookSide.fromParts
  split
  · rw [Except.ok.injEq]
    exact ⟨fun e => e ▸ ⟨rfl, rfl, rfl⟩, fun e => BookSide.ext e.1 e.2.1 e.2.2⟩
  · next e he =>
    simp only [reduceCtorEq, false_iff]
    rintro ⟨rfl, rfl, rfl⟩
    rw [side.valid] at he
    cases he

def BookSide.levels (side : BookSide) : List BookLevel := levelsOf side.slots.toList

def BookSide.quantityUnit (side : BookSide) : Option QuantityUnit :=
  (side.marketOrderQuantity.map Quantity.unit).or
    (side.levels.head?.map fun level => level.displayedQuantity.unit)

def checkSides (bids asks : BookSide) : Except BookError Unit := do
  ensure (bids.kind = .bid) (.wrongSide .bid bids.kind)
  ensure (asks.kind = .ask) (.wrongSide .ask asks.kind)
  match bids.quantityUnit, asks.quantityUnit with
  | some bidUnit, some askUnit =>
    ensure (bidUnit = askUnit) (.crossSideUnitMismatch bidUnit askUnit)
  | _, _ => pure ()

/-- A complete replacement of both book sides. -/
@[ext] structure CompleteBookSnapshot where
  bids : BookSide
  asks : BookSide
  valid : checkSides bids asks = .ok ()
deriving DecidableEq

def CompleteBookSnapshot.new (bids asks : BookSide) : Except BookError CompleteBookSnapshot :=
  match h : checkSides bids asks with
  | .ok () => .ok ⟨bids, asks, h⟩
  | .error e => .error e

theorem CompleteBookSnapshot.new_eq_ok (bids asks : BookSide) (book : CompleteBookSnapshot) :
    CompleteBookSnapshot.new bids asks = .ok book ↔ bids = book.bids ∧ asks = book.asks := by
  unfold CompleteBookSnapshot.new
  split
  · rw [Except.ok.injEq]
    exact ⟨fun e => e ▸ ⟨rfl, rfl⟩, fun e => CompleteBookSnapshot.ext e.1 e.2⟩
  · next e he =>
    simp only [reduceCtorEq, false_iff]
    rintro ⟨rfl, rfl⟩
    rw [book.valid] at he
    cases he

def CompleteBookSnapshot.quantityUnit (book : CompleteBookSnapshot) : Option QuantityUnit :=
  book.bids.quantityUnit.or book.asks.quantityUnit

theorem CompleteBookSnapshot.kinds (book : CompleteBookSnapshot) :
    book.bids.kind = .bid ∧ book.asks.kind = .ask := by
  have h := book.valid
  simp only [checkSides, bind_eq_ok, ensure_eq_ok] at h
  obtain ⟨_, hb, _, ha, _⟩ := h
  exact ⟨hb, ha⟩

end Osmium
