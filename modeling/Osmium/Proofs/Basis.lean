import Osmium.Proofs.Accounting
import Osmium.Sanity.Precision

/-! The cost basis over a run of fills: how near its quotients come to the exact ones, and when a
share of it that leaves with a closed part can be scaled by the contract multiplier. -/

namespace Osmium
open Machine Bytes Result Stateful Rounding

section Nearest
variable {fill : FillRecord} {l l' : Ledger}

def Ledger.size (l : Ledger) : ℤ := |l.position.val|

/-- The average cost is reported while a position is open, within half an atom of the exact
quotient. -/
structure Ledger.AverageNearest (l : Ledger) : Prop where
  reported : l.averageCost = none ↔ l.position.val = 0
  near : ∀ cost, l.averageCost = some cost →
    |cost.exact - (Decimal.mk l.costBasisAtoms).exact / l.size| ≤ 1 / (2 * 10 ^ 18)

/-- A fill that closes a part of the position, and not all of it. -/
def Ledger.ClosesPart (l : Ledger) (fill : FillRecord) : Prop :=
  ¬ (l.position.val = 0 ∨ l.position.val.sign = fill.signed.sign) ∧ fill.quantity.value.val < l.size

/-- What leaves the basis with a closed part is within half an atom of its proportional share. -/
def AllocationNearest (fill : FillRecord) (l l' : Ledger) : Prop :=
  l.ClosesPart fill →
    |(Decimal.mk l.costBasisAtoms).exact - (Decimal.mk l'.costBasisAtoms).exact -
      (Decimal.mk l.costBasisAtoms).exact * fill.quantity.value.val / l.size| ≤ 1 / (2 * 10 ^ 18)

/-- The divisions that the fill leads to round to the nearest: that of the basis after it by the
position after it, and before that, when it closes a part, that of the basis times the closed
quantity by the position. -/
def Ledger.DividesToNearest (l : Ledger) (fill : FillRecord) : Prop :=
  let quantity : ℤ := fill.quantity.value.val
  let share : ℤ := round (l.costBasisAtoms.val * quantity / l.size : ℚ)
  (l.position.val = 0 ∨ l.position.val.sign = fill.signed.sign →
    RoundsToNearest (l.costBasisAtoms.val + fill.price.atoms.val * quantity) |l.position.val +
      fill.signed|) ∧
  (l.ClosesPart fill → RoundsToNearest (l.costBasisAtoms.val * quantity) l.size ∧
    RoundsToNearest (l.costBasisAtoms.val - share) |l.position.val + fill.signed|)

theorem abs_exact_le_iff (x : ℚ) : |x / Decimal.scaleFactor| ≤ 1 / (2 * 10 ^ 18) ↔ |x| ≤ 1 / 2 := by
  rw [abs_div, Nat.abs_cast, scaleFactor_eq, div_le_iff₀ (by positivity)]
  norm_num

theorem averageCostOf_nearest {basis position : I128} {average : Option Decimal}
    (h : averageCostOf basis position = .ok average) :
    (average = none ↔ position.val = 0) ∧
    ((∀ cost, average = some cost →
      |cost.exact - (Decimal.mk basis).exact / (|position.val| : ℤ)| ≤ 1 / (2 * 10 ^ 18)) ↔
      (position.val ≠ 0 → RoundsToNearest basis.val |position.val|)) := by
  unfold averageCostOf at h
  by_cases hzero : position.val = 0
  · rw [if_pos hzero, pure_eq_ok] at h
    subst h
    simp [hzero]
  · simp only [hzero, if_false, bind_eq_ok, checked_eq_ok, Signed.ofInt?_eq_some, pure_eq_ok] at h
    obtain ⟨divisor, hdivisor, z, hz, rfl⟩ := h
    have hpos : 0 < divisor.val := hdivisor ▸ abs_pos.2 hzero
    have hexact : (Decimal.mk z).exact - (Decimal.mk basis).exact / divisor.val =
        (z.val - basis.val / divisor.val) / Decimal.scaleFactor := by
      rw [Decimal.exact, Decimal.exact]
      ring
    simp only [reduceCtorEq, hzero, Option.some.injEq, forall_eq', ne_eq, not_false_eq_true,
      forall_const, true_and]
    rw [← hdivisor, hexact, abs_exact_le_iff, divideRound_nearest_iff hpos hz]

theorem sign_add_of_abs_lt {p q : ℤ} (h : |q| < |p|) : p + q ≠ 0 ∧ (p + q).sign = p.sign := by
  have hp := abs_cases p
  have hq := abs_cases q
  rcases lt_trichotomy p 0 with hneg | rfl | hpos
  · rw [Int.sign_eq_neg_one_of_neg hneg, Int.sign_eq_neg_one_of_neg (by omega)]
    exact ⟨by omega, rfl⟩
  · rw [abs_zero] at h
    exact absurd h (by omega)
  · rw [Int.sign_eq_one_of_pos hpos, Int.sign_eq_one_of_pos (by omega)]
    exact ⟨by omega, rfl⟩

theorem sign_add_ne_of_abs_le {p q : ℤ} (hp : p ≠ 0) (hopp : p.sign ≠ q.sign) (h : |p| ≤ |q|)
    (hne : p + q ≠ 0) :
    (p + q).sign ≠ p.sign := by
  have habs := abs_cases p
  have habs' := abs_cases q
  rcases lt_or_gt_of_ne hp with hneg | hpos
  · have hq : 0 ≤ q := by
      by_contra hq
      exact hopp (by rw [Int.sign_eq_neg_one_of_neg hneg, Int.sign_eq_neg_one_of_neg (by omega)])
    rw [Int.sign_eq_neg_one_of_neg hneg, Int.sign_eq_one_of_pos (by omega)]
    decide
  · have hq : q ≤ 0 := by
      by_contra hq
      exact hopp (by rw [Int.sign_eq_one_of_pos hpos, Int.sign_eq_one_of_pos (by omega)])
    rw [Int.sign_eq_one_of_pos hpos, Int.sign_eq_neg_one_of_neg (by omega)]
    decide

theorem abs_signed (fill : FillRecord) : |fill.signed| = fill.quantity.value.val := by
  unfold FillRecord.signed
  cases fill.side <;> simp

theorem roundsToNearest_mul (price : ℤ) {d : ℤ} (hd : 0 < d) : RoundsToNearest (price * d) d := by
  left
  rw [abs_mul, abs_of_pos hd, Int.mul_emod_left]
  omega

/-- A part closed: the share of the basis that leaves, and the basis that stays, in exact integers.
-/
theorem closesPart_basis {parts : FillParts} (hb : parts.Booked fill l l')
    (hpart : l.ClosesPart fill) :
    ∃ numerator size allocated : I128,
      numerator.val = l.costBasisAtoms.val * fill.quantity.value.val ∧
      size.val = l.size ∧ divideRound numerator size .halfUp = .ok allocated ∧
      l'.costBasisAtoms.val = l.costBasisAtoms.val - allocated.val := by
  obtain ⟨hnext, haverage, h⟩ := transitionPosition_cases hb.transition_ok
  rw [signedQuantity_val] at hnext h
  obtain ⟨hopp, hless⟩ := hpart
  have hquantity := abs_signed fill
  have hsize : l.size = |l.position.val| := rfl
  rcases h with ⟨hadd, -⟩ |
    ⟨-, size, closed, allocated, value, difference, hsz, hclosed, hallocated, -, -, -, hbasis⟩
  · exact absurd hadd hopp
  have hcl : closed.val = fill.quantity.value.val := by omega
  have hne : closed ≠ size := fun heq => by
    rw [heq] at hcl
    omega
  unfold allocatedBasis at hallocated
  simp only [hne, if_false, bind_eq_ok, checked_eq_ok, Signed.checkedMul_eq_some] at hallocated
  obtain ⟨numerator, hnumerator, hdivide⟩ := hallocated
  obtain ⟨hnonzero, hsign⟩ := sign_add_of_abs_lt (p := l.position.val) (q := fill.signed) (by omega)
  refine ⟨numerator, size, allocated, by rw [hnumerator, hcl], hsz, hdivide, ?_⟩
  rw [hb.costBasisAtoms, remainingBasis_val (averageCostOf_bound haverage) hbasis, hnext,
    if_neg hnonzero, if_neg (not_not.2 hsign)]

/-- When the fill adds, flips or closes all, the basis after it in exact integers. -/
theorem wholePart_basis {parts : FillParts} (hb : parts.Booked fill l l')
    (hpart : ¬ l.ClosesPart fill) :
    (l.position.val = 0 ∨ l.position.val.sign = fill.signed.sign) ∧
        l'.costBasisAtoms.val = l.costBasisAtoms.val + fill.price.atoms.val *
          fill.quantity.value.val ∨
      ¬ (l.position.val = 0 ∨ l.position.val.sign = fill.signed.sign) ∧
        (l'.position.val ≠ 0 → l'.costBasisAtoms.val =
          fill.price.atoms.val * |l'.position.val|) := by
  obtain ⟨hnext, haverage, h⟩ := transitionPosition_cases hb.transition_ok
  rw [signedQuantity_val] at hnext h
  rcases h with
    ⟨hadd, hbasis, -⟩ | ⟨hopp, size, closed, allocated, value, difference, -, -, -, -, -, -, hbasis⟩
  · have hsmall := abs_signed_lt fill
    rw [← signedQuantity_val] at hsmall
    rw [abs_val_of_lt hsmall, signedQuantity_val, abs_signed] at hbasis
    exact .inl ⟨hadd, hb.costBasisAtoms ▸ hbasis⟩
  · refine .inr ⟨hopp, fun hne => ?_⟩
    have hle : |l.position.val| ≤ |fill.signed| := by
      have hnot : ¬ (fill.quantity.value.val : ℤ) < l.size := fun hless => hpart ⟨hopp, hless⟩
      rw [abs_signed]
      exact not_lt.1 hnot
    obtain ⟨hzero, hdiffer⟩ := not_or.1 hopp
    rw [hb.position] at hne ⊢
    rw [hnext] at hne
    rw [hb.costBasisAtoms, remainingBasis_val (averageCostOf_bound haverage) hbasis,
      hnext, if_neg hne, if_pos (sign_add_ne_of_abs_le hzero hdiffer hle hne)]
    rfl

theorem averageNearest_iff {parts : FillParts} (hb : parts.Booked fill l l') :
    l'.AverageNearest ↔
    (l'.position.val ≠ 0 → RoundsToNearest l'.costBasisAtoms.val |l'.position.val|) := by
  obtain ⟨-, haverage, -⟩ := transitionPosition_cases hb.transition_ok
  rw [← hb.position, ← hb.costBasisAtoms, ← hb.averageCost] at haverage
  obtain ⟨hreported, hnear⟩ := averageCostOf_nearest haverage
  rw [← hnear]
  exact ⟨fun h => h.near, fun h => ⟨hreported, h⟩⟩

theorem position_after {parts : FillParts} (hb : parts.Booked fill l l') :
    l'.position.val = l.position.val + fill.signed := by
  rw [hb.position, (transitionPosition_cases hb.transition_ok).1, signedQuantity_val]

theorem position_ne_zero_of_adds (h : l.position.val = 0 ∨ l.position.val.sign = fill.signed.sign) :
    l.position.val + fill.signed ≠ 0 := by
  have hsigned := signed_ne_zero fill
  rcases h with hzero | hsame
  · rwa [hzero, zero_add]
  · intro hsum
    have hopposite : fill.signed = -l.position.val := by omega
    rw [hopposite, Int.sign_neg] at hsame
    have := Int.sign_eq_zero_iff_zero.1 (by omega : l.position.val.sign = 0)
    omega

/-- One fill: its quotients are the nearest exactly when its divisions round to the nearest. -/
theorem fill_nearest_iff (h : Ledger.applyFill fill l = .ok () l') :
    l'.AverageNearest ∧ AllocationNearest fill l l' ↔ l.DividesToNearest fill := by
  obtain ⟨parts, hb⟩ := applyFill_parts h
  have hposition := position_after hb
  rw [averageNearest_iff hb]
  by_cases hpart : l.ClosesPart fill
  · obtain ⟨numerator, size, allocated, hnumerator, hsize, hdivide, hbasis⟩ :=
      closesPart_basis hb hpart
    have hquantity := abs_signed fill
    have hpos : 0 < size.val := by
      have := hpart.2
      omega
    have hnonzero : l'.position.val ≠ 0 := by
      rw [hposition]
      refine (sign_add_of_abs_lt ?_).1
      rw [hquantity]
      exact hpart.2
    have hexact : (Decimal.mk l.costBasisAtoms).exact - (Decimal.mk l'.costBasisAtoms).exact -
        (Decimal.mk l.costBasisAtoms).exact * fill.quantity.value.val / l.size =
          (allocated.val - numerator.val / size.val) / Decimal.scaleFactor := by
      rw [Decimal.exact, Decimal.exact, hbasis, hnumerator, hsize]
      push_cast
      ring
    have halloc : AllocationNearest fill l l' ↔
        RoundsToNearest (l.costBasisAtoms.val * fill.quantity.value.val) l.size := by
      rw [AllocationNearest, hexact, abs_exact_le_iff, divideRound_nearest_iff hpos hdivide,
        hnumerator, hsize, forall_prop_of_true hpart]
    have hshare (hnear : RoundsToNearest (l.costBasisAtoms.val * fill.quantity.value.val) l.size) :
        allocated.val = round (l.costBasisAtoms.val * fill.quantity.value.val / l.size : ℚ) := by
      rw [divideRound_eq_round hpos hdivide (by rwa [hnumerator, hsize]), hnumerator, hsize]
      push_cast
      rfl
    rw [halloc, forall_prop_of_true hnonzero, hbasis, hposition]
    constructor
    · rintro ⟨haverage, hallocated⟩
      rw [hshare hallocated] at haverage
      exact ⟨fun hadd => absurd hadd hpart.1, fun _ => ⟨hallocated, by exact_mod_cast haverage⟩⟩
    · rintro ⟨-, hpartial⟩
      obtain ⟨hallocated, haverage⟩ := hpartial hpart
      rw [hshare hallocated]
      exact ⟨by exact_mod_cast haverage, hallocated⟩
  · rcases wholePart_basis hb hpart with ⟨hadd, hbasis⟩ | ⟨hopp, hbasis⟩
    · have hnonzero : l'.position.val ≠ 0 := by
        rw [hposition]
        exact position_ne_zero_of_adds hadd
      rw [forall_prop_of_true hnonzero, hbasis, hposition]
      constructor
      · rintro ⟨haverage, -⟩
        exact ⟨fun _ => haverage, fun h => absurd h hpart⟩
      · rintro ⟨haverage, -⟩
        exact ⟨haverage hadd, fun h => absurd h hpart⟩
    · -- a flip opens at the fill price, and a closed position has no average
      have haverage : l'.position.val ≠ 0 →
          RoundsToNearest l'.costBasisAtoms.val |l'.position.val| := by
        intro hne
        rw [hbasis hne]
        exact roundsToNearest_mul _ (abs_pos.2 hne)
      exact ⟨fun _ => ⟨fun h => absurd h hopp, fun h => absurd h hpart⟩, fun _ =>
        ⟨haverage, fun h => absurd h hpart⟩⟩

/-- Over any run of fills, every average cost and every allocated basis is the nearest exactly when
every division of the run rounds to the nearest. -/
theorem quotients_nearest_iff (fills : List FillRecord) (start l : Ledger)
    (run : applyFills fills start = .ok () l) :
    (∀ before fill after m m', fills = before ++ fill :: after →
      applyFills before start = .ok () m →
      Ledger.applyFill fill m = .ok () m' → m'.AverageNearest ∧ AllocationNearest fill m m') ↔
    ∀ before fill after m, fills = before ++ fill :: after → applyFills before start = .ok () m →
      m.DividesToNearest fill := by
  constructor
  · intro h before fill after m hfills hbefore
    rw [hfills, applyFills_append] at run
    obtain ⟨m₀, hm₀, run⟩ := run
    obtain ⟨m', hfill, -⟩ := (applyFills_cons _ _ _ _).1 run
    obtain rfl : m₀ = m := by
      rw [hm₀] at hbefore
      injection hbefore
    exact (fill_nearest_iff hfill).1 (h before fill after _ m' hfills hbefore hfill)
  · intro h before fill after m m' hfills hbefore hfill
    exact (fill_nearest_iff hfill).2 (h before fill after m hfills hbefore)

/-- A ledger of spread contracts without charges. -/
def spreadLedger : Ledger :=
  (Ledger.newWithModel Decimal.zero exampleEconomics
    ⟨.notionalRate, Decimal.zero, .both, Decimal.zero, 0, .down⟩
    ⟨.notionalRate, Decimal.zero, .both, Decimal.zero, 0, .down⟩ .futuresV1).withOptionalDayTradeTax
      none

/-- Three contracts bought at a basis of minus five: the quotient is cut off towards zero and then
one atom is added. -/
theorem average_cost_off : ∃ l, applyFills
      [exampleFill .buy (-1) 1 (by decide), exampleFill .buy (-2) 2 (by decide)]
        spreadLedger = .ok () l ∧
    ¬ l.AverageNearest := by
  have hrun : returnsAnd (applyFills
      [exampleFill .buy (-1) 1 (by decide), exampleFill .buy (-2) 2 (by decide)] spreadLedger)
      (fun _ l => decide (l.position.val = 3 ∧ l.costBasisAtoms.val = -5 * 10 ^ 18 ∧
        l.averageCost = some ⟨Signed.wrap 128 (-1666666666666666665)⟩)) = true := by decide +kernel
  obtain ⟨_, l, hl, hvalues⟩ := exists_of_returnsAnd hrun
  obtain ⟨hposition, hbasis, hcost⟩ := of_decide_eq_true hvalues
  refine ⟨l, hl, fun h => ?_⟩
  have hatoms : (Signed.wrap 128 (-1666666666666666665) : I128).val =
      -1666666666666666665 := by decide
  have hnear := h.near _ hcost
  rw [Decimal.exact, Decimal.exact, Ledger.size, hposition, hbasis, hatoms, abs_le] at hnear
  norm_num [Decimal.scaleFactor] at hnear

theorem dividesToNearest_of_adds
    (hadd : l.position.val = 0 ∨ l.position.val.sign = fill.signed.sign)
    (hnear : RoundsToNearest (l.costBasisAtoms.val + fill.price.atoms.val * fill.quantity.value.val)
      |l.position.val + fill.signed|) : l.DividesToNearest fill :=
  ⟨fun _ => hnear, fun hpart => absurd hadd hpart.1⟩

/-- Three bought at a basis of 302. -/
def threeBought : List FillRecord :=
  [exampleFill .buy 100 1 (by decide), exampleFill .buy 101 2 (by decide)]

def oneSold : FillRecord := exampleFill .sell 105 1 (by decide)

theorem oneSold_divides :
    (stateAfter (applyFills threeBought spreadLedger)).DividesToNearest oneSold := by
  have hposition : (stateAfter (applyFills threeBought spreadLedger)).position.val = 3 := by
    decide +kernel
  have hbasis : (stateAfter (applyFills threeBought spreadLedger)).costBasisAtoms.val =
      302 * 10 ^ 18 := by decide +kernel
  have hquantity : oneSold.quantity.value.val = 1 := by decide +kernel
  have hsigned : oneSold.signed = -1 := by decide +kernel
  have hround : round (((302 * 10 ^ 18 : ℤ) * ((1 : ℕ) : ℤ) : ℚ) / |(3 : ℤ)| : ℚ) =
      100666666666666666667 := by
    rw [round_eq_iff, Set.mem_Ico]
    norm_num
  refine ⟨fun hadd => absurd hadd ?_, fun _ => ?_⟩
  · rw [hposition, hsigned]
    decide
  · rw [Ledger.size, hposition, hbasis, hquantity, hsigned]
    rw [hround]
    decide

/-- The average of three, and the share of the one that is sold, are 302 thirds: cut off and then
rounded up. -/
theorem third_of_basis_nearest : ∃ m l, applyFills threeBought spreadLedger = .ok () m ∧
    Ledger.applyFill oneSold m = .ok () l ∧
    m.averageCost = some ⟨Signed.wrap 128 100666666666666666667⟩ ∧
    l.AverageNearest ∧ AllocationNearest oneSold m l := by
  have hbought : returnsAnd (applyFills threeBought spreadLedger) (fun _ m =>
      m.averageCost = some ⟨Signed.wrap 128 100666666666666666667⟩ &&
        returnsAnd (Ledger.applyFill oneSold m) (fun _ _ => true)) = true := by decide +kernel
  obtain ⟨_, m, hm, hcall⟩ := exists_of_returnsAnd hbought
  rw [Bool.and_eq_true, decide_eq_true_eq] at hcall
  obtain ⟨_, l, hl, -⟩ := exists_of_returnsAnd hcall.2
  have hrun : applyFills (threeBought ++ [oneSold]) spreadLedger = .ok () l :=
    (applyFills_append threeBought [oneSold] spreadLedger l).2
      ⟨m, hm, (applyFills_cons _ _ _ _).2 ⟨l, hl, rfl⟩⟩
  have hstate (before : List FillRecord) {m' : Ledger}
      (h : applyFills before spreadLedger = .ok () m') :
      m' = stateAfter (applyFills before spreadLedger) := by rw [h]; rfl
  refine ⟨m, l, hm, hl, hcall.1,
    (quotients_nearest_iff (threeBought ++ [oneSold]) spreadLedger l hrun).2
    (fun before fill after m' hfills hbefore => ?_) threeBought oneSold [] m l rfl hm hl⟩
  rw [hstate before hbefore]
  rcases before with _ | ⟨first, _ | ⟨second, _ | ⟨third, before⟩⟩⟩ <;>
    simp only [threeBought, List.cons_append, List.nil_append, List.cons.injEq] at hfills
  · obtain ⟨rfl, -⟩ := hfills
    exact dividesToNearest_of_adds (.inl rfl) (by decide +kernel)
  · obtain ⟨rfl, rfl, -⟩ := hfills
    exact dividesToNearest_of_adds (.inr (by decide +kernel)) (by decide +kernel)
  · obtain ⟨rfl, rfl, rfl, -⟩ := hfills
    exact oneSold_divides
  · exact absurd hfills.2.2.2 (by simp)

end Nearest

section Precision
variable {fill : FillRecord} {l l' : Ledger}

/-- The basis and the prices of the open sells can be scaled by the multiplier. -/
structure Ledger.Representable (l : Ledger) : Prop where
  basis : l.economics.Represents l.costBasisAtoms.val
  sells : ∀ price ∈ l.dayTradeSells.map DayTradeSell.price, l.economics.Represents price.atoms.val

/-- The share of the basis that leaves with a closed part: cut off to an atom, and one more from one
half on. -/
def Ledger.share (l : Ledger) (fill : FillRecord) : ℤ :=
  halfUpQuotient (l.costBasisAtoms.val * fill.quantity.value.val) l.size

/-- The share of a closed part can be scaled by the multiplier. -/
def Ledger.ShareRepresents (l : Ledger) (fill : FillRecord) : Prop :=
  l.ClosesPart fill → l.economics.Represents (l.share fill)

/-- The share of a closed part comes to be scaled: the charges before it are computed, and the
amounts on the way to the difference that is scaled are in range, as is the product of the scaling.
-/
structure Ledger.ScalesShare (l : Ledger) (fill : FillRecord) (difference : I128) : Prop where
  part : l.ClosesPart fill
  charged : ∃ value fee tax, notional fill l.economics = .ok value ∧
    charge value fill.quantity.value.val fill.side l.fee = .ok fee ∧
    l.taxForFill fill value = .ok tax
  sized : ∃ size : I128, size.val = l.size
  shared : ∃ numerator : I128, numerator.val = l.costBasisAtoms.val * fill.quantity.value.val
  valued : ∃ value : I128, value.val = fill.price.atoms.val * fill.quantity.value.val
  differs : difference.val = if 0 < l.position.val then
      fill.price.atoms.val * fill.quantity.value.val - l.share fill
    else l.share fill - fill.price.atoms.val * fill.quantity.value.val
  scaled : ∃ product : I128, product.val =
      (cancelled difference l.economics.multiplier.atoms).1.val *
    (cancelled difference l.economics.multiplier.atoms).2.1.val

section Share
variable {closed size allocated value difference : I128}

theorem Differs.closed_eq
    (h : Differs l.position l.costBasisAtoms (signedQuantity fill) fill.price.value closed size
    allocated value difference) (hpart : l.ClosesPart fill) :
    closed.val = fill.quantity.value.val := by
  have hquantity := abs_signed fill
  have hless := hpart.2
  rw [Ledger.size] at hless
  rw [h.closes, signedQuantity_val]
  omega

/-- What is allocated to a closed part is its share. -/
theorem Differs.allocated_eq
    (h : Differs l.position l.costBasisAtoms (signedQuantity fill) fill.price.value closed size
    allocated value difference) (hpart : l.ClosesPart fill) :
    (∃ numerator : I128, numerator.val = l.costBasisAtoms.val * fill.quantity.value.val) ∧
      allocated.val = l.share fill := by
  have hclosed := h.closed_eq hpart
  have hless := hpart.2
  have hne : closed ≠ size := fun heq => by
    rw [Ledger.size, ← h.sized, ← heq, hclosed] at hless
    exact lt_irrefl _ hless
  have hpos : 0 < size.val := by
    rw [h.sized]
    rw [Ledger.size] at hless
    omega
  have hallocates := h.allocates
  unfold allocatedBasis at hallocates
  simp only [hne, if_false, bind_eq_ok, checked_eq_ok, Signed.checkedMul_eq_some] at hallocates
  obtain ⟨numerator, hnumerator, hdivide⟩ := hallocates
  rw [hclosed] at hnumerator
  refine ⟨⟨numerator, hnumerator⟩, ?_⟩
  rw [divideRound_halfUp hpos hdivide, hnumerator, h.sized, Ledger.share, Ledger.size]

/-- What is allocated to a fill against the position can be scaled: the whole basis, or the share.
-/
theorem Differs.represents
    (h : Differs l.position l.costBasisAtoms (signedQuantity fill) fill.price.value closed size
    allocated value difference) (hbasis : l.economics.Represents l.costBasisAtoms.val)
    (hshare : l.ShareRepresents fill) :
    l.economics.Represents allocated.val := by
  by_cases hpart : l.ClosesPart fill
  · rw [(h.allocated_eq hpart).2]
    exact hshare hpart
  · have hall : closed = size := by
      have hagainst := h.against
      have hquantity := abs_signed fill
      have hcloses := h.closes
      rw [signedQuantity_val] at hagainst hcloses
      have hless : ¬ (fill.quantity.value.val : ℤ) < |l.position.val| :=
        fun hless => hpart ⟨hagainst, hless⟩
      apply Signed.ext
      rw [hcloses, h.sized]
      omega
    have hallocates := h.allocates
    rw [allocatedBasis, if_pos hall, Except.ok.injEq] at hallocates
    rwa [← hallocates]

/-- The amounts that the code has computed when it comes to scale the share. -/
theorem Differs.scalesShare
    (h : Differs l.position l.costBasisAtoms (signedQuantity fill) fill.price.value closed size
    allocated value difference) (hpart : l.ClosesPart fill)
    (hcharged : ∃ value fee tax, notional fill l.economics = .ok value ∧
      charge value fill.quantity.value.val fill.side l.fee = .ok fee ∧
      l.taxForFill fill value = .ok tax)
    {product : I128}
    (hproduct : product.val = (cancelled difference l.economics.multiplier.atoms).1.val *
      (cancelled difference l.economics.multiplier.atoms).2.1.val) :
      l.ScalesShare fill difference := by
  obtain ⟨hshared, hallocated⟩ := h.allocated_eq hpart
  have hvalue : value.val = fill.price.atoms.val * fill.quantity.value.val := by
    rw [h.valued, h.closed_eq hpart]
    rfl
  refine ⟨hpart, hcharged, ⟨size, h.sized⟩, hshared, ⟨value, hvalue⟩, ?_, ⟨product, hproduct⟩⟩
  rw [h.differs, hvalue, hallocated]

/-- Where the share comes to be scaled, the steps of the code up to there can be taken. -/
theorem Ledger.ScalesShare.differs_of (h : l.ScalesShare fill difference) :
    ∃ closed size allocated value,
    Differs l.position l.costBasisAtoms
      (signedQuantity fill) fill.price.value closed size allocated value difference := by
  obtain ⟨hagainst, hless⟩ := h.part
  obtain ⟨size, hsize⟩ := h.sized
  obtain ⟨numerator, hnumerator⟩ := h.shared
  obtain ⟨value, hvalue⟩ := h.valued
  have hquantity := abs_signed fill
  have hpos := fill.quantity.pos
  obtain ⟨allocated, hdivide⟩ := divideRound_halfUp_isOk (n := numerator) (d := size) (by omega)
  have hallocated : allocated.val = l.share fill := by
    rw [divideRound_halfUp (by omega) hdivide, hnumerator, hsize, Ledger.share]
  have hclosed : (Signed.ofUnsigned 128 fill.quantity.value : I128).val = fill.quantity.value.val :=
    Signed.val_ofUnsigned _ _
  have hne : (Signed.ofUnsigned 128 fill.quantity.value : I128) ≠ size := fun heq => by
    rw [heq, hsize] at hclosed
    omega
  refine ⟨Signed.ofUnsigned 128 fill.quantity.value, size, allocated, value, ?_, hsize,
    ?_, ?_, ?_, ?_⟩
  · rwa [signedQuantity_val]
  · rw [signedQuantity_val, hclosed]
    rw [Ledger.size] at hless
    omega
  · rw [allocatedBasis, if_neg hne, bind_eq_ok]
    refine ⟨numerator, (checked_eq_ok _ _).2 ((Signed.checkedMul_eq_some _ _ _).2 ?_), hdivide⟩
    rw [hnumerator, hclosed]
  · rw [hvalue, hclosed]
    rfl
  · rw [h.differs, hvalue, hallocated]

end Share

/-- A fill fails out of range, or it comes to scale a share that cannot be represented. -/
theorem Ledger.Representable.refusesAt (hl : l.Representable)
    (hmodels : validateModels l.economics l.fee l.tax = .ok ())
    (hday : l.validateDayTrade = .ok ()) (hprice : l.economics.Represents fill.price.atoms.val) :
    RefusesAt (fun e => e.OutOfRange ∨ ¬ l.ShareRepresents fill ∧
      ∃ difference, l.ScalesShare fill difference)
      (Ledger.applyFill fill) l := by
  have hsells : ∀ sell ∈ l.dayTradeSells, l.economics.Represents sell.price.atoms.val :=
    fun sell hsell => hl.sells _ (List.mem_map_of_mem hsell)
  refine RefusesAt.get_bind ?_
  refine RefusesAt.lift_bind (by rw [hmodels]; exact FailsIn.pure _) fun _ _ => ?_
  refine RefusesAt.lift_bind (by rw [hday]; exact FailsIn.pure _) fun _ _ => ?_
  refine RefusesAt.lift_bind ((scaleByQuantity_fails hprice _).imp fun _ => .inl)
    fun value hvalue => ?_
  refine RefusesAt.lift_bind ((charge_fails _ _ _ _).imp fun _ => .inl) fun fee hfee => ?_
  refine RefusesAt.lift_bind ((taxForFill_fails hprice hsells).imp fun _ => .inl) fun tax htax => ?_
  refine RefusesAt.lift_bind (transitionPosition_fails (fun _ => .inl) ?_) fun transition _ => ?_
  · intro closed size allocated value' difference hdiffers
    by_cases hrep : l.economics.Represents difference.val
    · exact (scaleByQuantity_fails hrep 1).imp fun _ => .inl
    · have hshare : ¬ l.ShareRepresents fill := fun hshare =>
        hrep ((hdiffers.represents_iff hprice).2 (hdiffers.represents hl.basis hshare))
      have hpart : l.ClosesPart fill := by_contra fun hpart => hshare fun h => absurd h hpart
      refine FailsIn.bind ((checked_fails _).imp fun _ => .inl) fun _ => FailsIn.bind ?_ fun _ =>
        FailsIn.bind ((checked_fails _).imp fun _ => .inl) fun _ => FailsIn.pure _
      rw [multiplyDecimalAtoms_eq]
      refine FailsIn.bind_of_ok ((checked_fails _).imp fun _ => .inl) fun product hproduct => ?_
      rw [checked_eq_ok, Signed.checkedMul_eq_some] at hproduct
      exact fun e _ => .inr ⟨hshare, difference,
        hdiffers.scalesShare hpart ⟨value, fee, tax, hvalue, hfee, htax⟩ hproduct⟩
  refine RefusesAt.lift_bind ((cashDelta_fails _ _ _ _ _ _).imp fun _ => .inl) fun delta _ => ?_
  refine RefusesAt.lift_bind ((checkedAdd_fails _ _).imp fun _ => .inl) fun cash _ => ?_
  refine RefusesAt.lift_bind ((checkedAdd_fails _ _).imp fun _ => .inl) fun totalFee _ => ?_
  refine RefusesAt.lift_bind ((checkedAdd_fails _ _).imp fun _ => .inl) fun totalTax _ => ?_
  refine RefusesAt.lift_bind ((checkedAdd_fails _ _).imp fun _ => .inl) fun realized _ => ?_
  exact fun e s' h => ((set_error _ _ _ _).1 h).elim

/-- A position that is reduced stays in range. -/
theorem exists_reduced (hpart : l.ClosesPart fill) :
    ∃ next : I128, next.val = l.position.val + (signedQuantity fill).val := by
  obtain ⟨hagainst, hless⟩ := hpart
  obtain ⟨hopen, hopp⟩ := not_or.1 hagainst
  have hquantity := abs_signed fill
  have hlower := l.position.lower
  have hupper := l.position.upper
  have habs := abs_cases fill.signed
  have habs' := abs_cases l.position.val
  rw [Ledger.size] at hless
  rw [signedQuantity_val]
  have hrange : -(2 ^ 127 : ℕ) ≤ l.position.val + fill.signed ∧
      l.position.val + fill.signed < (2 ^ 127 : ℕ) := by
    rcases lt_or_gt_of_ne hopen with hneg | hpos
    · have hbuy : 0 ≤ fill.signed := by
        by_contra hsell
        exact hopp (by rw [Int.sign_eq_neg_one_of_neg hneg, Int.sign_eq_neg_one_of_neg (by omega)])
      omega
    · have hsell : fill.signed ≤ 0 := by
        by_contra hbuy
        exact hopp (by rw [Int.sign_eq_one_of_pos hpos, Int.sign_eq_one_of_pos (by omega)])
      omega
  exact ⟨_, Signed.wrap_val_of_mem _ (by decide) hrange.1 hrange.2⟩

/-- A share that comes to be scaled and cannot be represented is lost. -/
theorem applyFill_loses (hmodels : validateModels l.economics l.fee l.tax = .ok ())
    (hday : l.validateDayTrade = .ok ())
    (hprice : l.economics.Represents fill.price.atoms.val) (hshare : ¬ l.ShareRepresents fill)
    {difference : I128} (hscales : l.ScalesShare fill difference) :
    Ledger.applyFill fill l = .error .precisionLoss l := by
  obtain ⟨value, fee, tax, hvalue, hfee, htax⟩ := hscales.charged
  obtain ⟨closed, size, allocated, value', hdiffers⟩ := hscales.differs_of
  obtain ⟨product, hproduct⟩ := hscales.scaled
  have hrep : ¬ l.economics.Represents difference.val := fun hrep => hshare fun hpart => by
    rw [← (hdiffers.allocated_eq hpart).2]
    exact (hdiffers.represents_iff hprice).1 hrep
  obtain ⟨next, hnext⟩ := exists_reduced hscales.part
  rw [Ledger.applyFill, get_bind, lift_bind hmodels, lift_bind hday, lift_bind hvalue,
    lift_bind hfee, lift_bind htax]
  exact lift_bind_error (hdiffers.transition_error hnext (scaleByQuantity_loses hrep hproduct)) _ _

/-- A fill against the position was scaled with the rest, so that what it allocated is
representable. -/
theorem basis_represents_of_booked {parts : FillParts} (hb : parts.Booked fill l l')
    (hbasis : l.economics.Represents l.costBasisAtoms.val)
    (hprice : l.economics.Represents fill.price.atoms.val) :
    l.economics.Represents l'.costBasisAtoms.val := by
  obtain ⟨-, haverage, h⟩ := transitionPosition_cases hb.transition_ok
  rw [hb.costBasisAtoms]
  rcases h with ⟨-, hnext, -⟩ |
    ⟨-, size, closed, allocated, value, difference, -, -, -, hvalue, hdifference, hrealized, hnext⟩
  · rw [hnext]
    exact hbasis.add (hprice.mul _)
  · have hdiff : l.economics.Represents difference.val := represents_of_scaleByQuantity hrealized
    have hval : l.economics.Represents value.val := hvalue ▸ hprice.mul _
    have hallocated : l.economics.Represents allocated.val := by
      by_cases hlong : 0 < l.position.val
      · rw [if_pos hlong, Signed.checkedSub_eq_some] at hdifference
        have := hval.sub hdiff
        rwa [hdifference, sub_sub_cancel] at this
      · rw [if_neg hlong, Signed.checkedSub_eq_some] at hdifference
        have := hdiff.add hval
        rwa [hdifference, sub_add_cancel] at this
    rw [remainingBasis_val (averageCostOf_bound haverage) hnext]
    split_ifs
    · exact l.economics.represents_zero
    · exact hprice.mul _
    · exact hbasis.sub hallocated

theorem Ledger.Representable.step (hl : l.Representable)
    (hprice : l.economics.Represents fill.price.atoms.val)
    (h : Ledger.applyFill fill l = .ok () l') : l'.Representable := by
  obtain ⟨parts, hb⟩ := applyFill_parts h
  constructor
  · rw [hb.terms.economics]
    exact basis_represents_of_booked hb hl.basis hprice
  · rw [hb.terms.economics, hb.dayTradeSells]
    exact (taxForFill_ok hb.tax_ok).forall_price hprice hl.sells

/-- What every call keeps of a ledger that began with validated models. -/
structure Ledger.Keeps (start l : Ledger) : Prop where
  terms : SameTerms start l
  representable : l.Representable

theorem Ledger.Keeps.call {start : Ledger} (h : start.Keeps l)
    (hprice : start.economics.Represents fill.price.atoms.val) :
    start.Keeps (stateAfter (Ledger.applyFill fill l)) := by
  cases hcall : Ledger.applyFill fill l with
  | error e l' =>
    rw [stateAfter, applyFill_atomic fill l e l' hcall]
    exact h
  | ok _ l' =>
    obtain ⟨parts, hb⟩ := applyFill_parts hcall
    rw [← h.terms.economics] at hprice
    exact ⟨h.terms.trans hb.terms, h.representable.step hprice hcall⟩

theorem Ledger.Keeps.after {start : Ledger} (fills : List FillRecord) (h : start.Keeps l)
    (hprices : ∀ fill ∈ fills, start.economics.Represents fill.price.atoms.val) :
    start.Keeps (l.after fills) := by
  induction fills generalizing l with
  | nil => exact h
  | cons fill rest ih =>
    exact ih (h.call (hprices fill List.mem_cons_self)) fun f hf =>
      hprices f (List.mem_cons_of_mem _ hf)

/-- After any calls with representable prices a fill fails only out of range, exactly when it closes
no part whose share cannot be scaled, or fails out of range before the share is scaled. -/
theorem precision_lost_on_shares_only (initialCash : Decimal) (economics : InstrumentEconomics)
    (fee tax : ChargeModel)
    (model : AccountingModel) (dayTrade : Option DayTradeTaxModel) (start : Ledger)
    (fills : List FillRecord) (fill : FillRecord) (hstart : start =
      (Ledger.newWithModel initialCash economics fee tax model).withOptionalDayTradeTax dayTrade)
    (hmodels : validateModels economics fee tax = .ok ()) (hday : start.validateDayTrade = .ok ())
    (hprices : ∀ f ∈ fills ++ [fill], economics.Represents f.price.atoms.val) :
    (∀ e l', Ledger.applyFill fill (start.after fills) = .error e l' → e = .overflow ∨
      e = .invalidTradingDate) ↔
      (start.after fills).ShareRepresents fill ∨
      ∀ difference, ¬ (start.after fills).ScalesShare fill difference := by
  have heconomics : start.economics = economics := by rw [hstart]; rfl
  have hnew : start.Keeps start := by
    refine ⟨.refl _, ?_, ?_⟩
    · rw [hstart]
      exact InstrumentEconomics.represents_zero _
    · rw [hstart]
      exact fun _ h => absurd h List.not_mem_nil
  have hkeeps := hnew.after fills fun f hf => by
    rw [heconomics]
    exact hprices f (List.mem_append_left _ hf)
  have hprice : (start.after fills).economics.Represents fill.price.atoms.val := by
    rw [hkeeps.terms.economics, heconomics]
    exact hprices fill (by simp)
  have hmodels' : validateModels (start.after fills).economics (start.after fills).fee
      (start.after fills).tax = .ok () := by
    rw [hkeeps.terms.economics, hkeeps.terms.fee, hkeeps.terms.tax, hstart]
    exact hmodels
  have hday' : (start.after fills).validateDayTrade = .ok () := by
    rw [Ledger.validateDayTrade, hkeeps.terms.dayTradeTax, hkeeps.terms.economics, hkeeps.terms.fee,
      hkeeps.terms.accountingModel]
    exact hday
  constructor
  · intro h
    by_contra hboth
    obtain ⟨hshare, hscales⟩ := not_or.1 hboth
    obtain ⟨difference, hscales⟩ := not_forall_not.1 hscales
    rcases h _ _ (applyFill_loses hmodels' hday' hprice hshare hscales) with h | h <;> cases h
  · intro hcondition e l' hfails
    rcases hkeeps.representable.refusesAt hmodels' hday' hprice e l' hfails with
      hrange | ⟨hshare, difference, hscales⟩
    · exact hrange
    · rcases hcondition with hrep | hnone
      · exact absurd hrep hshare
      · exact absurd hscales (hnone difference)

/-- A contract worth one half of its price, without charges. -/
def halfLedger : Ledger :=
  (Ledger.newWithModel Decimal.zero
    ⟨Unsigned.wrap 64 1, ⟨Signed.wrap 128 (5 * 10 ^ 17)⟩, ⟨[120], Eq.refl true⟩⟩
    ⟨.notionalRate, Decimal.zero, .both, Decimal.zero, 0, .down⟩
    ⟨.notionalRate, Decimal.zero, .both, Decimal.zero, 0, .down⟩ .optionsV1).withOptionalDayTradeTax
      none

def halfLedgerBuys : List FillRecord :=
  [exampleFill .buy 100 1 (by decide), exampleFill .buy 101 2 (by decide)]

/-- One of three contracts with a basis of 302 is sold: its share ends in an odd atom, and half of
that is none. -/
theorem third_of_basis_refused :
    validateModels halfLedger.economics halfLedger.fee halfLedger.tax = .ok () ∧
    halfLedger.validateDayTrade = .ok () ∧
    (∀ f ∈ halfLedgerBuys ++ [exampleFill .sell 100 1 (by decide)],
      halfLedger.economics.Represents f.price.atoms.val) ∧
    ∃ l, Ledger.applyFill (exampleFill .sell 100 1 (by decide)) (halfLedger.after halfLedgerBuys) =
      .error .precisionLoss l := by
  refine ⟨by decide +kernel, rfl, by decide +kernel, ?_⟩
  have hfails : failsAnd
      (Ledger.applyFill (exampleFill .sell 100 1 (by decide)) (halfLedger.after halfLedgerBuys))
      (fun e _ => decide (e = .precisionLoss)) = true := by decide +kernel
  obtain ⟨e, l, hcall, he⟩ := exists_of_failsAnd hfails
  exact ⟨l, by rw [hcall, of_decide_eq_true he]⟩

def sevenBuys : List FillRecord :=
  [exampleFill .buy 102 1 (by decide), exampleFill .buy 100 6 (by decide)]

/-- One of seven contracts with a basis of 702 is sold: its share is cut off at an even atom, and
can be halved. -/
theorem seventh_of_basis_accepted :
    (∃ l, Ledger.applyFill (exampleFill .sell 100 1 (by decide))
      (halfLedger.after sevenBuys) = .ok () l) ∧
    ∀ l, Ledger.applyFill (exampleFill .sell 100 1 (by decide)) (halfLedger.after sevenBuys) ≠
      .error .precisionLoss l := by
  have hcall : returnsAnd
      (Ledger.applyFill (exampleFill .sell 100 1 (by decide)) (halfLedger.after sevenBuys))
      (fun _ _ => true) = true := by decide +kernel
  obtain ⟨_, l, hl, -⟩ := exists_of_returnsAnd hcall
  refine ⟨⟨l, hl⟩, fun l hfails => ?_⟩
  have hshare : (halfLedger.after sevenBuys).economics.Represents
      ((halfLedger.after sevenBuys).share (exampleFill .sell 100 1 (by decide))) := by
    decide +kernel
  have h :=
    (precision_lost_on_shares_only _ _ _ _ _ _ halfLedger sevenBuys
      (exampleFill .sell 100 1 (by decide)) rfl
    (by decide +kernel) rfl (by decide +kernel)).2 (.inl fun _ => hshare) _ _ hfails
  simp at h

end Precision

end Osmium
