import Osmium.Spec.MultiLedger

/-! What one fill does to a ledger, read as exact rational values: scaling by the contract
multiplier is exact, and the position transition carries the rounding of the allocated basis into
the realized result, so that nothing is lost between the two. -/

namespace Osmium
open Machine Bytes Result Stateful

/-- The number a decimal stands for. -/
def Decimal.exact (d : Decimal) : ℚ := d.atoms.val / Decimal.scaleFactor

/-- One unit of price, held on one unit of position, is worth this much. -/
def InstrumentEconomics.scale (economics : InstrumentEconomics) : ℚ :=
  economics.multiplier.exact * economics.unitsPerTradingUnit.val

/-- A buy counts positive and a sell negative. -/
def OrderSide.direct (side : OrderSide) (x : ℚ) : ℚ :=
  match side with
  | .buy => x
  | .sell => -x

def FillRecord.signed (fill : FillRecord) : ℤ :=
  match fill.side with
  | .buy => fill.quantity.value.val
  | .sell => -fill.quantity.value.val

theorem scaleFactorAtoms_val : scaleFactorAtoms.val = Decimal.scaleFactor := by decide

theorem exact_zero : Decimal.zero.exact = 0 := by simp [Decimal.exact, Decimal.zero]

theorem checked_eq_ok (o : Option I128) (z : I128) : checked o = .ok z ↔ o = some z :=
  okOr_eq_ok _ _ _

theorem checkedAdd_atoms {a b c : Decimal} (h : checkedAdd a b = .ok c) :
    c.atoms.val = a.atoms.val + b.atoms.val := by
  rwa [checkedAdd, mapError_eq_ok, Decimal.checkedAdd_eq_ok] at h

theorem checkedSub_atoms {a b c : Decimal} (h : checkedSub a b = .ok c) :
    c.atoms.val = a.atoms.val - b.atoms.val := by
  rwa [checkedSub, mapError_eq_ok, Decimal.checkedSub_eq_ok] at h

theorem checkedNeg_atoms {a c : Decimal} (h : checkedNeg a = .ok c) :
    c.atoms.val = -a.atoms.val := by
  rwa [checkedNeg, mapError_eq_ok, Decimal.checkedNeg_eq_ok] at h

theorem exact_add {a b c : Decimal} (h : checkedAdd a b = .ok c) : c.exact = a.exact + b.exact := by
  unfold Decimal.exact
  rw [checkedAdd_atoms h]
  push_cast
  ring

theorem exact_sub {a b c : Decimal} (h : checkedSub a b = .ok c) : c.exact = a.exact - b.exact := by
  unfold Decimal.exact
  rw [checkedSub_atoms h]
  push_cast
  ring

theorem exact_neg {a c : Decimal} (h : checkedNeg a = .ok c) : c.exact = -a.exact := by
  unfold Decimal.exact
  rw [checkedNeg_atoms h]
  push_cast
  ring

section Scaling

theorem wrap_gcd_val (z : ℤ) (d : I128) (hd : 0 < d.val) :
    (Signed.wrap 128 (gcd z.natAbs d.val.natAbs)).val = (Nat.gcd z.natAbs d.val.natAbs : ℤ) := by
  have hle : Nat.gcd d.val.natAbs z.natAbs ≤ d.val.natAbs := Nat.gcd_le_left _ (by omega)
  have hhi := d.upper
  unfold gcd
  rw [Signed.wrap_val_of_mem _ (by decide) (by omega) (by omega), Nat.gcd_comm]

/-- Dividing by a common factor is exact on both sides of the fraction. -/
theorem cancel_common (left d : I128) (hd : 0 < d.val) :
    ∃ g :
    ℤ, 0 < g ∧ left.val = (left.quot (Signed.wrap 128 (gcd left.val.natAbs d.val.natAbs))).val * g ∧
      d.val = (d.quot (Signed.wrap 128 (gcd left.val.natAbs d.val.natAbs))).val * g ∧
      0 < (d.quot (Signed.wrap 128 (gcd left.val.natAbs d.val.natAbs))).val := by
  have hg := wrap_gcd_val left.val d hd
  set g := Signed.wrap 128 (gcd left.val.natAbs d.val.natAbs) with hgdef
  have hpos : 0 < g.val := by
    rw [hg]
    exact_mod_cast Nat.gcd_pos_of_pos_right _ (by omega)
  have hleft : g.val ∣ left.val := by
    rw [hg, ← Int.dvd_natAbs]
    exact_mod_cast Nat.gcd_dvd_left _ _
  have hright : g.val ∣ d.val := by
    rw [hg, ← Int.dvd_natAbs]
    exact_mod_cast Nat.gcd_dvd_right _ _
  have hdq : d.val = (d.quot g).val * g.val := by
    rw [Signed.val_quot _ _ (by decide) hpos, Int.tdiv_mul_cancel hright]
  refine ⟨g.val, hpos, ?_, hdq, ?_⟩
  · rw [Signed.val_quot _ _ (by decide) hpos, Int.tdiv_mul_cancel hleft]
  · by_contra hneg
    have : (d.quot g).val * g.val ≤ 0 := mul_nonpos_of_nonpos_of_nonneg (by omega) hpos.le
    omega

/-- Nothing is left to cancel. -/
theorem cancel_coprime (left d : I128) (hd : 0 < d.val) :
    Int.gcd (left.quot (Signed.wrap 128 (gcd left.val.natAbs d.val.natAbs))).val
      (d.quot (Signed.wrap 128 (gcd left.val.natAbs d.val.natAbs))).val = 1 := by
  have hg : (Signed.wrap 128 (gcd left.val.natAbs d.val.natAbs)).val =
      (Int.gcd left.val d.val : ℤ) :=
    wrap_gcd_val left.val d hd
  have hpos : 0 < Int.gcd left.val d.val := Int.gcd_pos_of_ne_zero_right _ hd.ne'
  have hg' : 0 < (Signed.wrap 128 (gcd left.val.natAbs d.val.natAbs)).val := by
    rw [hg]
    exact_mod_cast hpos
  rw [Signed.val_quot _ _ (by decide) hg', Signed.val_quot _ _ (by decide) hg', hg,
    Int.tdiv_eq_ediv_of_dvd (Int.gcd_dvd_left _ _), Int.tdiv_eq_ediv_of_dvd (Int.gcd_dvd_right _ _)]
  exact Int.gcd_div_gcd_div_gcd hpos

/-- Both factors and the denominator `10 ^ 18` of their product, with the common factors cancelled.
-/
def cancelled (left right : I128) : I128 × I128 × I128 :=
  let first : I128 := Signed.wrap 128 (gcd left.val.natAbs scaleFactorAtoms.val.natAbs)
  let denominator := scaleFactorAtoms.quot first
  let second : I128 := Signed.wrap 128 (gcd right.val.natAbs denominator.val.natAbs)
  (left.quot first, right.quot second, denominator.quot second)

/-- The cancelled fraction is the product over `10 ^ 18`. -/
structure Cancels (left right : I128) : Prop where
  pos : 0 < (cancelled left right).2.2.val
  le : (cancelled left right).2.2.val ≤ Decimal.scaleFactor
  exact : (cancelled left right).1.val * (cancelled left right).2.1.val * Decimal.scaleFactor =
    left.val * right.val * (cancelled left right).2.2.val
  nonneg : 0 ≤ left.val → 0 ≤ right.val →
      0 ≤ (cancelled left right).1.val * (cancelled left right).2.1.val

theorem cancelled_spec (left right : I128) : Cancels left right := by
  have hs : 0 < scaleFactorAtoms.val := by decide
  obtain ⟨g, hg, hleft, hden, hpos⟩ := cancel_common left scaleFactorAtoms hs
  obtain ⟨g', hg', hright, hden', hpos'⟩ := cancel_common right _ hpos
  have hscale : (Decimal.scaleFactor : ℤ) = (cancelled left right).2.2.val * g' * g := by
    rw [← scaleFactorAtoms_val, hden, hden']
    rfl
  have hl : left.val = (cancelled left right).1.val * g := hleft
  have hr : right.val = (cancelled left right).2.1.val * g' := hright
  refine ⟨hpos', ?_, ?_, fun hl' hr' => ?_⟩
  · have hpos'' : 0 < (cancelled left right).2.2.val := hpos'
    rw [hscale, mul_assoc]
    nlinarith [mul_pos hg' hg]
  · rw [hscale, hl, hr]
    ring
  · rw [hl] at hl'
    rw [hr] at hr'
    exact mul_nonneg (nonneg_of_mul_nonneg_left hl' hg) (nonneg_of_mul_nonneg_left hr' hg')

/-- Where the product is a whole number of atoms, the whole denominator cancels: it has no factor in
common with either factor that is left, and still divides their product. -/
theorem cancelled_denominator {left right : I128}
    (h : (Decimal.scaleFactor : ℤ) ∣ left.val * right.val) :
    (cancelled left right).2.2.val = 1 := by
  have hspec := cancelled_spec left right
  have hs : 0 < scaleFactorAtoms.val := by decide
  obtain ⟨-, -, -, -, hpos⟩ := cancel_common left scaleFactorAtoms hs
  obtain ⟨g', -, -, hden, -⟩ := cancel_common right _ hpos
  have hfirst := cancel_coprime left scaleFactorAtoms hs
  have hleft : IsCoprime (cancelled left right).2.2.val (cancelled left right).1.val := by
    have hdvd : (cancelled left right).2.2.val ∣ _ := Dvd.intro _ hden.symm
    exact (Int.isCoprime_iff_gcd_eq_one.2 hfirst).symm.of_isCoprime_of_dvd_left hdvd
  have hright : IsCoprime (cancelled left right).2.2.val (cancelled left right).2.1.val :=
    (Int.isCoprime_iff_gcd_eq_one.2 (cancel_coprime right _ hpos)).symm
  obtain ⟨k, hk⟩ := h
  have hproduct : (cancelled left right).1.val * (cancelled left right).2.1.val =
      (cancelled left right).2.2.val * k := by
    have hscale : (Decimal.scaleFactor : ℤ) ≠ 0 := by norm_num [Decimal.scaleFactor]
    apply mul_right_cancel₀ hscale
    rw [hspec.exact, hk]
    ring
  have hunit : IsUnit (cancelled left right).2.2.val :=
    hright.isUnit_of_dvd' dvd_rfl (hleft.dvd_of_dvd_mul_left (Dvd.intro k hproduct.symm))
  rcases Int.isUnit_iff.1 hunit with hone | hneg
  · exact hone
  · have := hspec.pos
    omega

theorem multiplyDecimalAtoms_eq (left right : I128) : multiplyDecimalAtoms left right = do
    let product ← checked ((cancelled left right).1.checkedMul (cancelled left right).2.1)
    ensure ((product.rem (cancelled left right).2.2).val = 0) .precisionLoss
    return product.quot (cancelled left right).2.2 := rfl

theorem multiplyDecimalAtoms_exact {left right z : I128}
    (h : multiplyDecimalAtoms left right = .ok z) :
    z.val * Decimal.scaleFactor = left.val * right.val := by
  have hspec := cancelled_spec left right
  simp only [multiplyDecimalAtoms_eq, bind_eq_ok, pure_eq_ok, checked_eq_ok, ensure_eq_ok,
    Signed.checkedMul_eq_some] at h
  obtain ⟨product, hproduct, -, hrem, rfl⟩ := h
  rw [Signed.val_rem _ _ (by decide)] at hrem
  have hdiv := Int.tdiv_mul_cancel (Int.dvd_of_tmod_eq_zero hrem)
  rw [Signed.val_quot _ _ (by decide) hspec.pos]
  apply mul_right_cancel₀ hspec.pos.ne'
  linear_combination hspec.exact + Decimal.scaleFactor * hdiv + Decimal.scaleFactor * hproduct

theorem scaleByQuantity_exact {value p : Decimal} {quantity : ℕ} {economics : InstrumentEconomics}
    (h : scaleByQuantity value quantity economics = .ok p) :
    p.exact = value.exact * quantity * economics.scale := by
  unfold scaleByQuantity at h
  simp only [bind_eq_ok, pure_eq_ok, checked_eq_ok, Signed.ofInt?_eq_some, Option.bind_eq_some_iff,
    Signed.checkedMul_eq_some] at h
  obtain ⟨q, hq, scaled, hscaled, product, ⟨inner, hinner, houter⟩, rfl⟩ := h
  have hexact : (scaled.val : ℚ) * Decimal.scaleFactor =
      value.atoms.val * economics.multiplier.atoms.val := by
    exact_mod_cast multiplyDecimalAtoms_exact hscaled
  have hne : (Decimal.scaleFactor : ℚ) ≠ 0 := by norm_num [Decimal.scaleFactor]
  simp only [Decimal.exact, InstrumentEconomics.scale, houter, hinner, hq, Signed.val_ofUnsigned]
  push_cast
  field_simp
  linear_combination (quantity : ℚ) * economics.unitsPerTradingUnit.val * hexact

end Scaling

section Transition
variable {position costBasisAtoms delta : I128} {price : Decimal} {economics : InstrumentEconomics}

theorem averageCostOf_bound {average : Option Decimal}
    (h : averageCostOf costBasisAtoms position = .ok average) :
    |position.val| < 2 ^ 127 := by
  unfold averageCostOf at h
  by_cases hzero : position.val = 0
  · rw [hzero]; norm_num
  · simp only [hzero, if_false, bind_eq_ok, checked_eq_ok, Signed.ofInt?_eq_some] at h
    obtain ⟨divisor, hdivisor, -⟩ := h
    rw [← hdivisor]
    exact_mod_cast divisor.upper

theorem abs_val_of_lt {a : I128} (h : |a.val| < 2 ^ 127) : a.abs.val = |a.val| := by
  apply Signed.val_abs _ (by decide)
  intro heq
  rw [heq] at h
  norm_num at h

theorem allocatedBasis_full {closed allocated : I128}
    (h : allocatedBasis costBasisAtoms closed closed = .ok allocated) :
    allocated = costBasisAtoms := by
  simpa [allocatedBasis, eq_comm] using h

/-- What a transition does. The signed open basis moves by the traded value and by the realized
difference, which is scaled exactly into the realized result. -/
structure Transitions (position costBasisAtoms delta : I128) (price : Decimal)
    (economics : InstrumentEconomics) (t : PositionTransition) : Prop where
  moved : t.position.val = position.val + delta.val
  bound : |t.position.val| < 2 ^ 127
  flat : t.position.val = 0 → t.costBasisAtoms.val = 0
  basis : ∃ difference : Decimal, t.realized.exact = difference.exact * economics.scale ∧
    t.position.val.sign * t.costBasisAtoms.val =
      position.val.sign * costBasisAtoms.val + delta.val * price.atoms.val + difference.atoms.val

theorem transition_adds (hdelta : delta.val ≠ 0) (hflat : position.val = 0 → costBasisAtoms.val = 0)
    (hadd : position.val = 0 ∨ position.val.sign = delta.val.sign) {next nextBasis : ℤ}
    (hnext : next = position.val + delta.val)
    (hbasis : nextBasis = costBasisAtoms.val + price.atoms.val * |delta.val|) :
    next ≠ 0 ∧ next.sign * nextBasis = position.val.sign * costBasisAtoms.val + delta.val *
      price.atoms.val := by
  have habs : delta.val.sign * |delta.val| = delta.val := Int.sign_mul_abs _
  have hsign : next.sign = delta.val.sign := by
    rcases hadd with hzero | hsame
    · rw [hnext, hzero, zero_add]
    · rcases lt_or_gt_of_ne hdelta with hneg | hpos
      · rw [Int.sign_eq_neg_one_of_neg hneg] at hsame ⊢
        have := Int.sign_eq_neg_one_iff_neg.1 hsame
        exact Int.sign_eq_neg_one_of_neg (by omega)
      · rw [Int.sign_eq_one_of_pos hpos] at hsame ⊢
        have := Int.sign_eq_one_iff_pos.1 hsame
        exact Int.sign_eq_one_of_pos (by omega)
  have hcarried : delta.val.sign * costBasisAtoms.val = position.val.sign * costBasisAtoms.val := by
    rcases hadd with hzero | hsame
    · rw [hflat hzero, mul_zero, mul_zero]
    · rw [hsame]
  refine ⟨fun h => hdelta ?_, ?_⟩
  · rw [h, Int.sign_zero] at hsign
    exact Int.sign_eq_zero_iff_zero.1 hsign.symm
  · rw [hsign, hbasis]
    linear_combination hcarried + price.atoms.val * habs

/-- A fill against the position: what is closed leaves with its share of the basis, and what is left
over opens on the other side at the fill price. -/
theorem transition_closes {closed allocated difference next nextBasis : ℤ} (hpos : position.val ≠ 0)
    (hopp : position.val.sign ≠ delta.val.sign) (hdelta : delta.val ≠ 0)
    (hnext : next = position.val + delta.val) (hclosed : closed = min |position.val| |delta.val|)
    (hfull : closed = |position.val| → allocated = costBasisAtoms.val)
    (hdiff : difference = position.val.sign * (price.atoms.val * closed - allocated))
    (hbasis : nextBasis = if next = 0 then 0 else if next.sign ≠ position.val.sign then
      price.atoms.val * |next|
      else costBasisAtoms.val - allocated) :
    next.sign * nextBasis = position.val.sign * costBasisAtoms.val + delta.val * price.atoms.val +
      difference := by
  have habs : position.val.sign * |position.val| = position.val := Int.sign_mul_abs _
  have hopposite : delta.val.sign = -position.val.sign := by
    rcases lt_or_gt_of_ne hpos with hp | hp <;> rcases lt_or_gt_of_ne hdelta with hd | hd <;>
      simp_all [Int.sign_eq_one_of_pos, Int.sign_eq_neg_one_of_neg]
  have hdeltaAbs : position.val.sign * |delta.val| = -delta.val := by
    have := Int.sign_mul_abs delta.val
    rw [hopposite] at this
    linarith
  rcases lt_trichotomy |position.val| |delta.val| with hlt | heq | hgt
  · -- a flip: the whole basis leaves, the remainder is carried at the fill price
    have hcl : closed = |position.val| := by omega
    have hsign : next.sign = -position.val.sign := by
      rcases lt_or_gt_of_ne hpos with hp | hp
      · rw [Int.sign_eq_neg_one_of_neg hp, abs_of_neg hp] at *
        rw [Int.sign_eq_one_of_pos (by omega)]; rfl
      · rw [Int.sign_eq_one_of_pos hp, abs_of_pos hp] at *
        rw [Int.sign_eq_neg_one_of_neg (by omega)]
    have hne : next ≠ 0 := by
      intro h
      rw [h, Int.sign_zero] at hsign
      exact hpos (Int.sign_eq_zero_iff_zero.1 (by omega))
    have hflip : next.sign ≠ position.val.sign := by
      rw [hsign]
      intro h
      exact hpos (Int.sign_eq_zero_iff_zero.1 (by omega))
    have hnextAbs : next.sign * |next| = next := Int.sign_mul_abs _
    rw [hbasis, if_neg hne, if_pos hflip, hdiff, hcl, hfull hcl]
    linear_combination price.atoms.val * hnextAbs + price.atoms.val * hnext - price.atoms.val * habs
  · -- the position is closed
    have hcl : closed = |position.val| := by omega
    have hzero : next = 0 := by
      rw [heq] at habs
      omega
    rw [hzero, Int.sign_zero, zero_mul, hdiff, hcl, hfull hcl]
    linear_combination price.atoms.val * (hzero.symm.trans hnext) - price.atoms.val * habs
  · -- a reduction: the position keeps its side
    have hcl : closed = |delta.val| := by omega
    have hsign : next.sign = position.val.sign := by
      rcases lt_or_gt_of_ne hpos with hp | hp
      · rw [Int.sign_eq_neg_one_of_neg hp, abs_of_neg hp] at *
        rw [Int.sign_eq_neg_one_of_neg (by omega)]
      · rw [Int.sign_eq_one_of_pos hp, abs_of_pos hp] at *
        rw [Int.sign_eq_one_of_pos (by omega)]
    have hne : next ≠ 0 := by
      intro h
      rw [h, Int.sign_zero] at hsign
      exact hpos (Int.sign_eq_zero_iff_zero.1 hsign.symm)
    rw [hbasis, if_neg hne, if_neg (not_not.2 hsign), hsign, hdiff, hcl]
    linear_combination (-price.atoms.val) * hdeltaAbs

/-- Everything a transition can do: add to the position at the fill price, or close a part of it and
realize the difference to that part's share of the basis. -/
theorem transitionPosition_cases {t : PositionTransition}
    (h : transitionPosition position costBasisAtoms delta price economics = .ok t) :
    t.position.val = position.val + delta.val ∧
    averageCostOf t.costBasisAtoms t.position = .ok t.averageCost ∧
    ((position.val = 0 ∨ position.val.sign = delta.val.sign) ∧
        t.costBasisAtoms.val = costBasisAtoms.val + price.atoms.val * delta.abs.val ∧
        t.realized = Decimal.zero ∨
      ¬ (position.val = 0 ∨ position.val.sign = delta.val.sign) ∧
        ∃ size closed allocated value difference : I128, size.val = |position.val| ∧
          closed.val = min |position.val| |delta.val| ∧
          allocatedBasis costBasisAtoms closed size = .ok allocated ∧
          value.val = price.atoms.val * closed.val ∧
          (if 0 < position.val then value.checkedSub allocated else allocated.checkedSub value) =
            some difference ∧
          scaleByQuantity ⟨difference⟩ 1 economics = .ok t.realized ∧
          remainingBasis position costBasisAtoms allocated t.position price =
            .ok t.costBasisAtoms) := by
  unfold transitionPosition at h
  simp only [bind_eq_ok, checked_eq_ok, Signed.checkedAdd_eq_some] at h
  obtain ⟨next, hnext, h⟩ := h
  by_cases hadd : position.val = 0 ∨ position.val.sign = delta.val.sign
  · simp only [hadd, if_true, bind_eq_ok, checked_eq_ok, Signed.checkedAdd_eq_some,
      Signed.checkedMul_eq_some, pure_eq_ok] at h
    obtain ⟨added, hadded, nextBasis, hbasis, average, haverage, rfl⟩ := h
    rw [hadded] at hbasis
    exact ⟨hnext, haverage, .inl ⟨hadd, hbasis, rfl⟩⟩
  · simp only [hadd, if_false, bind_eq_ok, checked_eq_ok, Signed.ofInt?_eq_some,
      Signed.checkedMul_eq_some, pure_eq_ok] at h
    obtain ⟨size, hsize, closed, hclosed, allocated, hallocated, value, hvalue, difference,
        hdifference, realized, hrealized, nextBasis, hbasis, average, haverage, rfl⟩ := h
    exact ⟨hnext, haverage,
      .inr ⟨hadd, size, closed, allocated, value, difference, hsize, hclosed, hallocated, hvalue,
      hdifference, hrealized, hbasis⟩⟩

/-- The basis after a fill against the position, in exact integers. -/
theorem remainingBasis_val {allocated next nextBasis : I128} (hbound : |next.val| < 2 ^ 127)
    (h : remainingBasis position costBasisAtoms allocated next price = .ok nextBasis) :
    nextBasis.val = if next.val = 0 then 0 else if next.val.sign ≠ position.val.sign then
      price.atoms.val * |next.val| else costBasisAtoms.val - allocated.val := by
  unfold remainingBasis at h
  by_cases hzero : next.val = 0
  · rw [if_pos hzero, Except.ok.injEq] at h
    rw [if_pos hzero, ← h, Signed.val_zero]
  · rw [if_neg hzero] at h ⊢
    by_cases hflip : next.val.sign ≠ position.val.sign
    · rw [if_pos hflip, checked_eq_ok, Signed.checkedMul_eq_some, abs_val_of_lt hbound] at h
      rw [if_pos hflip, h]
    · rw [if_neg hflip, checked_eq_ok, Signed.checkedSub_eq_some] at h
      rw [if_neg hflip, h]

theorem transitionPosition_ok {t : PositionTransition}
    (hflat : position.val = 0 → costBasisAtoms.val = 0)
    (hdelta : delta.val ≠ 0) (hsmall : |delta.val| < 2 ^ 127)
    (h : transitionPosition position costBasisAtoms delta price economics = .ok t) :
    Transitions position costBasisAtoms delta price economics t := by
  obtain ⟨hnext, haverage, h⟩ := transitionPosition_cases h
  have hbound := averageCostOf_bound haverage
  rcases h with ⟨hadd, hbasis, hrealized⟩ |
    ⟨hadd, size, closed, allocated, value, difference, hsize, hclosed, hallocated,
    hvalue, hdifference, hrealized, hbasis⟩
  · rw [abs_val_of_lt hsmall] at hbasis
    obtain ⟨hne, hmoved⟩ := transition_adds hdelta hflat hadd hnext hbasis
    refine ⟨hnext, hbound, fun hzero => absurd hzero hne, Decimal.zero, ?_, ?_⟩
    · rw [hrealized, exact_zero, zero_mul]
    · rw [hmoved]
      simp [Decimal.zero]
  · obtain ⟨hpos, hopp⟩ := not_or.1 hadd
    have hfull : closed.val = |position.val| → allocated.val = costBasisAtoms.val := by
      intro hcl
      obtain rfl : closed = size := Signed.ext (by rw [hcl, hsize])
      rw [allocatedBasis_full hallocated]
    have hdiff :
        difference.val = position.val.sign * (price.atoms.val * closed.val - allocated.val) := by
      rcases lt_or_gt_of_ne hpos with hp | hp
      · rw [if_neg (by omega), Signed.checkedSub_eq_some] at hdifference
        rw [Int.sign_eq_neg_one_of_neg hp, hdifference, hvalue]
        ring
      · rw [if_pos hp, Signed.checkedSub_eq_some] at hdifference
        rw [Int.sign_eq_one_of_pos hp, hdifference, hvalue]
        ring
    have hnextBasis := remainingBasis_val hbound hbasis
    refine ⟨hnext, hbound, fun hzero => by rw [hnextBasis, if_pos hzero], ⟨difference⟩, ?_, ?_⟩
    · rw [scaleByQuantity_exact hrealized, Nat.cast_one, mul_one]
    · exact transition_closes hpos hopp hdelta hnext hclosed hfull hdiff hnextBasis

end Transition

section Step

theorem signedQuantity_val (fill : FillRecord) : (signedQuantity fill).val = fill.signed := by
  have hlt := fill.quantity.value.lt
  unfold signedQuantity FillRecord.signed
  cases fill.side with
  | buy => rfl
  | sell =>
    apply Signed.wrap_val_of_mem _ (by decide)
    · norm_num at hlt ⊢
      omega
    · norm_num at hlt ⊢
      omega

theorem signed_ne_zero (fill : FillRecord) : fill.signed ≠ 0 := by
  have hpos := fill.quantity.pos
  unfold FillRecord.signed
  cases fill.side <;> simp only [] <;> omega

theorem abs_signed_lt (fill : FillRecord) : |fill.signed| < 2 ^ 127 := by
  have hlt := fill.quantity.value.lt
  unfold FillRecord.signed
  cases fill.side <;> simp only [abs_neg, Nat.abs_cast] <;> norm_num at hlt ⊢ <;> omega

/-- The signed open cost basis of a ledger at the contract's scale. -/
def Ledger.openBasis (l : Ledger) : ℚ :=
  l.position.val.sign * (Decimal.mk l.costBasisAtoms).exact * l.economics.scale

/-- What stays fixed over the life of a ledger. -/
structure SameTerms (l l' : Ledger) : Prop where
  initialCash : l'.initialCash = l.initialCash
  economics : l'.economics = l.economics
  fee : l'.fee = l.fee
  tax : l'.tax = l.tax
  accountingModel : l'.accountingModel = l.accountingModel
  dayTradeTax : l'.dayTradeTax = l.dayTradeTax

theorem SameTerms.refl (l : Ledger) : SameTerms l l := ⟨rfl, rfl, rfl, rfl, rfl, rfl⟩

theorem SameTerms.trans {a b c : Ledger} (h : SameTerms a b) (h' : SameTerms b c) : SameTerms a c :=
  ⟨h'.initialCash.trans h.initialCash, h'.economics.trans h.economics, h'.fee.trans h.fee,
    h'.tax.trans h.tax,
    h'.accountingModel.trans h.accountingModel, h'.dayTradeTax.trans h.dayTradeTax⟩

theorem SameTerms.rebuilt_eq {l l' : Ledger} (h : SameTerms l l') : l'.rebuilt = l.rebuilt := by
  unfold Ledger.rebuilt
  rw [h.initialCash, h.economics, h.fee, h.tax, h.accountingModel, h.dayTradeTax]

/-- The traded value of a fill, positive for a buy. -/
def FillRecord.tradedValue (fill : FillRecord) (economics : InstrumentEconomics) : ℚ :=
  fill.signed * fill.price.value.exact * economics.scale

theorem notional_exact {fill : FillRecord} {economics : InstrumentEconomics} {value : Decimal}
    (h : notional fill economics = .ok value) :
    fill.tradedValue economics = fill.side.direct value.exact := by
  have hexact := scaleByQuantity_exact h
  unfold FillRecord.tradedValue FillRecord.signed OrderSide.direct
  cases fill.side with
  | buy =>
    simp only [Int.cast_natCast]
    rw [hexact]
    ring
  | sell =>
    simp only [Int.cast_neg, Int.cast_natCast]
    rw [hexact]
    ring

/-- What a fill moves in cash before its costs: nothing but the realized result under daily
settlement. -/
def settled (model : AccountingModel) (tradedValue realized : ℚ) : ℚ :=
  match model with
  | .equityV1 | .optionsV1 => -tradedValue
  | .futuresV1 => realized

theorem cashDelta_exact {model : AccountingModel} {side : OrderSide}
    {value fee tax realized delta : Decimal}
    (h : cashDelta model side value fee tax realized = .ok delta) :
    delta.exact = settled model (side.direct value.exact) realized.exact - fee.exact -
      tax.exact := by
  unfold cashDelta at h
  cases model with
  | futuresV1 =>
    simp only [bind_eq_ok] at h
    obtain ⟨inner, hinner, houter⟩ := h
    simp only [settled, exact_sub houter, exact_sub hinner]
  | equityV1 | optionsV1 =>
    cases side with
    | buy =>
      simp only [bind_eq_ok] at h
      obtain ⟨inner, hinner, cost, hcost, houter⟩ := h
      simp only [settled, OrderSide.direct, exact_neg houter, exact_add hcost, exact_add hinner]
      ring
    | sell =>
      simp only [bind_eq_ok] at h
      obtain ⟨inner, hinner, houter⟩ := h
      simp only [settled, OrderSide.direct, exact_sub houter, exact_sub hinner]
      ring

/-- What a fill computes before it is booked. -/
structure FillParts where
  notional : Decimal
  fee : Decimal
  tax : Decimal
  buys : List DayTradeBuy
  sells : List DayTradeSell
  transition : PositionTransition
  cashDelta : Decimal

/-- The steps of `apply_fill`, each successful, and what they leave in the ledger. -/
structure FillParts.Booked (parts : FillParts) (fill : FillRecord) (l l' : Ledger) : Prop where
  terms : SameTerms l l'
  notional_ok : Osmium.notional fill l.economics = .ok parts.notional
  fee_ok : charge parts.notional fill.quantity.value.val fill.side l.fee = .ok parts.fee
  tax_ok : l.taxForFill fill parts.notional = .ok (parts.tax, parts.buys, parts.sells)
  transition_ok : transitionPosition l.position l.costBasisAtoms
      (signedQuantity fill) fill.price.value l.economics =
    .ok parts.transition
  cashDelta_ok : Osmium.cashDelta l.accountingModel fill.side parts.notional parts.fee parts.tax
    parts.transition.realized = .ok parts.cashDelta
  position : l'.position = parts.transition.position
  costBasisAtoms : l'.costBasisAtoms = parts.transition.costBasisAtoms
  averageCost : l'.averageCost = parts.transition.averageCost
  cash : checkedAdd l.cash parts.cashDelta = .ok l'.cash
  totalFee : checkedAdd l.totalFee parts.fee = .ok l'.totalFee
  totalTax : checkedAdd l.totalTax parts.tax = .ok l'.totalTax
  realizedPnl : checkedAdd l.realizedPnl parts.transition.realized = .ok l'.realizedPnl
  dayTradeBuys : l'.dayTradeBuys = parts.buys
  dayTradeSells : l'.dayTradeSells = parts.sells
  fillCosts : l'.fillCosts = l.fillCosts ++ [⟨fill.orderId, parts.fee, parts.tax⟩]
  fills : l'.fills = l.fills ++ [fill]

theorem applyFill_parts {fill : FillRecord} {l l' : Ledger}
    (h : Ledger.applyFill fill l = .ok () l') :
    ∃ parts : FillParts, parts.Booked fill l l' := by
  unfold Ledger.applyFill at h
  obtain ⟨self, s₁, h₁, h⟩ := (bind_ok _ _ _ _ _).1 h
  obtain ⟨rfl, rfl⟩ := (get_ok _ _ _).1 h₁
  simp only [bind_ok, lift_ok, set_ok] at h
  obtain ⟨_, _, ⟨-, rfl⟩, _, _, ⟨-, rfl⟩, value, _, ⟨hvalue, rfl⟩, fee, _, ⟨hcharge, rfl⟩, tax, _,
      ⟨hassess, rfl⟩, h⟩ := h
  obtain ⟨t, _, ⟨ht, rfl⟩, delta, _, ⟨hdelta, rfl⟩, cash, _, ⟨hcash, rfl⟩, h⟩ := h
  obtain ⟨totalFee, _, ⟨hfee, rfl⟩, totalTax, _, ⟨htax, rfl⟩, realized, _, ⟨hrealized, rfl⟩, rfl⟩ :=
    h
  exact ⟨⟨value, fee, tax.1, tax.2.1, tax.2.2, t, delta⟩, ⟨rfl, rfl, rfl, rfl, rfl, rfl⟩, hvalue,
    hcharge, hassess, ht, hdelta, rfl, rfl, rfl, hcash, hfee, htax, hrealized, rfl, rfl, rfl, rfl⟩

/-- A successful fill, as exact values. -/
structure Fills (fill : FillRecord) (l l' : Ledger) : Prop where
  terms : SameTerms l l'
  fills : l'.fills = l.fills ++ [fill]
  transition : ∃ t : PositionTransition, ∃ fee tax : Decimal,
    transitionPosition l.position l.costBasisAtoms
      (signedQuantity fill) fill.price.value l.economics = .ok t ∧
    l'.position = t.position ∧ l'.costBasisAtoms = t.costBasisAtoms ∧
    l'.realizedPnl.exact = l.realizedPnl.exact + t.realized.exact ∧
    l'.totalFee.exact = l.totalFee.exact + fee.exact ∧
    l'.totalTax.exact = l.totalTax.exact + tax.exact ∧
    l'.cash.exact = l.cash.exact +
      settled l.accountingModel (fill.tradedValue l.economics) t.realized.exact -
        fee.exact - tax.exact

theorem applyFill_ok {fill : FillRecord} {l l' : Ledger} (h : Ledger.applyFill fill l = .ok () l') :
    Fills fill l l' := by
  obtain ⟨parts, hb⟩ := applyFill_parts h
  refine ⟨hb.terms, hb.fills, parts.transition, parts.fee, parts.tax, hb.transition_ok, hb.position,
    hb.costBasisAtoms, exact_add hb.realizedPnl, exact_add hb.totalFee, exact_add hb.totalTax, ?_⟩
  rw [exact_add hb.cash, cashDelta_exact hb.cashDelta_ok, notional_exact hb.notional_ok]
  ring

end Step

/-- Cash against the books: outside daily settlement the open basis has been paid for. -/
structure Ledger.Balanced (l : Ledger) : Prop where
  cash : l.cash.exact + (if l.accountingModel = .futuresV1 then 0 else l.openBasis) =
    l.initialCash.exact + l.realizedPnl.exact - l.totalFee.exact - l.totalTax.exact
  flat : l.position.val = 0 → l.costBasisAtoms.val = 0
  bound : |l.position.val| < 2 ^ 127

theorem rebuilt_balanced (l : Ledger) : l.rebuilt.Balanced where
  cash := by
    simp [Ledger.rebuilt, Ledger.withOptionalDayTradeTax, Ledger.newWithModel,
      Ledger.openBasis, exact_zero]
  flat := fun _ => rfl
  bound := by simp [Ledger.rebuilt, Ledger.withOptionalDayTradeTax, Ledger.newWithModel]

theorem Fills.balanced {fill : FillRecord} {l l' : Ledger} (h : Fills fill l l') (hl : l.Balanced) :
    l'.Balanced ∧ l'.position.val = l.position.val + fill.signed := by
  obtain ⟨t, fee, tax, ht, hposition, hbasis, hrealized, hfee, htax, hcash⟩ := h.transition
  have hspec :=
    transitionPosition_ok hl.flat (by rw [signedQuantity_val]; exact signed_ne_zero fill)
    (by rw [signedQuantity_val]; exact abs_signed_lt fill) ht
  obtain ⟨difference, hdifference, hsigned⟩ := hspec.basis
  rw [signedQuantity_val] at hsigned
  have hmoved : l'.openBasis = l.openBasis + fill.tradedValue l.economics + t.realized.exact := by
    have hq : (t.position.val.sign : ℚ) * t.costBasisAtoms.val =
        l.position.val.sign * l.costBasisAtoms.val + fill.signed * fill.price.value.atoms.val +
          difference.atoms.val := by
      exact_mod_cast hsigned
    rw [hdifference]
    simp only [Ledger.openBasis, FillRecord.tradedValue, Decimal.exact, hposition, hbasis,
      h.terms.economics]
    linear_combination l.economics.scale / Decimal.scaleFactor * hq
  refine ⟨⟨?_, ?_, ?_⟩, ?_⟩
  · have hold := hl.cash
    rw [h.terms.accountingModel, h.terms.initialCash, hrealized, hfee, htax, hcash, hmoved]
    cases hmodel : l.accountingModel <;>
      simp only [hmodel, settled, reduceCtorEq, if_true, if_false] at hold ⊢ <;>
      linear_combination hold
  · rw [hposition, hbasis]
    exact hspec.flat
  · rw [hposition]
    exact hspec.bound
  · rw [hposition, hspec.moved, signedQuantity_val]

section Run

theorem applyFills_append (fills rest : List FillRecord) (l l' : Ledger) :
    applyFills (fills ++ rest) l = .ok () l' ↔
    ∃ m, applyFills fills l = .ok () m ∧ applyFills rest m = .ok () l' := by
  induction fills generalizing l with
  | nil =>
    simp only [List.nil_append, applyFills, pure_ok, true_and]
    exact ⟨fun h => ⟨l, rfl, h⟩, fun ⟨_, hm, h⟩ => hm ▸ h⟩
  | cons first fills ih =>
    simp only [List.cons_append, applyFills, bind_ok]
    constructor
    · rintro ⟨_, m, hm, h⟩
      obtain ⟨m', hm', h⟩ := (ih m).1 h
      exact ⟨m', ⟨(), m, hm, hm'⟩, h⟩
    · rintro ⟨m', ⟨_, m, hm, hm'⟩, h⟩
      exact ⟨(), m, hm, (ih m).2 ⟨m', hm', h⟩⟩

theorem applyFills_cons (fill : FillRecord) (rest : List FillRecord) (l l' : Ledger) :
    applyFills (fill :: rest) l = .ok () l' ↔
    ∃ m, Ledger.applyFill fill l = .ok () m ∧ applyFills rest m = .ok () l' := by
  simp only [applyFills, bind_ok]
  exact ⟨fun ⟨_, m, hm, h⟩ => ⟨m, hm, h⟩, fun ⟨m, hm, h⟩ => ⟨(), m, hm, h⟩⟩

theorem applyFills_snoc (fills : List FillRecord) (fill : FillRecord) (l l' : Ledger) :
    applyFills (fills ++ [fill]) l = .ok () l' ↔
      ∃ m, applyFills fills l = .ok () m ∧ Ledger.applyFill fill m = .ok () l' := by
  rw [applyFills_append]
  simp only [applyFills_cons]
  simp only [applyFills, pure_ok, true_and, exists_eq_right]

/-- The ledger after some calls of `apply_fill`; a call that fails leaves it as it was. -/
def Ledger.after (fills : List FillRecord) (l : Ledger) : Ledger :=
  fills.foldl (fun l fill => stateAfter (Ledger.applyFill fill l)) l

theorem applyFill_atomic (fill : FillRecord) : Atomic (Ledger.applyFill fill) := by
  apply Atomic.bind ReadOnly.get; intro self
  iterate 11 (apply Atomic.bind (ReadOnly.lift _); intro _)
  exact Atomic.set _

theorem Ledger.after_snoc (fills : List FillRecord) (fill : FillRecord) (l : Ledger) :
    l.after (fills ++ [fill]) = stateAfter (Ledger.applyFill fill (l.after fills)) := by
  rw [Ledger.after, List.foldl_append]
  rfl

/-- A run of fills keeps the terms and the balance, and records each fill. -/
structure RunsTo (fills : List FillRecord) (l l' : Ledger) : Prop where
  terms : SameTerms l l'
  recorded : l'.fills = l.fills ++ fills
  balanced : l'.Balanced
  position : l'.position.val = l.position.val + (fills.map FillRecord.signed).sum

theorem applyFills_ok {fills : List FillRecord} {l l' : Ledger} (hl : l.Balanced)
    (h : applyFills fills l = .ok () l') : RunsTo fills l l' := by
  induction fills generalizing l with
  | nil =>
    obtain ⟨-, rfl⟩ := (pure_ok _ _ _ _).1 h
    exact ⟨.refl _, by simp, hl, by simp⟩
  | cons fill rest ih =>
    obtain ⟨_, m, hm, h⟩ := (bind_ok _ _ _ _ _).1 h
    have hstep := applyFill_ok hm
    obtain ⟨hbalanced, hposition⟩ := hstep.balanced hl
    have hrun := ih hbalanced h
    refine ⟨hstep.terms.trans hrun.terms, ?_, hrun.balanced, ?_⟩
    · rw [hrun.recorded, hstep.fills, List.append_assoc, List.singleton_append]
    · rw [hrun.position, hposition, List.map_cons, List.sum_cons, add_assoc]

end Run

end Osmium
