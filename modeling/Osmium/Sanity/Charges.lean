import Osmium.Lib.Rounding
import Osmium.Sanity.Accounting

/-! What the divisions of the ledger round to. A charge is a product of nonnegative numbers rounded
to an atom and then to the precision of its model; a basis may be negative, and there the division
truncates before it rounds. -/

namespace Osmium
open Machine Bytes Result Stateful Rounding

/-- The integer a policy rounds to: the one below, the one above, or the nearest with ties up. -/
def RoundingPolicy.roundOnce (policy : RoundingPolicy) (x : ℚ) : ℤ :=
  match policy with
  | .down => ⌊x⌋
  | .up => ⌈x⌉
  | .halfUp => round x

section Division
variable {n d z : I128}

theorem wrap_one_val : (Signed.wrap 128 1 : I128).val = 1 := by decide

theorem wrap_two_val : (Signed.wrap 128 2 : I128).val = 2 := by decide

theorem abs_tmod_lt (n : ℤ) {d : ℤ} (hd : 0 < d) : |n.tmod d| < d := by
  rw [← Int.natCast_natAbs, Int.natAbs_tmod]
  have := Nat.mod_lt n.natAbs (Int.natAbs_pos.2 hd.ne')
  omega

/-- Twice the remainder against the divisor. It does not fit in 128 bits from `2 ^ 126` on, and is
then negative. -/
theorem doubled_rem_le_iff (hd : 0 < d.val) :
    d.abs.val ≤ ((n.rem d).abs.wrappingMul (Signed.wrap 128 2)).val ↔
      d.val ≤ 2 * |n.val.tmod d.val| ∧ |n.val.tmod d.val| < 2 ^ 126 := by
  have hdhi := d.upper
  have hlt := abs_tmod_lt n.val hd
  have hnonneg := abs_nonneg (n.val.tmod d.val)
  have hd' : d.abs.val = d.val := by rw [Signed.val_abs _ (by decide) (by omega), abs_of_pos hd]
  have hr : (n.rem d).abs.val = |n.val.tmod d.val| := by
    rw [Signed.val_abs _ (by decide), Signed.val_rem _ _ (by decide)]
    rw [Signed.val_rem _ _ (by decide)]
    have := abs_le.1 hlt.le
    omega
  rw [hd', Signed.wrappingMul, hr, wrap_two_val]
  generalize |n.val.tmod d.val| = r at *
  by_cases hsmall : r < 2 ^ 126
  · rw [Signed.wrap_val_of_mem _ (by decide) (by omega) (by norm_num; omega)]
    omega
  · have hwrapped : (Signed.wrap 128 (r * 2)).val = r * 2 - 2 ^ 128 := by
      have hmod : (r * 2) % ((2 ^ 128 : ℕ) : ℤ) = r * 2 :=
        Int.emod_eq_of_lt (by omega) (by norm_num at hdhi ⊢; omega)
      show Int.bmod (r * 2) (2 ^ 128) = _
      rw [Int.bmod_eq_emod, hmod, if_pos (by norm_num at hsmall ⊢; omega)]
      norm_num
    rw [hwrapped]
    norm_num at hsmall hdhi ⊢
    omega

/-- A quotient cut off towards zero, and one more when at least half was cut off. Twice the
remainder must fit. -/
def halfUpQuotient (n d : ℤ) : ℤ :=
  n.tdiv d + if d ≤ 2 * |n.tmod d| ∧ |n.tmod d| < 2 ^ 126 then 1 else 0

theorem divideRound_halfUp (hd : 0 < d.val) (h : divideRound n d .halfUp = .ok z) :
    z.val = halfUpQuotient n.val d.val := by
  unfold divideRound at h
  unfold halfUpQuotient
  simp only [doubled_rem_le_iff hd, Signed.val_rem n d (by decide)] at h
  by_cases hzero : n.val.tmod d.val = 0
  · rw [if_pos hzero, Except.ok.injEq] at h
    rw [← h, Signed.val_quot _ _ (by decide) hd, hzero, abs_zero, if_neg (by omega), add_zero]
  · rw [if_neg hzero] at h
    by_cases hup : d.val ≤ 2 * |n.val.tmod d.val| ∧ |n.val.tmod d.val| < 2 ^ 126
    · rw [if_pos hup, checked_eq_ok, Signed.checkedAdd_eq_some, Signed.val_quot _ _ (by decide) hd,
        wrap_one_val] at h
      rw [if_pos hup, h]
    · rw [if_neg hup, Except.ok.injEq] at h
      rw [if_neg hup, ← h, Signed.val_quot _ _ (by decide) hd, add_zero]

/-- A division by two or more leaves room for the one that is added. -/
theorem divideRound_halfUp_isOk (hd : 2 ≤ d.val) : ∃ z, divideRound n d .halfUp = .ok z := by
  unfold divideRound
  by_cases hzero : (n.rem d).val = 0
  · exact ⟨_, if_pos hzero⟩
  · rw [if_neg hzero]
    by_cases hup : d.abs.val ≤ ((n.rem d).abs.wrappingMul (Signed.wrap 128 2)).val
    · have hquot : (n.quot d).val = n.val.tdiv d.val := Signed.val_quot _ _ (by decide) (by omega)
      have hnat : (n.val.tdiv d.val).natAbs = n.val.natAbs / d.val.natAbs := Int.natAbs_tdiv _ _
      have hhalf : n.val.natAbs / d.val.natAbs ≤ n.val.natAbs / 2 :=
        Nat.div_le_div_left (by omega) (by decide)
      have hlo := n.lower
      have hhi := n.upper
      norm_num at hlo hhi
      refine ⟨Signed.wrap 128 (n.val.tdiv d.val + 1), ?_⟩
      simp only [hup, if_true]
      rw [checked_eq_ok, Signed.checkedAdd_eq_some, hquot, wrap_one_val]
      exact Signed.wrap_val_of_mem _ (by decide) (by norm_num; omega) (by norm_num; omega)
    · simp only [hup, if_false]
      exact ⟨_, rfl⟩

theorem divideRound_halfUp_of_nonneg (hn : 0 ≤ n.val) (hd : 0 < d.val)
    (hfits : n.val.tmod d.val < 2 ^ 126)
    (h : divideRound n d .halfUp = .ok z) : z.val = round (n.val / d.val : ℚ) := by
  have hrem : |n.val.tmod d.val| = n.val.tmod d.val := abs_of_nonneg (Int.tmod_nonneg _ hn)
  rw [divideRound_halfUp hd h, halfUpQuotient, round_div_of_nonneg hn hd]
  simp only [hrem, hfits, and_true]

/-- On a numerator that is not negative the division rounds as its policy says. -/
theorem divideRound_of_nonneg {policy : RoundingPolicy} (hn : 0 ≤ n.val) (hd : 0 < d.val)
    (hsmall : d.val ≤ 2 ^ 126)
    (h : divideRound n d policy = .ok z) : z.val = policy.roundOnce (n.val / d.val) := by
  by_cases hhalf : policy = .halfUp
  · subst hhalf
    have hlt := Int.tmod_lt_of_pos n.val hd
    exact divideRound_halfUp_of_nonneg hn hd (by omega) h
  · unfold divideRound at h
    simp only [Signed.val_rem n d (by decide)] at h
    by_cases hzero : n.val.tmod d.val = 0
    · rw [if_pos hzero, Except.ok.injEq] at h
      have hexact : (n.val / d.val : ℚ) = (n.val.tdiv d.val : ℤ) := by
        rw [div_eq_tdiv_add n.val hd, hzero, Int.cast_zero, zero_div, add_zero]
      rw [← h, Signed.val_quot _ _ (by decide) hd, hexact]
      cases policy <;> simp [RoundingPolicy.roundOnce]
    · rw [if_neg hzero] at h
      cases policy with
      | down =>
        rw [Except.ok.injEq] at h
        rw [← h, Signed.val_quot _ _ (by decide) hd, RoundingPolicy.roundOnce,
          floor_div_of_nonneg hn hd]
      | up =>
        rw [checked_eq_ok, Signed.checkedAdd_eq_some, Signed.val_quot _ _ (by decide) hd,
          wrap_one_val] at h
        rw [h, RoundingPolicy.roundOnce, ceil_div_of_nonneg hn hd hzero]
      | halfUp => exact absurd rfl hhalf

/-- A quotient that the code rounds to the nearest integer: what it cuts off is less than one half,
or else the numerator is not negative and twice the remainder fits. -/
def RoundsToNearest (n d : ℤ) : Prop := 2 * (|n| % d) < d ∨ 0 ≤ n ∧ |n| % d < 2 ^ 126

instance (n d : ℤ) : Decidable (RoundsToNearest n d) := inferInstanceAs (Decidable (_ ∨ _))

theorem abs_tmod (n : ℤ) {d : ℤ} (hd : 0 < d) : |n.tmod d| = |n| % d := by
  obtain ⟨k, rfl⟩ := Int.eq_ofNat_of_zero_le hd.le
  rw [Int.abs_eq_natAbs, Int.natAbs_tmod, Int.abs_eq_natAbs, Int.natAbs_natCast, Int.natCast_mod]

/-- How far the rounded quotient is from the exact one: what was added to the truncation, less the
remainder's share. -/
theorem abs_sub_div_le_half_iff (q : ℤ) {n d : ℤ} (hd : 0 < d) :
    |(q - n / d : ℚ)| ≤ 1 / 2 ↔ 2 * |(q - n.tdiv d) * d - n.tmod d| ≤ d := by
  have hq : (0 : ℚ) < d := by exact_mod_cast hd
  have hsplit : (q - n / d : ℚ) = (((q - n.tdiv d) * d - n.tmod d : ℤ) : ℚ) / d := by
    rw [div_eq_tdiv_add n hd]
    push_cast
    field_simp
    ring
  rw [hsplit, abs_div, abs_of_pos hq, div_le_iff₀ hq, ← Int.cast_abs]
  constructor
  · intro h
    have : (2 * |(q - n.tdiv d) * d - n.tmod d| : ℚ) ≤ d := by
      push_cast at h ⊢
      linarith
    exact_mod_cast this
  · intro h
    have : (2 * |(q - n.tdiv d) * d - n.tmod d| : ℚ) ≤ d := by exact_mod_cast h
    push_cast at this ⊢
    linarith

theorem divideRound_nearest_iff (hd : 0 < d.val) (h : divideRound n d .halfUp = .ok z) :
    |(z.val - n.val / d.val : ℚ)| ≤ 1 / 2 ↔ RoundsToNearest n.val d.val := by
  have hdhi := d.upper
  have hrem := abs_tmod_lt n.val hd
  have hneg : n.val < 0 → n.val.tmod d.val ≤ 0 := fun hn => by
    have := Int.tmod_nonneg d.val (a := -n.val) (by omega)
    rw [Int.neg_tmod] at this
    omega
  have hpos : 0 ≤ n.val → 0 ≤ n.val.tmod d.val := Int.tmod_nonneg d.val
  rw [abs_sub_div_le_half_iff _ hd, divideRound_halfUp hd h, halfUpQuotient, add_sub_cancel_left,
    RoundsToNearest, ← abs_tmod n.val hd]
  generalize n.val.tmod d.val = r at *
  have hr := abs_cases r
  by_cases hup : d.val ≤ 2 * |r| ∧ |r| < 2 ^ 126
  · rw [if_pos hup, one_mul]
    have hr' := abs_cases (d.val - r)
    omega
  · rw [if_neg hup, zero_mul, zero_sub, abs_neg]
    omega

theorem divideRound_eq_round (hd : 0 < d.val) (h : divideRound n d .halfUp = .ok z)
    (hnear : RoundsToNearest n.val d.val) : z.val = round (n.val / d.val : ℚ) := by
  have hdhi := d.upper
  rw [RoundsToNearest, ← abs_tmod n.val hd] at hnear
  by_cases hn : 0 ≤ n.val
  · have hle := le_abs_self (n.val.tmod d.val)
    exact divideRound_halfUp_of_nonneg hn hd (by omega) h
  · have hsmall : 2 * |n.val.tmod d.val| < d.val := hnear.resolve_right fun h => hn h.1
    have hq : (0 : ℚ) < d.val := by exact_mod_cast hd
    have hbounds : ((-d.val : ℤ) : ℚ) < (2 * n.val.tmod d.val : ℤ) ∧
        ((2 * n.val.tmod d.val : ℤ) : ℚ) < d.val := by
      rw [Int.cast_lt, Int.cast_lt]
      have := abs_cases (n.val.tmod d.val)
      omega
    push_cast at hbounds
    have hzero : round (n.val.tmod d.val / d.val : ℚ) = 0 := by
      rw [round_eq_zero_iff, Set.mem_Ico, le_div_iff₀ hq, div_lt_iff₀ hq]
      exact ⟨by linarith, by linarith⟩
    rw [divideRound_halfUp hd h, halfUpQuotient, if_neg (by omega), div_eq_tdiv_add n.val hd,
      round_intCast_add, hzero]

end Division

section Charge
variable {notional charged : Decimal} {quantity : U64} {side : OrderSide} {model : ChargeModel}

/-- What `validate_models` asks of a charge model. -/
structure ChargeModel.Validated (model : ChargeModel) : Prop where
  rate : 0 ≤ model.rate.atoms.val
  minimum : 0 ≤ model.minimum.atoms.val
  precision : model.precision ≤ 18

/-- The exact charge, before any rounding. -/
def ChargeModel.product (model : ChargeModel) (notional : Decimal) (quantity : ℕ) : ℚ :=
  match model.basis with
  | .notionalRate => |notional.exact| * model.rate.exact
  | .fixedPerUnit => quantity * model.rate.exact

/-- One unit in the last decimal place that the model keeps. -/
def ChargeModel.quantum (model : ChargeModel) : ℚ := 1 / 10 ^ model.precision

/-- The quantum counted in atoms. -/
def ChargeModel.quantumAtoms (model : ChargeModel) : ℕ := 10 ^ (18 - model.precision)

theorem quantumAtoms_pos (model : ChargeModel) : 0 < model.quantumAtoms := Nat.pow_pos (by norm_num)

theorem scaleFactor_eq : (Decimal.scaleFactor : ℚ) = 10 ^ 18 := by norm_num [Decimal.scaleFactor]

theorem quantum_eq (hprecision : model.precision ≤ 18) :
    model.quantum = model.quantumAtoms / Decimal.scaleFactor := by
  have hsplit : (10 : ℚ) ^ 18 = 10 ^ (18 - model.precision) * 10 ^ model.precision := by
    rw [← pow_add, Nat.sub_add_cancel hprecision]
  rw [ChargeModel.quantum, ChargeModel.quantumAtoms, scaleFactor_eq, hsplit]
  push_cast
  field_simp

theorem RoundingPolicy.roundOnce_nonneg (policy : RoundingPolicy) {x : ℚ} (hx : 0 ≤ x) :
    0 ≤ policy.roundOnce x := by
  cases policy with
  | down => exact Int.floor_nonneg.2 hx
  | up => exact Int.ceil_nonneg hx
  | halfUp =>
    rw [RoundingPolicy.roundOnce, round_eq]
    exact Int.floor_nonneg.2 (by linarith)

theorem RoundingPolicy.roundOnce_mono (policy : RoundingPolicy) {x y : ℚ} (h : x ≤ y) :
    policy.roundOnce x ≤ policy.roundOnce y := by
  cases policy with
  | down => exact Int.floor_le_floor h
  | up => exact Int.ceil_le_ceil h
  | halfUp =>
    rw [RoundingPolicy.roundOnce, RoundingPolicy.roundOnce, round_eq, round_eq]
    apply Int.floor_le_floor
    linarith

theorem RoundingPolicy.roundOnce_add_intCast (policy : RoundingPolicy) (x : ℚ) (k : ℤ) :
    policy.roundOnce (x + k) = policy.roundOnce x + k := by
  cases policy with
  | down => exact Int.floor_add_intCast x k
  | up => exact Int.ceil_add_intCast x k
  | halfUp => exact round_add_intCast x k

theorem roundOnce_down_add_le (x y : ℚ) :
    RoundingPolicy.down.roundOnce x + RoundingPolicy.down.roundOnce y ≤
      RoundingPolicy.down.roundOnce (x + y) :=
  Int.le_floor_add x y

theorem roundOnce_up_add_ge (x y : ℚ) :
    RoundingPolicy.up.roundOnce (x + y) ≤
      RoundingPolicy.up.roundOnce x + RoundingPolicy.up.roundOnce y :=
  Int.ceil_add_le x y

/-- What a model rounds an exact amount to, in atoms: to a whole atom first, and then to the
quantum. -/
def ChargeModel.rounded (model : ChargeModel) (x : ℚ) : ℤ :=
  model.rounding.roundOnce
    (model.rounding.roundOnce (x * Decimal.scaleFactor) / model.quantumAtoms) * model.quantumAtoms

theorem ChargeModel.rounded_mono (model : ChargeModel) {x y : ℚ} (h : x ≤ y) :
    model.rounded x ≤ model.rounded y := by
  have hatoms : model.rounding.roundOnce (x * Decimal.scaleFactor) ≤
      model.rounding.roundOnce (y * Decimal.scaleFactor) := by
    apply RoundingPolicy.roundOnce_mono
    gcongr
  unfold ChargeModel.rounded
  gcongr
  apply RoundingPolicy.roundOnce_mono
  gcongr

theorem ChargeModel.rounded_nonneg (model : ChargeModel) {x : ℚ} (hx : 0 ≤ x) :
    0 ≤ model.rounded x := by
  have hatoms : 0 ≤ model.rounding.roundOnce (x * Decimal.scaleFactor) := by
    apply RoundingPolicy.roundOnce_nonneg
    positivity
  apply mul_nonneg
  · apply RoundingPolicy.roundOnce_nonneg
    positivity
  · exact Nat.cast_nonneg _

/-- Rounded down on their own, two amounts come to no more than their sum does. -/
theorem ChargeModel.rounded_add_le (hdown : model.rounding = .down) (x y : ℚ) :
    model.rounded x + model.rounded y ≤ model.rounded (x + y) := by
  unfold ChargeModel.rounded
  rw [hdown, ← add_mul, add_mul x y]
  gcongr
  refine (roundOnce_down_add_le _ _).trans ?_
  apply RoundingPolicy.roundOnce_mono
  rw [← add_div, ← Int.cast_add]
  gcongr
  exact roundOnce_down_add_le _ _

theorem ChargeModel.rounded_add_ge (hup : model.rounding = .up) (x y : ℚ) :
    model.rounded (x + y) ≤ model.rounded x + model.rounded y := by
  unfold ChargeModel.rounded
  rw [hup, ← add_mul, add_mul x y]
  gcongr
  refine le_trans ?_ (roundOnce_up_add_ge _ _)
  apply RoundingPolicy.roundOnce_mono
  rw [← add_div, ← Int.cast_add]
  gcongr
  exact roundOnce_up_add_ge _ _

/-- The amount the rate applies to, in atoms. -/
def ChargeModel.base (model : ChargeModel) (notional : Decimal) (quantity : ℕ) :
    Except AccountingError I128 :=
  match model.basis with
  | .notionalRate => checked notional.atoms.checkedAbs
  | .fixedPerUnit => checked ((Signed.wrap 128 quantity).checkedMul scaleFactorAtoms)

theorem charge_eq (happlies : chargeApplies model.sides side = true) (quantity : ℕ) :
    charge notional quantity side model = do
      let left ← model.base notional quantity
      let product ← checked
        ((cancelled left model.rate.atoms).1.checkedMul (cancelled left model.rate.atoms).2.1)
      let raw ← divideRound product (cancelled left model.rate.atoms).2.2 model.rounding
      let quantum ← checked (Signed.ofInt? 128 model.quantumAtoms)
      let quotient ← divideRound raw quantum model.rounding
      let rounded ← checked (quotient.checkedMul quantum)
      return ⟨max rounded model.minimum.atoms⟩ := by
  unfold charge ChargeModel.base
  rw [if_neg (by rw [happlies]; decide)]
  cases model.basis <;> rfl

theorem base_exact {left : I128} (h : model.base notional quantity.val = .ok left) :
    0 ≤ left.val ∧
      (left.val * model.rate.atoms.val / Decimal.scaleFactor : ℚ) =
        model.product notional quantity.val * Decimal.scaleFactor := by
  have hscale : (Decimal.scaleFactor : ℚ) ≠ 0 := by norm_num [Decimal.scaleFactor]
  unfold ChargeModel.base at h
  unfold ChargeModel.product Decimal.exact
  cases hbasis : model.basis with
  | notionalRate =>
    rw [hbasis, checked_eq_ok, Signed.checkedAbs_eq_some] at h
    refine ⟨h ▸ abs_nonneg _, ?_⟩
    rw [h, abs_div, Nat.abs_cast]
    push_cast
    field_simp
  | fixedPerUnit =>
    have hlt := quantity.lt
    rw [hbasis, checked_eq_ok, Signed.checkedMul_eq_some, scaleFactorAtoms_val,
      Signed.wrap_val_of_mem _ (by decide) (by omega) (by norm_num at hlt ⊢; omega)] at h
    refine ⟨h ▸ by positivity, ?_⟩
    rw [h]
    push_cast
    field_simp

theorem max_val (a b : I128) : (max a b).val = max a.val b.val := by
  rcases le_total a b with h | h
  · rw [max_eq_right h, max_eq_right ((Signed.le_iff _ _).1 h)]
  · rw [max_eq_left h, max_eq_left ((Signed.le_iff _ _).1 h)]

theorem quantumAtoms_le (model : ChargeModel) : (model.quantumAtoms : ℤ) ≤ 2 ^ 126 := by
  have h : model.quantumAtoms ≤ 10 ^ 18 := Nat.pow_le_pow_right (by norm_num) (Nat.sub_le _ _)
  have : (10 : ℕ) ^ 18 ≤ 2 ^ 126 := by norm_num
  exact_mod_cast h.trans this

/-- The code rounds the exact charge to an atom first, and that to the quantum. -/
theorem charge_rounds_twice (hmodel : model.Validated)
    (happlies : chargeApplies model.sides side = true)
    (h : charge notional quantity.val side model = .ok charged) :
    charged.atoms.val =
      max (model.rounded (model.product notional quantity.val)) model.minimum.atoms.val := by
  simp only [charge_eq happlies, bind_eq_ok, pure_eq_ok, checked_eq_ok, Signed.ofInt?_eq_some,
    Signed.checkedMul_eq_some] at h
  obtain ⟨left, hleft, product, hproduct, raw, hraw, quantum, hquantum, quotient, hquotient,
      rounded, hrounded, rfl⟩ := h
  obtain ⟨hnonneg, hexact⟩ := base_exact hleft
  have hspec := cancelled_spec left model.rate.atoms
  have hscale : (Decimal.scaleFactor : ℤ) ≤ 2 ^ 126 := by norm_num [Decimal.scaleFactor]
  have hfraction : (product.val / (cancelled left model.rate.atoms).2.2.val : ℚ) =
      model.product notional quantity.val * Decimal.scaleFactor := by
    have hq : (product.val * Decimal.scaleFactor : ℚ) =
        left.val * model.rate.atoms.val * (cancelled left model.rate.atoms).2.2.val := by
      rw [hproduct]
      exact_mod_cast hspec.exact
    have hpos : (0 : ℚ) < (cancelled left model.rate.atoms).2.2.val := by exact_mod_cast hspec.pos
    have hne : (Decimal.scaleFactor : ℚ) ≠ 0 := by norm_num [Decimal.scaleFactor]
    rw [← hexact, div_eq_div_iff hpos.ne' hne, hq]
  have hraw' := divideRound_of_nonneg (hproduct ▸ hspec.nonneg hnonneg hmodel.rate) hspec.pos
    (hspec.le.trans hscale) hraw
  rw [hfraction] at hraw'
  have hrawNonneg : 0 ≤ raw.val := by
    rw [hraw', ← hexact]
    apply RoundingPolicy.roundOnce_nonneg
    have := hmodel.rate
    positivity
  have hquotient' :=
    divideRound_of_nonneg hrawNonneg (by rw [hquantum]; exact_mod_cast quantumAtoms_pos model)
    (by rw [hquantum]; exact quantumAtoms_le model) hquotient
  rw [max_val, hrounded, hquotient', hraw', hquantum, ChargeModel.rounded]
  norm_cast

/-- An amount that the model leaves as it is: a whole number of quanta. -/
def ChargeModel.Whole (model : ChargeModel) (x : ℚ) : Prop := ∃ k : ℤ, x = k * model.quantum

/-- A whole amount goes through the rounding of what it is added to. -/
theorem ChargeModel.rounded_add_whole (hprecision : model.precision ≤ 18) {x w : ℚ}
    (hw : model.Whole w) :
    (model.rounded (x + w) : ℚ) = model.rounded x + w * Decimal.scaleFactor := by
  obtain ⟨k, rfl⟩ := hw
  have hquantum : (model.quantumAtoms : ℚ) ≠ 0 := by exact_mod_cast (quantumAtoms_pos model).ne'
  have hscale : (Decimal.scaleFactor : ℚ) ≠ 0 := by norm_num [Decimal.scaleFactor]
  have hatoms : k * model.quantum * Decimal.scaleFactor = (k * model.quantumAtoms : ℤ) := by
    rw [quantum_eq hprecision]
    push_cast
    field_simp
  have hshift (a : ℤ) : ((a + k * model.quantumAtoms : ℤ) : ℚ) / model.quantumAtoms =
      a / model.quantumAtoms + k := by
    push_cast
    field_simp
  rw [ChargeModel.rounded, add_mul, hatoms, RoundingPolicy.roundOnce_add_intCast, hshift,
    RoundingPolicy.roundOnce_add_intCast, ChargeModel.rounded]
  push_cast
  ring

theorem ChargeModel.rounded_zero (model : ChargeModel) : model.rounded 0 = 0 := by
  have hzero : model.rounding.roundOnce 0 = 0 := by
    cases model.rounding <;> simp [RoundingPolicy.roundOnce]
  rw [ChargeModel.rounded, zero_mul, hzero, Int.cast_zero, zero_div, hzero, zero_mul]

theorem ChargeModel.rounded_whole (hprecision : model.precision ≤ 18) {w : ℚ} (hw : model.Whole w) :
    (model.rounded w : ℚ) = w * Decimal.scaleFactor := by
  have h := model.rounded_add_whole hprecision (x := 0) hw
  rwa [zero_add, model.rounded_zero, Int.cast_zero, zero_add] at h

/-- The most that the model may round an amount to: the next multiple of the quantum, or the amount
itself where it rounds down. -/
def ChargeModel.atMost (model : ChargeModel) (x : ℚ) : ℚ :=
  if model.rounding = .down then x else ⌈x / model.quantum⌉ * model.quantum

/-- The least that it may be rounded to. -/
def ChargeModel.atLeast (model : ChargeModel) (x : ℚ) : ℚ :=
  if model.rounding = .up then x else ⌊x / model.quantum⌋ * model.quantum

theorem ChargeModel.quantum_pos (model : ChargeModel) : 0 < model.quantum := by
  rw [ChargeModel.quantum]
  positivity

theorem ChargeModel.rounded_le_atMost (hprecision : model.precision ≤ 18) (x : ℚ) :
    (model.rounded x : ℚ) ≤ model.atMost x * Decimal.scaleFactor := by
  have hatoms : (0 : ℚ) < model.quantumAtoms := by exact_mod_cast quantumAtoms_pos model
  by_cases hdown : model.rounding = .down
  · -- the atoms are cut off, and what they leave is cut off again
    rw [ChargeModel.atMost, if_pos hdown, ChargeModel.rounded, hdown]
    simp only [RoundingPolicy.roundOnce]
    push_cast
    calc _ ≤ (⌊x * Decimal.scaleFactor⌋ / model.quantumAtoms : ℚ) * model.quantumAtoms := by
            gcongr
            exact Int.floor_le _
      _ = ⌊x * Decimal.scaleFactor⌋ := div_mul_cancel₀ _ hatoms.ne'
      _ ≤ x * Decimal.scaleFactor := Int.floor_le _
  · rw [ChargeModel.atMost, if_neg hdown, ← model.rounded_whole hprecision ⟨_, rfl⟩, Int.cast_le]
    apply model.rounded_mono
    rw [← div_le_iff₀ model.quantum_pos]
    exact Int.le_ceil _

theorem ChargeModel.atLeast_le_rounded (hprecision : model.precision ≤ 18) (x : ℚ) :
    model.atLeast x * Decimal.scaleFactor ≤ (model.rounded x : ℚ) := by
  have hatoms : (0 : ℚ) < model.quantumAtoms := by exact_mod_cast quantumAtoms_pos model
  by_cases hup : model.rounding = .up
  · rw [ChargeModel.atLeast, if_pos hup, ChargeModel.rounded, hup]
    simp only [RoundingPolicy.roundOnce]
    push_cast
    calc x * Decimal.scaleFactor ≤ ⌈x * Decimal.scaleFactor⌉ := Int.le_ceil _
      _ = (⌈x * Decimal.scaleFactor⌉ / model.quantumAtoms : ℚ) * model.quantumAtoms :=
          (div_mul_cancel₀ _ hatoms.ne').symm
      _ ≤ _ := by
            gcongr
            exact Int.le_ceil _
  · rw [ChargeModel.atLeast, if_neg hup, ← model.rounded_whole hprecision ⟨_, rfl⟩, Int.cast_le]
    apply model.rounded_mono
    rw [← le_div_iff₀ model.quantum_pos]
    exact Int.floor_le _

end Charge

end Osmium
