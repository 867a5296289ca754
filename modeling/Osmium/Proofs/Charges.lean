import Osmium.Proofs.Accounting
import Osmium.Sanity.Charges

/-! Where the ledger's rounding is the rounding it is meant to be: a charge against one rounding of
the exact product, an average cost and an allocated basis against the nearest atom. -/

namespace Osmium
open Machine Bytes Result Stateful Rounding

section Charge
variable {notional charged : Decimal} {quantity : U64} {side : OrderSide} {model : ChargeModel}

/-- The exact charge rounded once to the model's precision, and raised to the minimum. -/
def ChargeModel.roundedOnce (model : ChargeModel) (notional : Decimal) (quantity : ℕ) : ℚ :=
  max model.minimum.exact
    (model.rounding.roundOnce (model.product notional quantity / model.quantum) * model.quantum)

/-- The exact charge lies below a tie, by no more than half an atom, and the quantum above the tie
is more than the minimum. Rounding to an atom then reaches the tie, and rounding to the quantum
takes it up. -/
def ChargeModel.ReachesTie (model : ChargeModel) (notional : Decimal) (quantity : ℕ) : Prop :=
  model.rounding = .halfUp ∧ model.precision < 18 ∧ ∃ k : ℤ,
    (k + 1 / 2) * model.quantum - 1 / (2 * 10 ^ 18) ≤ model.product notional quantity ∧
    model.product notional quantity < (k + 1 / 2) * model.quantum ∧
    model.minimum.exact < (k + 1) * model.quantum

/-- Half a quantum is a whole number of atoms, except at the finest precision. -/
theorem exists_half_quantum (h : model.precision < 18) : ∃ half :
    ℤ, 0 < half ∧ (model.quantumAtoms : ℤ) = 2 * half := by
  obtain ⟨n, hn⟩ : ∃ n, 18 - model.precision = n + 1 := ⟨17 - model.precision, by omega⟩
  refine ⟨5 * 10 ^ n, by positivity, ?_⟩
  rw [ChargeModel.quantumAtoms, hn, pow_succ]
  push_cast
  ring

theorem belowTie_iff (hmodel : model.Validated) {half k : ℤ}
    (hhalf : (model.quantumAtoms : ℤ) = 2 * half) (x : ℚ) :
    BelowTie half k (x * Decimal.scaleFactor) ↔
      (k + 1 / 2) * model.quantum - 1 / (2 * 10 ^ 18) ≤ x ∧ x < (k + 1 / 2) * model.quantum := by
  have hq : (model.quantumAtoms : ℚ) = 2 * half := by exact_mod_cast hhalf
  have hpos : (0 : ℚ) < 10 ^ 18 := by positivity
  rw [quantum_eq hmodel.precision, hq, scaleFactor_eq, BelowTie, ← mul_div_assoc, lt_div_iff₀ hpos,
    sub_le_iff_le_add, sub_le_iff_le_add, div_le_iff₀ hpos]
  constructor <;> rintro ⟨h1, h2⟩ <;> constructor <;> linarith

/-- The two roundings agree, unless the first reaches a tie. -/
theorem roundOnce_roundOnce (model : ChargeModel) (policy : RoundingPolicy) (x : ℚ)
    (h : policy = .halfUp → model.precision < 18 → ∀ half k :
      ℤ, (model.quantumAtoms : ℤ) = 2 * half → ¬ BelowTie half k x) :
    policy.roundOnce (policy.roundOnce x / model.quantumAtoms) =
      policy.roundOnce (x / model.quantumAtoms) := by
  have hpos : (0 : ℤ) < model.quantumAtoms := by exact_mod_cast quantumAtoms_pos model
  cases policy with
  | down => exact_mod_cast floor_floor_div x hpos
  | up => exact_mod_cast ceil_ceil_div x hpos
  | halfUp =>
    by_cases hp : model.precision < 18
    · obtain ⟨half, hhalf, hq⟩ := exists_half_quantum hp
      have hq' : (model.quantumAtoms : ℚ) = 2 * half := by exact_mod_cast hq
      rw [hq']
      exact round_round_div_of_not_belowTie hhalf fun k => h rfl hp half k hq
    · have hone : model.quantumAtoms = 1 := by
        rw [ChargeModel.quantumAtoms, Nat.sub_eq_zero_of_le (not_lt.1 hp), pow_zero]
      simp [hone, RoundingPolicy.roundOnce]

theorem exact_eq_roundedOnce_iff (hmodel : model.Validated) (double : ℤ)
    (hcharged : charged.atoms.val = max (double * model.quantumAtoms) model.minimum.atoms.val) :
    charged.exact = model.roundedOnce notional quantity.val ↔
      max (double * model.quantumAtoms) model.minimum.atoms.val =
        max
          (model.rounding.roundOnce
            (model.product notional quantity.val * Decimal.scaleFactor / model.quantumAtoms) *
          model.quantumAtoms) model.minimum.atoms.val := by
  have hscale : (0 : ℚ) < Decimal.scaleFactor := by norm_num [Decimal.scaleFactor]
  have hquantum : model.product notional quantity.val / (model.quantumAtoms / Decimal.scaleFactor) =
      model.product notional quantity.val * Decimal.scaleFactor / model.quantumAtoms := by
    field_simp
  rw [ChargeModel.roundedOnce, quantum_eq hmodel.precision, hquantum, Decimal.exact, Decimal.exact,
    ← mul_div_assoc,
    max_div_div_right hscale.le, div_left_inj' hscale.ne', hcharged,
    max_comm (model.minimum.atoms.val : ℚ)]
  exact_mod_cast Iff.rfl

theorem reachesTie_iff (hmodel : model.Validated) (hhalfUp : model.rounding = .halfUp)
    (hp : model.precision < 18) {half k : ℤ} (hhalf : (model.quantumAtoms : ℤ) = 2 * half)
    (hbelow : BelowTie half k (model.product notional quantity.val * Decimal.scaleFactor)) :
    model.ReachesTie notional quantity.val ↔
    model.minimum.atoms.val < (k + 1) * model.quantumAtoms := by
  have hpos := quantumAtoms_pos model
  have hscale : (0 : ℚ) < Decimal.scaleFactor := by norm_num [Decimal.scaleFactor]
  have hminimum (j : ℤ) :
      model.minimum.exact < (j + 1) * model.quantum ↔
      model.minimum.atoms.val < (j + 1) * model.quantumAtoms := by
    rw [quantum_eq hmodel.precision, Decimal.exact, ← mul_div_assoc,
      div_lt_div_iff_of_pos_right hscale]
    exact_mod_cast Iff.rfl
  obtain ⟨hlow, hhigh⟩ := (belowTie_iff hmodel hhalf _).1 hbelow
  constructor
  · rintro ⟨-, -, j, hlow', hhigh', hless⟩
    -- the single rounding gives both `j` and `k`
    have hsame : k = j := (round_round_div_of_belowTie (by omega) hbelow).2.symm.trans
      (round_round_div_of_belowTie (by omega) ((belowTie_iff hmodel hhalf _).2 ⟨hlow', hhigh'⟩)).2
    rw [hsame]
    exact (hminimum j).1 hless
  · intro hless
    exact ⟨hhalfUp, hp, k, hlow, hhigh, (hminimum k).2 hless⟩

/-- A charge is the exact product rounded once, unless the product lies just below a tie. -/
theorem charge_rounds_once_iff (notional : Decimal) (quantity : U64) (side : OrderSide)
    (model : ChargeModel) (charged : Decimal) (hmodel : model.Validated)
    (happlies : chargeApplies model.sides side = true)
    (h : charge notional quantity.val side model = .ok charged) :
    charged.exact = model.roundedOnce notional quantity.val ↔
    ¬ model.ReachesTie notional quantity.val := by
  have hpos : (0 : ℤ) < model.quantumAtoms := by exact_mod_cast quantumAtoms_pos model
  have hscale : (0 : ℚ) < Decimal.scaleFactor := by norm_num [Decimal.scaleFactor]
  rw [exact_eq_roundedOnce_iff hmodel _ (charge_rounds_twice hmodel happlies h)]
  by_cases htie : model.rounding = .halfUp ∧ model.precision < 18 ∧ ∃ half k : ℤ,
      (model.quantumAtoms : ℤ) = 2 * half ∧
      BelowTie half k (model.product notional quantity.val * Decimal.scaleFactor)
  · obtain ⟨hhalfUp, hp, half, k, hhalf, hbelow⟩ := htie
    have hq : (model.quantumAtoms : ℚ) = 2 * half := by exact_mod_cast hhalf
    obtain ⟨hdouble, hsingle⟩ := round_round_div_of_belowTie (by omega) hbelow
    rw [hhalfUp, RoundingPolicy.roundOnce, RoundingPolicy.roundOnce, RoundingPolicy.roundOnce, hq,
      hdouble, hsingle, reachesTie_iff hmodel hhalfUp hp hhalf hbelow, not_lt, add_mul, one_mul]
    omega
  · have hagree := roundOnce_roundOnce model model.rounding
      (model.product notional quantity.val * Decimal.scaleFactor)
      fun hhalfUp hp half k hhalf hbelow => htie ⟨hhalfUp, hp, half, k, hhalf, hbelow⟩
    rw [hagree, eq_self_iff_true, true_iff]
    rintro ⟨hhalfUp, hp, k, hlow, hhigh, -⟩
    obtain ⟨half, -, hhalf⟩ := exists_half_quantum hp
    exact htie ⟨hhalfUp, hp, half, k, hhalf, (belowTie_iff hmodel hhalf _).2 ⟨hlow, hhigh⟩⟩

/-- One half of the notional on both sides, rounded half up to whole units. -/
def tieCharge : ChargeModel :=
  ⟨.notionalRate, ⟨Signed.wrap 128 (5 * 10 ^ 17)⟩, .both, Decimal.zero, 0, .halfUp⟩

theorem tieCharge_validated : tieCharge.Validated := ⟨by decide, by decide, by decide⟩

theorem tieCharge_product (notional : Decimal) (quantity : ℕ) :
    tieCharge.product notional quantity = |notional.exact| * (1 / 2) := by
  have hrate : (Signed.wrap 128 (5 * 10 ^ 17) : I128).val = 5 * 10 ^ 17 := by decide
  simp only [ChargeModel.product, tieCharge, Decimal.exact, hrate]
  norm_num [Decimal.scaleFactor]

theorem tieCharge_quantum : tieCharge.quantum = 1 := by norm_num [ChargeModel.quantum, tieCharge]

/-- On an atom less than one unit the exact charge is below one half; the code charges one unit. -/
theorem charge_past_tie : ∃ (notional : Decimal) (quantity : U64) (side : OrderSide)
    (model : ChargeModel)
    (charged : Decimal), model.Validated ∧ chargeApplies model.sides side = true ∧
    charge notional quantity.val side model = .ok charged ∧
    charged.exact ≠ model.roundedOnce notional quantity.val := by
  refine ⟨⟨Signed.wrap 128 (10 ^ 18 - 1)⟩, Unsigned.wrap 64 1, .sell, tieCharge, ⟨scaleFactorAtoms⟩,
    tieCharge_validated, rfl, by decide +kernel, ?_⟩
  have hnotional : (Signed.wrap 128 (10 ^ 18 - 1) : I128).val = 10 ^ 18 - 1 := by decide
  have hround : round (|(Decimal.mk (Signed.wrap 128 (10 ^ 18 - 1))).exact| * (1 / 2)) = 0 := by
    rw [round_eq_zero_iff, Set.mem_Ico, Decimal.exact, hnotional]
    norm_num [Decimal.scaleFactor]
  rw [ChargeModel.roundedOnce, tieCharge_product, tieCharge_quantum, div_one]
  show _ ≠ max Decimal.zero.exact ((round _ : ℤ) * (1 : ℚ))
  rw [hround, exact_zero, Decimal.exact, scaleFactorAtoms_val]
  norm_num [Decimal.scaleFactor]

/-- On one unit the exact charge is the tie itself, which goes up. -/
theorem charge_on_tie : charge ⟨scaleFactorAtoms⟩ (Unsigned.wrap 64 1 : U64).val .sell tieCharge =
    .ok ⟨scaleFactorAtoms⟩ ∧
    (Decimal.mk scaleFactorAtoms).exact =
      tieCharge.roundedOnce ⟨scaleFactorAtoms⟩ (Unsigned.wrap 64 1 : U64).val := by
  have hcharge : charge ⟨scaleFactorAtoms⟩ (Unsigned.wrap 64 1 : U64).val .sell tieCharge =
      .ok ⟨scaleFactorAtoms⟩ := by
    decide +kernel
  refine ⟨hcharge, (charge_rounds_once_iff _ _ _ _ _ tieCharge_validated rfl hcharge).2 ?_⟩
  rintro ⟨-, -, k, hlow, hhigh, -⟩
  rw [tieCharge_quantum, tieCharge_product, Decimal.exact, scaleFactorAtoms_val, Int.cast_natCast,
    div_self (by norm_num [Decimal.scaleFactor]), abs_one] at hlow hhigh
  have hk : (0 : ℚ) < k := by linarith
  have hk' : (1 : ℚ) ≤ k := by exact_mod_cast hk
  norm_num at hlow
  linarith

end Charge

end Osmium
