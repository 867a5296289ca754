import Mathlib.Tactic

/-! Fixed-width machine integers. A value carries the proof that it is in range, so a sum that
does not fit cannot be built: the checked operations answer `none` instead. Every lemma about a
checked operation reads the mathematical value back through `val`. -/

namespace Machine

@[ext] structure Unsigned (w : ℕ) where
  val : ℕ
  lt : val < 2 ^ w
deriving DecidableEq

/-- Two's complement: the bounds are `-2 ^ (w - 1)` and `2 ^ (w - 1)`. -/
@[ext] structure Signed (w : ℕ) where
  val : ℤ
  lower : -(2 ^ (w - 1) : ℕ) ≤ val
  upper : val < (2 ^ (w - 1) : ℕ)
deriving DecidableEq

abbrev U16 := Unsigned 16
abbrev U32 := Unsigned 32
abbrev U64 := Unsigned 64
abbrev I32 := Signed 32
abbrev I64 := Signed 64
abbrev I128 := Signed 128

section Unsigned
variable {w : ℕ}

theorem Unsigned.val_injective : Function.Injective (Unsigned.val (w := w)) :=
  fun _ _ h => Unsigned.ext h

instance : LinearOrder (Unsigned w) := LinearOrder.lift' Unsigned.val Unsigned.val_injective

def Unsigned.ofNat? (w n : ℕ) : Option (Unsigned w) := if h : n < 2 ^ w then some ⟨n, h⟩ else none

/-- The value modulo `2 ^ w`, as a wrapping conversion computes it. -/
def Unsigned.wrap (w n : ℕ) : Unsigned w := ⟨n % 2 ^ w, Nat.mod_lt _ (Nat.two_pow_pos w)⟩

instance : Zero (Unsigned w) := ⟨⟨0, Nat.two_pow_pos w⟩⟩

def Unsigned.checkedAdd (a b : Unsigned w) : Option (Unsigned w) :=
  Unsigned.ofNat? w (a.val + b.val)

def Unsigned.checkedSub (a b : Unsigned w) : Option (Unsigned w) :=
  if b.val ≤ a.val then Unsigned.ofNat? w (a.val - b.val) else none

def Unsigned.checkedMul (a b : Unsigned w) : Option (Unsigned w) :=
  Unsigned.ofNat? w (a.val * b.val)

/-- Subtraction kept to `w` bits. It is irreducible because unification would count out the `2 ^ w`
in it. -/
@[irreducible] def Unsigned.wrappingSub (a b : Unsigned w) : Unsigned w :=
  Unsigned.wrap w (a.val + 2 ^ w - b.val)

theorem Unsigned.ofNat?_eq_some (n : ℕ) (c : Unsigned w) : Unsigned.ofNat? w n = some c ↔
    c.val = n := by
  unfold Unsigned.ofNat?
  split_ifs with h
  · rw [Option.some_inj]
    exact ⟨fun hc => hc ▸ rfl, fun hc => Unsigned.ext hc.symm⟩
  · simp only [false_iff]
    exact fun hc => h (hc ▸ c.lt)

theorem Unsigned.checkedAdd_eq_some (a b c : Unsigned w) : a.checkedAdd b = some c ↔
    c.val = a.val + b.val :=
  Unsigned.ofNat?_eq_some _ _

theorem Unsigned.checkedMul_eq_some (a b c : Unsigned w) : a.checkedMul b = some c ↔
    c.val = a.val * b.val :=
  Unsigned.ofNat?_eq_some _ _

theorem Unsigned.checkedSub_eq_some (a b c : Unsigned w) :
    a.checkedSub b = some c ↔ b.val + c.val = a.val := by
  unfold Unsigned.checkedSub
  split_ifs with h
  · rw [Unsigned.ofNat?_eq_some]; omega
  · simp only [false_iff]; omega

@[simp] theorem Unsigned.val_zero : (0 : Unsigned w).val = 0 := rfl

theorem Unsigned.le_iff (a b : Unsigned w) : a ≤ b ↔ a.val ≤ b.val := Iff.rfl

theorem Unsigned.lt_iff (a b : Unsigned w) : a < b ↔ a.val < b.val := Iff.rfl

theorem Unsigned.val_wrappingSub (a b : Unsigned w) (h : b.val ≤ a.val) :
    (a.wrappingSub b).val = a.val - b.val := by
  have ha := a.lt
  have hsplit : a.val + 2 ^ w - b.val = a.val - b.val + 2 ^ w := by omega
  simp only [Unsigned.wrappingSub, Unsigned.wrap, hsplit, Nat.add_mod_right]
  exact Nat.mod_eq_of_lt (by omega)

theorem Unsigned.val_wrap {n : ℕ} (h : n < 2 ^ w) : (Unsigned.wrap w n).val = n :=
  Nat.mod_eq_of_lt h

theorem Unsigned.one_fits : 1 < 2 ^ 16 := by decide

theorem Unsigned.two_fits : 2 < 2 ^ 16 := by decide

theorem Unsigned.three_fits : 3 < 2 ^ 16 := by decide

theorem Unsigned.wrap_val (a : Unsigned w) : Unsigned.wrap w a.val = a :=
  Unsigned.ext (Nat.mod_eq_of_lt a.lt)

end Unsigned

section Signed
variable {w : ℕ}

theorem Signed.val_injective : Function.Injective (Signed.val (w := w)) := fun _ _ h => Signed.ext h

instance : LinearOrder (Signed w) := LinearOrder.lift' Signed.val Signed.val_injective

def Signed.ofInt? (w : ℕ) (z : ℤ) : Option (Signed w) :=
  if h : -(2 ^ (w - 1) : ℕ) ≤ z ∧ z < (2 ^ (w - 1) : ℕ) then some ⟨z, h.1, h.2⟩ else none

theorem bmod_two_pow_bounds (w : ℕ) (z : ℤ) :
    -(2 ^ (w - 1) : ℕ) ≤ Int.bmod z (2 ^ w) ∧ Int.bmod z (2 ^ w) < (2 ^ (w - 1) : ℕ) := by
  cases w with
  | zero => simp [Int.bmod_one]
  | succ w =>
    have hpos : 0 < 2 ^ (w + 1) := Nat.two_pow_pos _
    have hlo := Int.le_bmod (x := z) hpos
    have hhi := Int.bmod_lt (x := z) hpos
    have hpow : 2 ^ (w + 1) = 2 * 2 ^ w := by rw [Nat.pow_succ, Nat.mul_comm]
    simp only [Nat.add_sub_cancel]
    omega

/-- The balanced residue modulo `2 ^ w`: what two's complement arithmetic keeps of `z`. -/
def Signed.wrap (w : ℕ) (z : ℤ) : Signed w :=
  ⟨Int.bmod z (2 ^ w), (bmod_two_pow_bounds w z).1, (bmod_two_pow_bounds w z).2⟩

instance : Zero (Signed w) := ⟨⟨0, by simp, by simp⟩⟩

def Signed.checkedAdd (a b : Signed w) : Option (Signed w) := Signed.ofInt? w (a.val + b.val)

def Signed.checkedSub (a b : Signed w) : Option (Signed w) := Signed.ofInt? w (a.val - b.val)

def Signed.checkedMul (a b : Signed w) : Option (Signed w) := Signed.ofInt? w (a.val * b.val)

def Signed.checkedNeg (a : Signed w) : Option (Signed w) := Signed.ofInt? w (-a.val)

def Signed.checkedAbs (a : Signed w) : Option (Signed w) := Signed.ofInt? w |a.val|

/-- Truncating division, kept to `w` bits: the only quotient out of range is that of the least value
by minus one. -/
def Signed.quot (a b : Signed w) : Signed w := Signed.wrap w (a.val.tdiv b.val)

def Signed.rem (a b : Signed w) : Signed w := Signed.wrap w (a.val.tmod b.val)

/-- The magnitude, cast back to the signed type. -/
def Signed.abs (a : Signed w) : Signed w := Signed.wrap w |a.val|

def Signed.wrappingMul (a b : Signed w) : Signed w := Signed.wrap w (a.val * b.val)

/-- A widening conversion from an unsigned type. -/
def Signed.ofUnsigned {m : ℕ} (w : ℕ) (a : Unsigned m) (h : m ≤ w - 1 := by decide) : Signed w :=
  ⟨a.val, by have := Nat.two_pow_pos (w - 1); omega, by
    have := a.lt
    have hle : 2 ^ m ≤ 2 ^ (w - 1) := Nat.pow_le_pow_right (by norm_num) h
    omega⟩

theorem Signed.ofInt?_eq_some (z : ℤ) (c : Signed w) : Signed.ofInt? w z = some c ↔ c.val = z := by
  unfold Signed.ofInt?
  split_ifs with h
  · rw [Option.some_inj]
    exact ⟨fun hc => hc ▸ rfl, fun hc => Signed.ext hc.symm⟩
  · simp only [false_iff]
    exact fun hc => h (hc ▸ ⟨c.lower, c.upper⟩)

theorem Signed.checkedAdd_eq_some (a b c : Signed w) : a.checkedAdd b = some c ↔
    c.val = a.val + b.val :=
  Signed.ofInt?_eq_some _ _

theorem Signed.checkedSub_eq_some (a b c : Signed w) : a.checkedSub b = some c ↔
    c.val = a.val - b.val :=
  Signed.ofInt?_eq_some _ _

theorem Signed.checkedMul_eq_some (a b c : Signed w) : a.checkedMul b = some c ↔
    c.val = a.val * b.val :=
  Signed.ofInt?_eq_some _ _

theorem Signed.checkedNeg_eq_some (a c : Signed w) : a.checkedNeg = some c ↔ c.val = -a.val :=
  Signed.ofInt?_eq_some _ _

theorem Signed.checkedAbs_eq_some (a c : Signed w) : a.checkedAbs = some c ↔ c.val = |a.val| :=
  Signed.ofInt?_eq_some _ _

@[simp] theorem Signed.val_zero : (0 : Signed w).val = 0 := rfl

theorem Signed.wrap_val_of_mem (z : ℤ) (hw : 0 < w) (hlo : -(2 ^ (w - 1) : ℕ) ≤ z)
    (hhi : z < (2 ^ (w - 1) : ℕ)) :
    (Signed.wrap w z).val = z := by
  have hpow : 2 ^ w = 2 * 2 ^ (w - 1) := by
    rw [← Nat.pow_succ', Nat.succ_eq_add_one, Nat.sub_add_cancel hw]
  apply Int.bmod_eq_of_le <;> rw [hpow] <;> omega

theorem Signed.val_quot (a b : Signed w) (hw : 0 < w) (hb : 0 < b.val) :
    (a.quot b).val = a.val.tdiv b.val := by
  have hle : (a.val.tdiv b.val).natAbs ≤ a.val.natAbs := by
    rw [Int.natAbs_tdiv]; exact Nat.div_le_self _ _
  have hlo := a.lower
  have hhi := a.upper
  have hsign : 0 ≤ a.val → 0 ≤ a.val.tdiv b.val := fun h => Int.tdiv_nonneg h hb.le
  apply Signed.wrap_val_of_mem _ hw
  · omega
  · by_cases h : 0 ≤ a.val
    · have := hsign h; omega
    · have : 0 ≤ (-a.val).tdiv b.val := Int.tdiv_nonneg (by omega) hb.le
      rw [Int.neg_tdiv] at this
      have := Nat.two_pow_pos (w - 1)
      omega

theorem Signed.val_rem (a b : Signed w) (hw : 0 < w) : (a.rem b).val = a.val.tmod b.val := by
  have hle : (a.val.tmod b.val).natAbs ≤ a.val.natAbs := by
    rw [Int.natAbs_tmod]; exact Nat.mod_le _ _
  have hlo := a.lower
  have hhi := a.upper
  apply Signed.wrap_val_of_mem _ hw
  · omega
  · by_cases h : 0 ≤ a.val
    · have := Int.tmod_nonneg b.val h; omega
    · have : 0 ≤ (-a.val).tmod b.val := Int.tmod_nonneg b.val (by omega)
      rw [Int.neg_tmod] at this
      have := Nat.two_pow_pos (w - 1)
      omega

theorem Signed.val_abs (a : Signed w) (hw : 0 < w) (h : a.val ≠ -(2 ^ (w - 1) : ℕ)) :
    a.abs.val = |a.val| := by
  have hlo := a.lower
  have hhi := a.upper
  apply Signed.wrap_val_of_mem _ hw
  · have := abs_nonneg a.val
    have := Nat.two_pow_pos (w - 1)
    omega
  · rw [abs_lt]
    omega

@[simp] theorem Signed.val_ofUnsigned {m : ℕ} (a : Unsigned m) (h : m ≤ w - 1) :
    (Signed.ofUnsigned w a h).val = a.val := rfl

theorem Signed.le_iff (a b : Signed w) : a ≤ b ↔ a.val ≤ b.val := Iff.rfl

theorem Signed.lt_iff (a b : Signed w) : a < b ↔ a.val < b.val := Iff.rfl

end Signed

end Machine
