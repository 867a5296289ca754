import Osmium.Lib.Machine

/-! Big-endian byte strings of fixed width, for naturals and for two's complement integers, and
well-formed UTF-8 text. -/

namespace Bytes
open Machine

/-- The `k` big-endian bytes of `n`; bits above `8 * k` are dropped. -/
def toBE : ℕ → ℕ → List UInt8
  | 0, _ => []
  | k + 1, n => toBE k (n / 256) ++ [UInt8.ofNat (n % 256)]

def ofBE (l : List UInt8) : ℕ := l.foldl (fun acc b => acc * 256 + b.toNat) 0

@[simp] theorem length_toBE (k n : ℕ) : (toBE k n).length = k := by
  induction k generalizing n with
  | zero => rfl
  | succ k ih => simp [toBE, ih]

theorem ofBE_snoc (l : List UInt8) (b : UInt8) : ofBE (l ++ [b]) = ofBE l * 256 + b.toNat := by
  simp [ofBE, List.foldl_append]

theorem ofBE_lt (l : List UInt8) : ofBE l < 256 ^ l.length := by
  induction l using List.reverseRecOn with
  | nil => simp [ofBE]
  | append_singleton l b ih =>
    have hb : b.toNat < 256 := b.toNat_lt
    rw [ofBE_snoc, List.length_append, List.length_singleton, pow_succ]
    omega

theorem ofBE_toBE (k n : ℕ) (h : n < 256 ^ k) : ofBE (toBE k n) = n := by
  induction k generalizing n with
  | zero =>
    have : n = 0 := by simpa using h
    subst this; rfl
  | succ k ih =>
    have hdiv : n / 256 < 256 ^ k := by
      rw [Nat.div_lt_iff_lt_mul (by norm_num), ← pow_succ]; exact h
    have hmod : (UInt8.ofNat (n % 256)).toNat = n % 256 := by
      rw [UInt8.toNat_ofNat']; exact Nat.mod_eq_of_lt (Nat.mod_lt n (by norm_num))
    rw [toBE, ofBE_snoc, ih _ hdiv, hmod]
    omega

theorem toBE_ofBE (l : List UInt8) : toBE l.length (ofBE l) = l := by
  induction l using List.reverseRecOn with
  | nil => rfl
  | append_singleton l b ih =>
    have hb : b.toNat < 256 := b.toNat_lt
    have hdiv : (ofBE l * 256 + b.toNat) / 256 = ofBE l := by omega
    have hmod : (ofBE l * 256 + b.toNat) % 256 = b.toNat := by omega
    rw [ofBE_snoc, List.length_append, List.length_singleton, toBE, hdiv, hmod, ih,
      UInt8.ofNat_toNat]

section Fixed
variable {w : ℕ}

/-- `to_be_bytes` of an unsigned value in `k` bytes. -/
def ofUnsigned (k : ℕ) (a : Unsigned w) : List UInt8 := toBE k a.val

def toUnsigned (w : ℕ) (l : List UInt8) : Unsigned w := Unsigned.wrap w (ofBE l)

/-- `to_be_bytes` of a two's complement value: the residue modulo `2 ^ w`. -/
def ofSigned (k : ℕ) (a : Signed w) : List UInt8 := toBE k (a.val % (2 ^ w : ℕ)).toNat

def toSigned (w : ℕ) (l : List UInt8) : Signed w := Signed.wrap w (ofBE l)

theorem length_ofUnsigned (k : ℕ) (a : Unsigned w) : (ofUnsigned k a).length = k := length_toBE _ _

theorem length_ofSigned (k : ℕ) (a : Signed w) : (ofSigned k a).length = k := length_toBE _ _

theorem toUnsigned_ofUnsigned (k : ℕ) (hk : 256 ^ k = 2 ^ w) (a : Unsigned w) :
    toUnsigned w (ofUnsigned k a) = a := by
  unfold toUnsigned ofUnsigned
  rw [ofBE_toBE k _ (hk ▸ a.lt), Unsigned.wrap_val]

theorem ofUnsigned_toUnsigned (l : List UInt8) (hl : 256 ^ l.length = 2 ^ w) :
    ofUnsigned l.length (toUnsigned w l) = l := by
  have hlt : ofBE l < 2 ^ w := hl ▸ ofBE_lt l
  simp only [ofUnsigned, toUnsigned, Unsigned.wrap, Nat.mod_eq_of_lt hlt, toBE_ofBE]

theorem toSigned_ofSigned (k : ℕ) (hw : 0 < w) (hk : 256 ^ k = 2 ^ w) (a : Signed w) :
    toSigned w (ofSigned k a) = a := by
  have hpos : (0 : ℤ) < (2 ^ w : ℕ) := by exact_mod_cast Nat.two_pow_pos w
  have hnn : 0 ≤ a.val % (2 ^ w : ℕ) := Int.emod_nonneg _ hpos.ne'
  have hlt : (a.val % (2 ^ w : ℕ)).toNat < 256 ^ k := by
    rw [hk]; have := Int.emod_lt_of_pos a.val hpos; omega
  apply Signed.ext
  unfold toSigned ofSigned Signed.wrap
  rw [ofBE_toBE k _ hlt]
  simp only [Int.toNat_of_nonneg hnn, Int.emod_bmod]
  -- the value is already balanced, so the residue is the value itself
  have hpow : 2 ^ w = 2 * 2 ^ (w - 1) := by
    rw [← Nat.pow_succ', Nat.succ_eq_add_one, Nat.sub_add_cancel hw]
  have hlo := a.lower
  have hhi := a.upper
  apply Int.bmod_eq_of_le <;> rw [hpow] <;> omega

theorem ofSigned_toSigned (l : List UInt8) (hl : 256 ^ l.length = 2 ^ w) :
    ofSigned l.length (toSigned w l) = l := by
  have hlt : ofBE l < 2 ^ w := hl ▸ ofBE_lt l
  have hval : ((toSigned w l).val % (2 ^ w : ℕ)).toNat = ofBE l := by
    simp only [toSigned, Signed.wrap]
    rw [Int.bmod_emod, Int.emod_eq_of_lt (by positivity) (by exact_mod_cast hlt), Int.toNat_natCast]
  rw [ofSigned, hval, toBE_ofBE]

end Fixed

/-! UTF-8 as the Unicode standard's table of well-formed byte sequences has it: no overlong form,
no surrogate, nothing above U+10FFFF. -/

def continuation (b : UInt8) : Bool := 0x80 ≤ b && b ≤ 0xBF

/-- The second bytes that the leading bytes of a three-byte sequence admit. -/
def secondOfThree (a b : UInt8) : Bool :=
  if a == 0xE0 then 0xA0 ≤ b && b ≤ 0xBF
  else if a == 0xED then 0x80 ≤ b && b ≤ 0x9F
  else 0xE1 ≤ a && a ≤ 0xEF && continuation b

def secondOfFour (a b : UInt8) : Bool :=
  if a == 0xF0 then 0x90 ≤ b && b ≤ 0xBF
  else if a == 0xF4 then 0x80 ≤ b && b ≤ 0x8F
  else 0xF1 ≤ a && a ≤ 0xF3 && continuation b

def isUtf8 : List UInt8 → Bool
  | [] => true
  | a :: rest =>
    if a ≤ 0x7F then isUtf8 rest
    else match rest with
      | [] => false
      | b :: rest =>
        if 0xC2 ≤ a && a ≤ 0xDF then continuation b && isUtf8 rest
        else match rest with
          | [] => false
          | c :: rest =>
            if secondOfThree a b then continuation c && isUtf8 rest
            else match rest with
              | [] => false
              | d :: rest => secondOfFour a b && continuation c && continuation d && isUtf8 rest

/-- A byte string that is well-formed UTF-8. -/
@[ext] structure Text where
  bytes : List UInt8
  utf8 : isUtf8 bytes = true
deriving DecidableEq

def Text.isEmpty (t : Text) : Bool := t.bytes.isEmpty

/-- The three-byte encodings of Unicode white space. -/
def whitespaceOfThree (a b c : UInt8) : Bool :=
  (a == 0xE1 && b == 0x9A && c == 0x80) ||
  (a == 0xE2 && b == 0x80 && ((0x80 ≤ c && c ≤ 0x8A) || c == 0xA8 || c == 0xA9 || c == 0xAF)) ||
  (a == 0xE2 && b == 0x81 && c == 0x9F) ||
  (a == 0xE3 && b == 0x80 && c == 0x80)

/-- Nothing but white space: what trimming leaves is empty. -/
def isBlank : List UInt8 → Bool
  | [] => true
  | a :: rest =>
    if (0x09 ≤ a && a ≤ 0x0D) || a == 0x20 then isBlank rest
    else match rest with
      | [] => false
      | b :: rest =>
        if a == 0xC2 && (b == 0x85 || b == 0xA0) then isBlank rest
        else match rest with
          | [] => false
          | c :: rest => whitespaceOfThree a b c && isBlank rest

def Text.isBlank (t : Text) : Bool := Bytes.isBlank t.bytes

/-- A 256-bit hash value. -/
@[ext] structure Digest where
  bytes : List UInt8
  size : bytes.length = 32
deriving DecidableEq

end Bytes
