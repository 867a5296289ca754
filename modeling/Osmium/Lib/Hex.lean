import Osmium.Lib.Order

/-! Bytes as text in base sixteen, read back with or without capital letters. -/

namespace Hex
open Bytes

def digit (n : UInt8) : UInt8 := if n < 10 then 48 + n else 87 + n

/-- Two digits for each byte, in small letters. -/
def encode (bytes : List UInt8) : List UInt8 :=
  bytes.flatMap fun byte : UInt8 => [digit (byte >>> 4), digit (byte &&& 15)]

def nibble (capitals : Bool) (value : UInt8) : Option UInt8 :=
  if 48 ≤ value && value ≤ 57 then some (value - 48)
  else if 97 ≤ value && value ≤ 102 then some (value - 97 + 10)
  else if capitals && 65 ≤ value && value ≤ 70 then some (value - 65 + 10)
  else none

def decode (capitals : Bool) : List UInt8 → Option (List UInt8)
  | [] => some []
  | [_] => none
  | high :: low :: rest => do
    let high ← nibble capitals high
    let low ← nibble capitals low
    let rest ← decode capitals rest
    return (high <<< 4 ||| low) :: rest

/-- A digest written in 64 digits. -/
def decode32 (capitals : Bool) (value : List UInt8) : Option Digest :=
  if value.length = 64 then
    match decode capitals value with
    | some bytes => if size : bytes.length = 32 then some ⟨bytes, size⟩ else none
    | none => none
  else none

theorem forall_byte {P : UInt8 → Prop} (h : ∀ n < 256, P (UInt8.ofNat n)) (byte : UInt8) :
    P byte := by
  have hbyte := h byte.toNat byte.toNat_lt
  rwa [UInt8.ofNat_toNat] at hbyte

theorem nibble_high (capitals : Bool) (byte : UInt8) :
    nibble capitals (digit (byte >>> 4)) = some (byte >>> 4) := by
  refine forall_byte
    (P := fun byte => nibble capitals (digit (byte >>> 4)) = some (byte >>> 4)) ?_ byte
  cases capitals <;> decide +kernel

theorem nibble_low (capitals : Bool) (byte : UInt8) :
    nibble capitals (digit (byte &&& 15)) = some (byte &&& 15) := by
  refine forall_byte
    (P := fun byte => nibble capitals (digit (byte &&& 15)) = some (byte &&& 15)) ?_ byte
  cases capitals <;> decide +kernel

theorem join_nibbles (byte : UInt8) : (byte >>> 4) <<< 4 ||| (byte &&& 15) = byte := by
  refine forall_byte (P := fun byte => (byte >>> 4) <<< 4 ||| (byte &&& 15) = byte) ?_ byte
  decide +kernel

theorem decode_encode (capitals : Bool) (bytes : List UInt8) :
    decode capitals (encode bytes) = some bytes := by
  induction bytes with
  | nil => rfl
  | cons byte bytes ih =>
    rw [encode, List.flatMap_cons, ← encode]
    simp only [List.cons_append, List.nil_append, decode, nibble_high, nibble_low, ih, bind,
      Option.bind, pure, join_nibbles]

theorem length_encode (bytes : List UInt8) : (encode bytes).length = 2 * bytes.length := by
  induction bytes with
  | nil => rfl
  | cons byte bytes ih =>
    rw [encode, List.flatMap_cons, ← encode, List.length_append, ih, List.length_cons]
    simp only [List.length_cons, List.length_nil]
    omega

theorem decode32_encode (capitals : Bool) (digest : Digest) :
    decode32 capitals (encode digest.bytes) = some digest := by
  have hlength : (encode digest.bytes).length = 64 := by rw [length_encode, digest.size]
  rw [decode32, if_pos hlength, decode_encode]
  simp only [digest.size, dif_pos]

theorem digit_ascii (n : UInt8) (h : n < 16) : digit n ≤ 0x7F := by
  revert h
  refine forall_byte (P := fun n => n < 16 → digit n ≤ 0x7F) ?_ n
  decide +kernel

theorem isUtf8_ascii {byte : UInt8} (h : byte ≤ 0x7F) (rest : List UInt8) :
    isUtf8 (byte :: rest) = isUtf8 rest := by
  conv_lhs => rw [isUtf8.eq_def]
  exact if_pos h

theorem isUtf8_of_ascii {bytes : List UInt8} (h : ∀ byte ∈ bytes, byte ≤ 0x7F) :
    isUtf8 bytes = true := by
  induction bytes with
  | nil => rfl
  | cons byte bytes ih =>
    rw [isUtf8_ascii (h byte List.mem_cons_self)]
    exact ih fun other hother => h other (List.mem_cons_of_mem byte hother)

theorem isUtf8_encode (bytes : List UInt8) : isUtf8 (encode bytes) = true := by
  induction bytes with
  | nil => rfl
  | cons byte bytes ih =>
    have hhigh : byte >>> 4 < 16 :=
      forall_byte (P := fun byte => byte >>> 4 < 16) (by decide +kernel) byte
    have hlow : byte &&& 15 < 16 :=
      forall_byte (P := fun byte => byte &&& 15 < 16) (by decide +kernel) byte
    rw [encode, List.flatMap_cons, ← encode, List.cons_append, isUtf8_ascii (digit_ascii _ hhigh),
      List.cons_append, isUtf8_ascii (digit_ascii _ hlow)]
    exact ih

def text (bytes : List UInt8) : Text := ⟨encode bytes, isUtf8_encode bytes⟩

theorem decode32_text (capitals : Bool) (digest : Digest) :
    decode32 capitals (text digest.bytes).bytes = some digest :=
  decode32_encode capitals digest

theorem encode_injective : Function.Injective encode := by
  intro a b h
  have hdecode := congrArg (decode false) h
  rw [decode_encode, decode_encode] at hdecode
  exact Option.some.inj hdecode

end Hex
