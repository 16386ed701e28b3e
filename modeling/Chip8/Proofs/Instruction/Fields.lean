import Chip8.Instruction.Encoding

/-!
# The fields of instruction words

Instructions are laid out in the fields that decoding reads. So a word that means something is
the word of its instruction, and what a word does can be told by its fields.
-/

namespace Chip8

namespace Word

variable {f c : Nat}

theorem fields_ofNibbles (hf : f < 16) (a b : Fin 16) (hc : c < 16) :
    (ofNibbles f a b c).family.val = f ∧ (ofNibbles f a b c).x = a ∧
      (ofNibbles f a b c).y = b ∧ (ofNibbles f a b c).nibble.val = c := by
  have value := toNat_ofNibbles hf a.isLt b.isLt hc
  simp only [family, x, y, nibble, Fin.ext_iff, value]
  omega

@[simp] theorem family_ofNibbles (hf : f < 16) (a b : Fin 16) (hc : c < 16) :
    (ofNibbles f a b c).family.val = f :=
  (fields_ofNibbles hf a b hc).1

@[simp] theorem x_ofNibbles (hf : f < 16) (a b : Fin 16) (hc : c < 16) :
    (ofNibbles f a b c).x = a :=
  (fields_ofNibbles hf a b hc).2.1

@[simp] theorem y_ofNibbles (hf : f < 16) (a b : Fin 16) (hc : c < 16) :
    (ofNibbles f a b c).y = b :=
  (fields_ofNibbles hf a b hc).2.2.1

@[simp] theorem nibble_ofNibbles (hf : f < 16) (a b : Fin 16) (hc : c < 16) :
    (ofNibbles f a b c).nibble.val = c :=
  (fields_ofNibbles hf a b hc).2.2.2

end Word

namespace Instruction

open Word

section Parts

variable {f : Nat} (hf : f < 16)
include hf

theorem fields_withAddr (a : Fin 4096) :
    (withAddr f a).family.val = f ∧ (withAddr f a).addr = a := by
  simp only [withAddr, family, addr, Fin.ext_iff, UInt16.toNat_ofNat']
  omega

@[simp] theorem family_withAddr (a : Fin 4096) : (withAddr f a).family.val = f :=
  (fields_withAddr hf a).1

@[simp] theorem addr_withAddr (a : Fin 4096) : (withAddr f a).addr = a :=
  (fields_withAddr hf a).2

theorem fields_withByte (a : Fin 16) (b : UInt8) :
    (withByte f a b).family.val = f ∧ (withByte f a b).x = a ∧ (withByte f a b).byte = b := by
  have small := b.toNat_lt
  simp only [withByte, family, x, Fin.ext_iff, ← UInt8.toNat_inj, toNat_byte,
    UInt16.toNat_ofNat']
  omega

@[simp] theorem family_withByte (a : Fin 16) (b : UInt8) : (withByte f a b).family.val = f :=
  (fields_withByte hf a b).1

@[simp] theorem x_withByte (a : Fin 16) (b : UInt8) : (withByte f a b).x = a :=
  (fields_withByte hf a b).2.1

@[simp] theorem byte_withByte (a : Fin 16) (b : UInt8) : (withByte f a b).byte = b :=
  (fields_withByte hf a b).2.2

end Parts

section Whole

variable {w : Word} {f : Nat} (family : w.family.val = f)
include family

/-- A word is its family with its address. -/
theorem withAddr_addr : withAddr f w.addr = w := by
  have bound := w.toNat_lt
  simp only [Word.family] at family
  simp only [withAddr, ← UInt16.toNat_inj, UInt16.toNat_ofNat', addr]
  omega

/-- A word is its family with its first register and its byte. -/
theorem withByte_byte : withByte f w.x w.byte = w := by
  have bound := w.toNat_lt
  simp only [Word.family] at family
  simp only [withByte, ← UInt16.toNat_inj, UInt16.toNat_ofNat', x, toNat_byte]
  omega

theorem withByte_of_byte {b : UInt8} (byte : w.byte.toNat = b.toNat) :
    withByte f w.x b = w := by
  rw [← UInt8.toNat_inj.1 byte]
  exact withByte_byte family

/-- A word is its family with its two registers and its last nibble. -/
theorem ofNibbles_of_nibble {n : Nat} (nibble : w.nibble.val = n) :
    Word.ofNibbles f w.x w.y n = w := by
  rw [← family, ← nibble]
  exact ofNibbles_nibbles w

end Whole

/-- An arithmetic word that means something is the word of its instruction. -/
theorem encode_decodeArithmetic {w : Word} (family : w.family.val = 0x8)
    (means : decodeArithmetic w.x w.y w.nibble ≠ .noop) :
    encode (decodeArithmetic w.x w.y w.nibble) = w := by
  unfold decodeArithmetic at means ⊢
  split at means
  case h_10 => exact absurd rfl means
  all_goals
    next nibble => exact ofNibbles_of_nibble family nibble

/-- A word about keys that means something is the word of its instruction. -/
theorem encode_decodeKey {w : Word} (family : w.family.val = 0xE)
    (means : decodeKey w.x w.byte.toNat ≠ .noop) : encode (decodeKey w.x w.byte.toNat) = w := by
  unfold decodeKey at means ⊢
  split at means
  case h_3 => exact absurd rfl means
  all_goals
    next byte => exact withByte_of_byte family byte

/-- A transferring word that means something is the word of its instruction. -/
theorem encode_decodeTransfer {w : Word} (family : w.family.val = 0xF)
    (means : decodeTransfer w.x w.byte.toNat ≠ .noop) :
    encode (decodeTransfer w.x w.byte.toNat) = w := by
  unfold decodeTransfer at means ⊢
  split at means
  case h_10 => exact absurd rfl means
  all_goals
    next byte => exact withByte_of_byte family byte

/-- A word that means something is the word of its instruction. -/
theorem encode_decode {w : Word} (means : decode w ≠ .noop) : encode (decode w) = w := by
  unfold decode at means ⊢
  split at means
  case h_1 =>
    split at means
    case h_3 => exact absurd rfl means
    all_goals
      next code => exact (UInt16.toNat_inj.1 code).symm
  case h_2 family | h_3 family | h_11 family | h_12 family => exact withAddr_addr family
  case h_4 family | h_5 family | h_7 family | h_8 family | h_13 family =>
    exact withByte_byte family
  case h_6 family | h_10 family =>
    split at means
    case isTrue nibble =>
      rw [if_pos nibble]
      exact ofNibbles_of_nibble family nibble
    case isFalse => exact absurd rfl means
  case h_9 family => exact encode_decodeArithmetic family means
  case h_14 family => exact ofNibbles_of_nibble family rfl
  case h_15 family => exact encode_decodeKey family means
  case h_16 =>
    -- the families that are left out leave only the last one
    have last : w.family.val = 0xF := by grind
    exact encode_decodeTransfer last means

/-- A word is the word of its instruction, if that is known and does something. -/
theorem eq_encode_of_decode {w : Word} {op : Opcode} (meaning : decode w = op)
    (means : op ≠ .noop) : w = encode op := by
  subst meaning
  exact (encode_decode means).symm

end Instruction

end Chip8
