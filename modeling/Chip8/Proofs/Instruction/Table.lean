import Chip8.Proofs.Instruction.Fields
import Mathlib.Data.List.Forall2

/-!
# The table of instructions

The table has one row for each kind of instruction that does something: four places, each with a
digit or with a letter that stands for a digit of an operand. Decoding accepts exactly the words
that fit a row, and reads the operands under the letters, so nothing of such a word is lost.
-/

namespace Chip8

/-- What stands in one place of a row: a digit, or a letter for a digit of an operand. -/
inductive Mark where
  | digit (d : Nat)
  /-- A digit of an address, or the digit of a row count. -/
  | n
  /-- The first register. -/
  | x
  /-- The second register. -/
  | y
  /-- A digit of a byte. -/
  | k
deriving DecidableEq, Repr

namespace Mark

instance (d : Nat) : OfNat Mark d := ⟨digit d⟩

/-- Whether a digit of a word may stand in a place. -/
def Admits (d : Fin 16) : Mark → Prop
  | digit e => d.val = e
  | _ => True

@[simp] theorem admits_letter (d : Fin 16) :
    n.Admits d ∧ x.Admits d ∧ y.Admits d ∧ k.Admits d :=
  ⟨trivial, trivial, trivial, trivial⟩

@[simp] theorem admits_ofNat (d : Fin 16) (e : Nat) :
    Admits d (no_index (OfNat.ofNat e)) ↔ d.val = e := Iff.rfl

end Mark

/-- Whether the digits of a word may stand in the places of a row. -/
def Word.Fits (w : Word) (row : List Mark) : Prop :=
  List.Forall₂ (fun mark d => mark.Admits d) row w.nibbles

/-- The number whose digits stand under a letter of a row, the high digit first. -/
def Word.under (w : Word) (row : List Mark) (letter : Mark) : Nat :=
  ((row.zip w.nibbles).filter fun p => p.1 = letter).foldl (fun m p => 16 * m + p.2.val) 0

namespace Word

theorem fits_iff (w : Word) (a b c d : Mark) :
    w.Fits [a, b, c, d] ↔
      a.Admits w.family ∧ b.Admits w.x ∧ c.Admits w.y ∧ d.Admits w.nibble := by
  simp [Fits, nibbles]

/-- The first register and the byte of a word make up its address. -/
theorem val_addr (w : Word) : w.addr.val = 16 * (16 * w.x.val + w.y.val) + w.nibble.val := by
  simp only [addr, x, y, nibble]
  omega

/-- The last two nibbles of a word make up its byte. -/
theorem toNat_byte_eq (w : Word) : w.byte.toNat = 16 * w.y.val + w.nibble.val := by
  simp only [toNat_byte, y, nibble]
  omega

/-- An integer stands for a word by its low sixteen bits. -/
theorem ofInt_eq_iff {z z' : Int} : ofInt z = ofInt z' ↔ z % 65536 = z' % 65536 := by
  rw [← UInt16.toNat_inj, toNat_ofInt, toNat_ofInt]
  omega

/-- The four nibbles of a word make up its number. -/
theorem toNat_eq (w : Word) : w.toNat = 4096 * w.family.val + w.addr.val := by
  simp only [family, addr]
  omega

end Word

namespace Instruction

open Mark Word

variable {α ρ β ν : Type}

/-- The row of an instruction; the instruction that does nothing has none. -/
def row? : Instruction α ρ β ν → Option (List Mark)
  | noop => none
  | clear => some [0, 0, 0xE, 0]
  | ret => some [0, 0, 0xE, 0xE]
  | jump _ => some [1, n, n, n]
  | call _ => some [2, n, n, n]
  | skipEqByte _ _ => some [3, x, k, k]
  | skipNeByte _ _ => some [4, x, k, k]
  | skipEqReg _ _ => some [5, x, y, 0]
  | loadByte _ _ => some [6, x, k, k]
  | addByte _ _ => some [7, x, k, k]
  | move _ _ => some [8, x, y, 0]
  | or _ _ => some [8, x, y, 1]
  | and _ _ => some [8, x, y, 2]
  | xor _ _ => some [8, x, y, 3]
  | add _ _ => some [8, x, y, 4]
  | sub _ _ => some [8, x, y, 5]
  | shiftRight _ _ => some [8, x, y, 6]
  | subFrom _ _ => some [8, x, y, 7]
  | shiftLeft _ _ => some [8, x, y, 0xE]
  | skipNeReg _ _ => some [9, x, y, 0]
  | loadIndex _ => some [0xA, n, n, n]
  | jumpV0 _ => some [0xB, n, n, n]
  | random _ _ => some [0xC, x, k, k]
  | draw _ _ _ => some [0xD, x, y, n]
  | skipKey _ => some [0xE, x, 9, 0xE]
  | skipNoKey _ => some [0xE, x, 0xA, 1]
  | readDelay _ => some [0xF, x, 0, 7]
  | waitKey _ => some [0xF, x, 0, 0xA]
  | setDelay _ => some [0xF, x, 1, 5]
  | setSound _ => some [0xF, x, 1, 8]
  | addIndex _ => some [0xF, x, 1, 0xE]
  | glyph _ => some [0xF, x, 2, 9]
  | storeDigits _ => some [0xF, x, 3, 3]
  | store _ => some [0xF, x, 5, 5]
  | load _ => some [0xF, x, 6, 5]

/-- The operands of an instruction under the letters of its row. -/
def operands : Instruction Nat Nat Nat Nat → List (Mark × Nat)
  | noop | clear | ret => []
  | jump a | call a | jumpV0 a | loadIndex a => [(n, a)]
  | skipEqByte i b | skipNeByte i b | loadByte i b | addByte i b | random i b => [(x, i), (k, b)]
  | skipEqReg i j | skipNeReg i j | move i j | or i j | and i j | xor i j | add i j | sub i j
  | shiftRight i j | subFrom i j | shiftLeft i j => [(x, i), (y, j)]
  | draw i j rows => [(x, i), (y, j), (n, rows)]
  | skipKey i | skipNoKey i | readDelay i | waitKey i | setDelay i | setSound i | addIndex i
  | glyph i | storeDigits i | store i | load i => [(x, i)]

/-- Whether the operands of an instruction have no more digits than the row has letters. -/
def InRange : Instruction Nat Nat Nat Nat → Prop
  | noop | clear | ret => True
  | jump a | call a | jumpV0 a | loadIndex a => a < 4096
  | skipEqByte i b | skipNeByte i b | loadByte i b | addByte i b | random i b => i < 16 ∧ b < 256
  | skipEqReg i j | skipNeReg i j | move i j | or i j | and i j | xor i j | add i j | sub i j
  | shiftRight i j | subFrom i j | shiftLeft i j => i < 16 ∧ j < 16
  | draw i j rows => i < 16 ∧ j < 16 ∧ rows < 16
  | skipKey i | skipNoKey i | readDelay i | waitKey i | setDelay i | setSound i | addIndex i
  | glyph i | storeDigits i | store i | load i => i < 16

/-- Whether a word is laid out as the row of an instruction, with its operands under the letters. -/
def LaidOut (v : Instruction Nat Nat Nat Nat) (w : Word) : Prop :=
  ∃ row, v.row? = some row ∧ w.Fits row ∧ ∀ p ∈ v.operands, w.under row p.1 = p.2

section Encode

variable {f : Nat} (hf : f < 16)
include hf

theorem y_withByte (i : Fin 16) (b : UInt8) : (withByte f i b).y.val = b.toNat / 16 := by
  have split := toNat_byte_eq (withByte f i b)
  rw [byte_withByte hf] at split
  omega

theorem nibble_withByte (i : Fin 16) (b : UInt8) : (withByte f i b).nibble.val = b.toNat % 16 := by
  have split := toNat_byte_eq (withByte f i b)
  rw [byte_withByte hf] at split
  omega

end Encode

/-- The word of an instruction fits its row. -/
theorem fits_encode {i : Opcode} {row : List Mark} (known : i.row? = some row) :
    (encode i).Fits row := by
  cases i with
  | noop => cases known
  | clear | ret =>
      cases known
      exact (fits_iff _ _ _ _ _).2 ⟨rfl, rfl, rfl, rfl⟩
  | _ =>
      cases known
      simp [fits_iff, encode, y_withByte, nibble_withByte]

/-- The operands of an instruction stand in its word under the letters of its row. -/
theorem under_encode {i : Opcode} {row : List Mark} (known : i.row? = some row) :
    ∀ p ∈ i.numbers.operands, (encode i).under row p.1 = p.2 := by
  cases i with
  | noop => cases known
  | _ =>
      cases known
      simp [numbers, map, operands, under, nibbles, encode, ← val_addr, ← toNat_byte_eq]

/-- Replacing operands keeps the row. -/
@[simp] theorem row?_numbers (i : Opcode) : i.numbers.row? = i.row? := by
  cases i <;> rfl

/-- Every instruction that does something has a row. -/
theorem row?_eq_none_iff (i : Instruction α ρ β ν) : i.row? = none ↔ i = .noop := by
  cases i <;> simp [row?]

/-- The word of an instruction that does something is laid out as its row. -/
theorem laidOut_encode {i : Opcode} (means : i ≠ .noop) : i.numbers.LaidOut (encode i) := by
  obtain ⟨row, known⟩ : ∃ row, i.row? = some row :=
    Option.ne_none_iff_exists'.1 (mt (row?_eq_none_iff i).1 means)
  exact ⟨row, by rw [row?_numbers, known], fits_encode known, under_encode known⟩

/-- The word of an instruction decodes to the instruction. -/
theorem decode_encode (i : Opcode) : decode (encode i) = i := by
  cases i with
  | noop | clear | ret => rfl
  | draw i j rows => simp [encode, decode, Fin.ext_iff]
  | _ => simp [encode, decode, decodeArithmetic, decodeKey, decodeTransfer]

/-- A word that fits a row means something. -/
theorem decode_ne_noop_of_fits {i : Instruction α ρ β ν} {row : List Mark}
    (known : i.row? = some row) {w : Word} (fits : w.Fits row) : decode w ≠ .noop := by
  cases i with
  | noop => cases known
  | clear | ret =>
      cases known
      simp only [fits_iff, admits_ofNat] at fits
      simp [decode, fits, toNat_eq, val_addr]
  | _ =>
      -- The digits of the row are all that `decode` selects by.
      cases known
      simp only [fits_iff, admits_ofNat, admits_letter, true_and, and_true] at fits
      simp [decode, decodeArithmetic, decodeKey, decodeTransfer, toNat_byte_eq, fits]

/-- Only words that do nothing share an instruction. -/
theorem eq_of_decode_eq {w w' : Word} (same : decode w = decode w') (means : decode w ≠ .noop) :
    w = w' := by
  rw [← encode_decode means, same, encode_decode (same ▸ means)]

/-- The instructions whose operands are in range are those that words decode to. -/
theorem inRange_iff (v : Instruction Nat Nat Nat Nat) :
    v.InRange ↔ ∃ i : Opcode, i.numbers = v := by
  constructor
  · intro range
    refine ⟨v.map (Fin.ofNat 4096) (Fin.ofNat 16) UInt8.ofNat (Fin.ofNat 16), ?_⟩
    cases v <;> simp_all [InRange, numbers, map, Nat.mod_eq_of_lt]
  · rintro ⟨i, rfl⟩
    have small (b : UInt8) : b.toNat < 256 := b.toNat_lt
    cases i <;> simp [InRange, numbers, map, small]

/-- Decoding reads the table and loses nothing. The words of instructions are laid out as the
rows of the table and decode to their instructions. Any integer counts by its low sixteen bits:
either these fit no row and mean nothing, or they are the word of the instruction that they
decode to, whose operands stand under the letters of its row and are in range. -/
theorem decode_by_table :
    (∀ i : Opcode, i ≠ .noop → i.numbers.LaidOut (encode i) ∧ decode (encode i) = i) ∧
      (∀ v : Instruction Nat Nat Nat Nat, v.InRange ↔ ∃ i : Opcode, i.numbers = v) ∧
      (∀ z : Int,
        decode (.ofInt z) = .noop ∧
            (∀ (i : Opcode) (row : List Mark), i.row? = some row → ¬ (Word.ofInt z).Fits row) ∨
          decode (.ofInt z) ≠ .noop ∧ (decode (.ofInt z)).numbers.LaidOut (.ofInt z) ∧
            ((encode (decode (.ofInt z))).toNat : Int) = z % 65536) ∧
      (∀ z : Int, (decode (.ofInt z)).numbers.InRange) ∧
      ∀ z z' : Int,
        (z % 65536 = z' % 65536 → decode (.ofInt z) = decode (.ofInt z')) ∧
          (decode (.ofInt z) = decode (.ofInt z') → decode (.ofInt z) ≠ .noop →
            z % 65536 = z' % 65536) := by
  refine ⟨fun i means => ⟨laidOut_encode means, decode_encode i⟩, inRange_iff, ?_,
    fun z => (inRange_iff _).2 ⟨_, rfl⟩, ?_⟩
  · intro z
    by_cases means : decode (.ofInt z) = .noop
    · exact .inl ⟨means, fun i row known fits => decode_ne_noop_of_fits known fits means⟩
    · have word := encode_decode means
      have laid := laidOut_encode means
      rw [word] at laid
      refine .inr ⟨means, laid, ?_⟩
      rw [word, Word.toNat_ofInt]
      omega
  · intro z z'
    constructor
    · intro same
      rw [Word.ofInt_eq_iff.2 same]
    · intro same means
      exact Word.ofInt_eq_iff.1 (eq_of_decode_eq same means)

end Instruction

end Chip8
