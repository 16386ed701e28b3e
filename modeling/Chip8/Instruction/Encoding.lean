import Chip8.Instruction.Basic

/-!
# Instructions as words

`decode` gives every word exactly one meaning: the high nibble selects a family, and
some families select further by the low nibble or the low byte. `encode` lays an
instruction out in the same fields.
-/

namespace Chip8.Instruction

/-- The family `8`, selected by the low nibble. -/
def decodeArithmetic (x y : Fin 16) (selector : Nat) : Opcode :=
  match selector with
  | 0x0 => .move x y
  | 0x1 => .or x y
  | 0x2 => .and x y
  | 0x3 => .xor x y
  | 0x4 => .add x y
  | 0x5 => .sub x y
  | 0x6 => .shiftRight x y
  | 0x7 => .subFrom x y
  | 0xE => .shiftLeft x y
  | _ => .noop

/-- The family `E`, selected by the low byte. -/
def decodeKey (x : Fin 16) (selector : Nat) : Opcode :=
  match selector with
  | 0x9E => .skipKey x
  | 0xA1 => .skipNoKey x
  | _ => .noop

/-- The family `F`, selected by the low byte. -/
def decodeTransfer (x : Fin 16) (selector : Nat) : Opcode :=
  match selector with
  | 0x07 => .readDelay x
  | 0x0A => .waitKey x
  | 0x15 => .setDelay x
  | 0x18 => .setSound x
  | 0x1E => .addIndex x
  | 0x29 => .glyph x
  | 0x33 => .storeDigits x
  | 0x55 => .store x
  | 0x65 => .load x
  | _ => .noop

/-- The instruction of a word; a word without a meaning of its own does nothing. -/
def decode (w : Word) : Opcode :=
  match w.family.val with
  | 0x0 =>
      match w.toNat with
      | 0x00E0 => .clear
      | 0x00EE => .ret
      | _ => .noop
  | 0x1 => .jump w.addr
  | 0x2 => .call w.addr
  | 0x3 => .skipEqByte w.x w.byte
  | 0x4 => .skipNeByte w.x w.byte
  | 0x5 => if w.nibble.val = 0 then .skipEqReg w.x w.y else .noop
  | 0x6 => .loadByte w.x w.byte
  | 0x7 => .addByte w.x w.byte
  | 0x8 => decodeArithmetic w.x w.y w.nibble
  | 0x9 => if w.nibble.val = 0 then .skipNeReg w.x w.y else .noop
  | 0xA => .loadIndex w.addr
  | 0xB => .jumpV0 w.addr
  | 0xC => .random w.x w.byte
  | 0xD => .draw w.x w.y w.nibble
  | 0xE => decodeKey w.x w.byte.toNat
  | _ => decodeTransfer w.x w.byte.toNat

/-- A word of a family with an address. -/
def withAddr (family : Nat) (addr : Fin 4096) : Word :=
  UInt16.ofNat (family * 4096 + addr.val)

/-- A word of a family with a register and a byte. -/
def withByte (family : Nat) (x : Fin 16) (byte : UInt8) : Word :=
  UInt16.ofNat (family * 4096 + x.val * 256 + byte.toNat)

/-- The word of an instruction; the instruction that does nothing is the zero word. -/
def encode : Opcode → Word
  | .noop => 0x0000
  | .clear => 0x00E0
  | .ret => 0x00EE
  | .jump addr => withAddr 0x1 addr
  | .call addr => withAddr 0x2 addr
  | .skipEqByte x byte => withByte 0x3 x byte
  | .skipNeByte x byte => withByte 0x4 x byte
  | .skipEqReg x y => .ofNibbles 0x5 x y 0x0
  | .loadByte x byte => withByte 0x6 x byte
  | .addByte x byte => withByte 0x7 x byte
  | .move x y => .ofNibbles 0x8 x y 0x0
  | .or x y => .ofNibbles 0x8 x y 0x1
  | .and x y => .ofNibbles 0x8 x y 0x2
  | .xor x y => .ofNibbles 0x8 x y 0x3
  | .add x y => .ofNibbles 0x8 x y 0x4
  | .sub x y => .ofNibbles 0x8 x y 0x5
  | .shiftRight x y => .ofNibbles 0x8 x y 0x6
  | .subFrom x y => .ofNibbles 0x8 x y 0x7
  | .shiftLeft x y => .ofNibbles 0x8 x y 0xE
  | .skipNeReg x y => .ofNibbles 0x9 x y 0x0
  | .loadIndex addr => withAddr 0xA addr
  | .jumpV0 addr => withAddr 0xB addr
  | .random x byte => withByte 0xC x byte
  | .draw x y rows => .ofNibbles 0xD x y rows
  | .skipKey x => withByte 0xE x 0x9E
  | .skipNoKey x => withByte 0xE x 0xA1
  | .readDelay x => withByte 0xF x 0x07
  | .waitKey x => withByte 0xF x 0x0A
  | .setDelay x => withByte 0xF x 0x15
  | .setSound x => withByte 0xF x 0x18
  | .addIndex x => withByte 0xF x 0x1E
  | .glyph x => withByte 0xF x 0x29
  | .storeDigits x => withByte 0xF x 0x33
  | .store x => withByte 0xF x 0x55
  | .load x => withByte 0xF x 0x65

end Chip8.Instruction
