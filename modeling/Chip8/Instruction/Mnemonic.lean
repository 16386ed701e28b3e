import Chip8.Instruction.Basic
import Chip8.Text.Numeral

/-!
# The assembly text of instructions

An instruction is written as a head word and its operands, separated by commas.
Several instructions share a head word; the operands then tell them apart.
-/

namespace Chip8

/-- An operand as it is written in an assembly line. -/
inductive Operand where
  | register (n : Nat)
  /-- An address, at least three digits long. -/
  | address (n : Nat)
  /-- A byte, at least two digits long. -/
  | byte (n : Nat)
  /-- A row count, in decimal. -/
  | count (n : Nat)
  | index
  /-- The memory that the index register points at. -/
  | indirect
  | delay
  | sound
  /-- The next key to be pressed. -/
  | key
  | glyph
  /-- The decimal digits of a register. -/
  | digits
deriving DecidableEq, Repr

namespace Operand

/-- The text of an operand. -/
def text : Operand → String
  | register n => "V" ++ Numeral.hex 1 n
  | address n => "0x" ++ Numeral.hex 3 n
  | byte n => "0x" ++ Numeral.hex 2 n
  | count n => Numeral.decimal n
  | index => "I"
  | indirect => "[I]"
  | delay => "DT"
  | sound => "ST"
  | key => "K"
  | glyph => "F"
  | digits => "B"

end Operand

namespace Instruction

/-- The head word and the operands of an instruction. -/
def parts : Instruction Nat Nat Nat Nat → String × List Operand
  | noop => ("NOOP", [])
  | clear => ("CLS", [])
  | ret => ("RET", [])
  | jump addr => ("JP", [.address addr])
  | call addr => ("CALL", [.address addr])
  | jumpV0 addr => ("JP", [.register 0, .address addr])
  | skipEqByte x byte => ("SE", [.register x, .byte byte])
  | skipNeByte x byte => ("SNE", [.register x, .byte byte])
  | skipEqReg x y => ("SE", [.register x, .register y])
  | skipNeReg x y => ("SNE", [.register x, .register y])
  | skipKey x => ("SKP", [.register x])
  | skipNoKey x => ("SKNP", [.register x])
  | loadByte x byte => ("LD", [.register x, .byte byte])
  | addByte x byte => ("ADD", [.register x, .byte byte])
  | random x byte => ("RND", [.register x, .byte byte])
  | move x y => ("LD", [.register x, .register y])
  | or x y => ("OR", [.register x, .register y])
  | and x y => ("AND", [.register x, .register y])
  | xor x y => ("XOR", [.register x, .register y])
  | add x y => ("ADD", [.register x, .register y])
  | sub x y => ("SUB", [.register x, .register y])
  | shiftRight x y => ("SHR", [.register x, .register y])
  | subFrom x y => ("SUBN", [.register x, .register y])
  | shiftLeft x y => ("SHL", [.register x, .register y])
  | loadIndex addr => ("LD", [.index, .address addr])
  | draw x y rows => ("DRW", [.register x, .register y, .count rows])
  | readDelay x => ("LD", [.register x, .delay])
  | waitKey x => ("LD", [.register x, .key])
  | setDelay x => ("LD", [.delay, .register x])
  | setSound x => ("LD", [.sound, .register x])
  | addIndex x => ("ADD", [.index, .register x])
  | glyph x => ("LD", [.glyph, .register x])
  | storeDigits x => ("LD", [.digits, .register x])
  | store x => ("LD", [.indirect, .register x])
  | load x => ("LD", [.register x, .indirect])

/-- The assembly line of an instruction with operands of any size. -/
def line (i : Instruction Nat Nat Nat Nat) : String :=
  match i.parts with
  | (head, []) => head
  | (head, operands) => head ++ " " ++ ", ".intercalate (operands.map Operand.text)

/-- The assembly line of a decoded instruction. -/
def mnemonic (i : Opcode) : String :=
  i.numbers.line

end Instruction

end Chip8
