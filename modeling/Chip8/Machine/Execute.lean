import Chip8.Alu
import Chip8.Keyboard
import Chip8.Machine.Basic
import Chip8.Sprite

/-!
# Executing instructions

An instruction is executed on a machine, with the held keys and a random byte at
hand. The program counter moves to the next word, to the one after it or to the
target of a jump. The flag register is written before the result, so a result in the
flag register wins.
-/

namespace Chip8

/-- Something that happened during a step. -/
inductive Notice where
  /-- A word was executed at an address. -/
  | executed (address : Int) (word : Word)
  /-- A return at an address found no pending call and was ignored. -/
  | ignoredReturn (address : Int)
deriving DecidableEq, Repr

/-- The effect of one instruction. -/
structure Effect (T : Type) where
  machine : Machine T
  /-- Whether the display was cleared or drawn on. -/
  redrawn : Bool
  /-- What there is to report besides the execution itself. -/
  notices : List Notice

namespace Effect

variable {T : Type}

/-- An effect without redrawing and without notices. -/
def quiet (m : Machine T) : Effect T :=
  ⟨m, false, []⟩

/-- An effect that redraws the display. -/
def redraw (m : Machine T) : Effect T :=
  ⟨m, true, []⟩

end Effect

namespace Machine

variable {T : Type}

/-- Moves on to the next word. -/
def advance (m : Machine T) : Machine T :=
  { m with pc := (m.pc + 2) % 65536 }

/-- Moves on to the word after the next one if the condition holds. -/
def skipIf (m : Machine T) (c : Bool) : Machine T :=
  { m with pc := (m.pc + if c then 4 else 2) % 65536 }

/-- Goes to an address. -/
def goto (m : Machine T) (a : Int) : Machine T :=
  { m with pc := a }

/-- Writes a flag to the flag register and then a result to a register. -/
def setFlagged (m : Machine T) (x : Fin 16) (r : Flagged) : Machine T :=
  (m.setReg 15 r.flagByte).setReg x r.result

/-- The registers up to `x`. -/
def registersTo (m : Machine T) (x : Fin 16) : List UInt8 :=
  m.registers.toList.take (x.val + 1)

/-- Sets the registers from `x` on to given bytes, as far as there are registers. -/
def loadRegisters (m : Machine T) (x : Nat) : List UInt8 → Machine T
  | [] => m
  | b :: rest =>
      if h : x < 16 then (m.setReg ⟨x, h⟩ b).loadRegisters (x + 1) rest else m

/-- The hundreds, tens and units digits of a byte. -/
def decimalDigits (b : UInt8) : List UInt8 :=
  [b / 100, b / 10 % 10, b % 10]

/-- The sprite of `n` rows that the index register points at. -/
def sprite (m : Machine T) (n : Nat) : Sprite :=
  m.memory.readAll m.index n

/-- Draws a sprite at the position in two registers and flags a collision. -/
def drawSprite (m : Machine T) (x y : Fin 16) (n : Nat) : Machine T :=
  let drawn := m.display.draw (m.sprite n) (m.reg x).toNat (m.reg y).toNat
  { m.setReg 15 (if drawn.2 then 1 else 0) with display := drawn.1 }

/-- Whether the key with the number in a register is held; the low four bits count. -/
def keyHeld (m : Machine T) (keys : Keyboard) (x : Fin 16) : Bool :=
  keys ((m.reg x).toNat % 16 : Nat)

/-- The effect of an instruction, with the held keys and a random byte at hand. -/
def execute (m : Machine T) (keys : Keyboard) (chance : UInt8) : Opcode → Effect T
  | .noop => .quiet m.advance
  | .clear => .redraw { m.advance with display := .blank }
  | .ret =>
      match m.stack with
      | [] => ⟨m.advance, false, [.ignoredReturn m.pc]⟩
      | a :: rest => .quiet { m with pc := (a + 2) % 65536, stack := rest }
  | .jump addr => .quiet (m.goto addr)
  | .call addr => .quiet { m with pc := addr, stack := m.pc :: m.stack }
  | .jumpV0 addr => .quiet (m.goto (addr + (m.reg 0).toNat))
  | .skipEqByte x byte => .quiet (m.skipIf (m.reg x = byte))
  | .skipNeByte x byte => .quiet (m.skipIf (m.reg x ≠ byte))
  | .skipEqReg x y => .quiet (m.skipIf (m.reg x = m.reg y))
  | .skipNeReg x y => .quiet (m.skipIf (m.reg x ≠ m.reg y))
  | .skipKey x => .quiet (m.skipIf (m.keyHeld keys x))
  | .skipNoKey x => .quiet (m.skipIf (!m.keyHeld keys x))
  | .loadByte x byte => .quiet (m.setReg x byte).advance
  | .addByte x byte => .quiet (m.setReg x (m.reg x + byte)).advance
  | .random x byte => .quiet (m.setReg x (chance &&& byte)).advance
  | .move x y => .quiet (m.setReg x (m.reg y)).advance
  | .or x y => .quiet (m.setReg x (m.reg x ||| m.reg y)).advance
  | .and x y => .quiet (m.setReg x (m.reg x &&& m.reg y)).advance
  | .xor x y => .quiet (m.setReg x (m.reg x ^^^ m.reg y)).advance
  | .add x y => .quiet (m.setFlagged x (.add (m.reg x) (m.reg y))).advance
  | .sub x y => .quiet (m.setFlagged x (.sub (m.reg x) (m.reg y))).advance
  | .shiftRight x _ => .quiet (m.setFlagged x (.shiftRight (m.reg x))).advance
  | .subFrom x y => .quiet (m.setFlagged x (.sub (m.reg y) (m.reg x))).advance
  | .shiftLeft x _ => .quiet (m.setFlagged x (.shiftLeft (m.reg x))).advance
  | .loadIndex addr => .quiet { m.advance with index := addr }
  | .draw x y rows => .redraw (m.drawSprite x y rows).advance
  | .readDelay x => .quiet (m.setReg x (UInt8.ofNat m.delay.toNat)).advance
  | .waitKey x => .quiet { m.advance with wait := some x }
  | .setDelay x => .quiet { m.advance with delay := (m.reg x).toNat }
  | .setSound x => .quiet { m.advance with sound := (m.reg x).toNat }
  | .addIndex x => .quiet { m.advance with index := (m.index + (m.reg x).toNat) % 65536 }
  | .glyph x =>
      .quiet { m.advance with index := (m.reg x).toNat % 16 * Memory.glyphSize }
  | .storeDigits x =>
      .quiet { m.advance with memory := m.memory.writeAll m.index (decimalDigits (m.reg x)) }
  | .store x =>
      .quiet { m.advance with memory := m.memory.writeAll m.index (m.registersTo x) }
  | .load x =>
      .quiet (m.loadRegisters 0 (m.memory.readAll m.index (x.val + 1))).advance

end Machine

end Chip8
