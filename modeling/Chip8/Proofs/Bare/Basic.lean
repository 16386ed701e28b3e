import Chip8.Machine.Step

/-!
# Bare machines

A machine has its sizes and ranges in its types. A bare machine has none of them: memory,
registers and display are rows of numbers of any length, the other parts are numbers of any
size, and every access to a row is checked and may fail. Its steps do what the steps of a
machine do, one access after another. An instruction leaves the program counter two short
of where it goes on, which may be below zero or beyond sixteen bits; the step then adds two
and cuts the result.
-/

namespace Chip8

/-- Why an access to a row fails. -/
inductive Fault where
  /-- There is no such place. -/
  | place
  /-- The number is not a byte. -/
  | value
deriving DecidableEq, Repr

/-- A row of numbers. -/
abbrev Row := List Nat

namespace Row

/-- The number at a place, which has to exist. -/
def get (row : Row) (k : Int) : Except Fault Nat :=
  if h : 0 ≤ k ∧ k.toNat < row.length then .ok row[k.toNat] else .error .place

/-- Replaces the number at a place, which has to exist, by a byte. -/
def put (row : Row) (k v : Int) : Except Fault Row :=
  if 0 ≤ v ∧ v < 256 then
    if 0 ≤ k ∧ k.toNat < row.length then .ok (row.set k.toNat v.toNat) else .error .place
  else .error .value

/-- Replaces as many numbers from a place on as there are new ones. -/
def splice (row : Row) (a : Nat) (new : Row) : Row :=
  row.take a ++ new ++ row.drop (a + new.length)

end Row

/-- A machine without sizes and ranges. Its parts are those of a machine, laid out as rows
and numbers, with the keys that the latest instruction saw and whether it drew. -/
structure Bare (T : Type) where
  registers : Row
  index : Int
  pc : Int
  delay : Int
  sound : Int
  stack : List Int
  memory : Row
  display : Row
  wait : Option Nat
  lastTick : T
  keys : Keyboard
  drawn : Bool

/-- The outcome of a step of a bare machine: the machine and the host afterwards, what is
reported about the picture, the tone and the wait, and what happened. -/
structure BareStep (σ T : Type) where
  machine : Bare T
  host : σ
  changed : Bool
  sound : Bool
  waiting : Bool
  notices : List Notice

namespace Bare

variable {σ T : Type}

/-- A bare machine with a program loaded, at an instant. -/
def start (program : List UInt8) (now : T) : Bare T where
  registers := List.replicate 16 0
  index := 0
  pc := Memory.programStart
  delay := 0
  sound := 0
  stack := []
  memory :=
    (Row.splice (List.replicate 4096 0) 0 (Memory.font.map UInt8.toNat)).splice
      Memory.programStart ((program.take Memory.programLimit).map UInt8.toNat)
  display := List.replicate 2048 0
  wait := none
  lastTick := now
  keys := Keyboard.released
  drawn := false

/-- Loads a program; the clock is read once. -/
def boot [Host σ T] (program : List UInt8) (host : σ) : Bare T × σ :=
  let reading := Host.readClock host
  (start program reading.1, reading.2)

def reg (b : Bare T) (x : Nat) : Except Fault Nat :=
  b.registers.get x

def setReg (b : Bare T) (x : Nat) (v : Int) : Except Fault (Bare T) := do
  let registers ← Row.put b.registers x v
  return { b with registers := registers }

/-- The byte at an address, of which the low twelve bits count. -/
def peek (b : Bare T) (a : Int) : Except Fault Nat :=
  Row.get b.memory (a % 4096)

/-- Replaces the byte at an address, of which the low twelve bits count. -/
def poke (b : Bare T) (a v : Int) : Except Fault (Bare T) := do
  let memory ← Row.put b.memory (a % 4096) v
  return { b with memory := memory }

/-- Steps over the next word if the condition holds. -/
def skipIf (b : Bare T) (c : Bool) : Bare T :=
  if c then { b with pc := b.pc + 2 } else b

/-- Sets the flag register and then another one. -/
def setFlagged (b : Bare T) (x : Nat) (flag result : Int) : Except Fault (Bare T) := do
  let b ← b.setReg 15 flag
  b.setReg x result

/-- Toggles a cell by one bit of a sprite's row; the second part collects whether a lit bit
met a lit cell. -/
def drawBit (x y sprite : Nat) (drawn : Row × Nat) (column : Nat) :
    Except Fault (Row × Nat) := do
  let bit := (sprite >>> (7 - column)) % 2
  let place : Nat := y % 32 * 64 + (x + column) % 64
  let cell ← drawn.1.get place
  let display ← drawn.1.put place (cell ^^^ bit : Nat)
  return (display, drawn.2 ||| (bit &&& cell))

/-- Draws one row of a sprite. -/
def drawRow (b : Bare T) (x y : Nat) (drawn : Row × Nat) (row : Nat) :
    Except Fault (Row × Nat) := do
  let sprite ← b.peek (b.index + row)
  (List.range 8).foldlM (drawBit x (y + row) sprite) drawn

/-- Draws a sprite and flags a collision. -/
def drawSprite (b : Bare T) (x y height : Nat) : Except Fault (Bare T) := do
  let drawn ← (List.range height).foldlM (b.drawRow x y) (b.display, 0)
  let b ← { b with display := drawn.1 }.setReg 15 drawn.2
  return { b with drawn := true }

/-- Stores one register in memory. -/
def storeOne (b : Bare T) (n : Nat) : Except Fault (Bare T) := do
  let v ← b.reg n
  b.poke (b.index + n) v

/-- Loads one register from memory. -/
def loadOne (b : Bare T) (n : Nat) : Except Fault (Bare T) := do
  let v ← b.peek (b.index + n)
  b.setReg n v

/-- Executes an instruction, with a random byte at hand. Every instruction has its case. -/
def execute (b : Bare T) (chance : Nat) :
    Instruction Nat Nat Nat Nat → Except Fault (Bare T)
  | .noop => return b
  | .clear => return { b with display := List.replicate b.display.length 0, drawn := true }
  | .ret =>
      match b.stack with
      | [] => return b
      | a :: rest => return { b with pc := a, stack := rest }
  | .jump addr => return { b with pc := addr - 2 }
  | .call addr => return { b with pc := addr - 2, stack := b.pc :: b.stack }
  | .jumpV0 addr => do
      let v ← b.reg 0
      return { b with pc := v + addr - 2 }
  | .skipEqByte x byte => do
      let v ← b.reg x
      return b.skipIf (v = byte)
  | .skipNeByte x byte => do
      let v ← b.reg x
      return b.skipIf (v ≠ byte)
  | .skipEqReg x y => do
      let v ← b.reg x
      let w ← b.reg y
      return b.skipIf (v = w)
  | .skipNeReg x y => do
      let v ← b.reg x
      let w ← b.reg y
      return b.skipIf (v ≠ w)
  | .skipKey x => do
      let v ← b.reg x
      return b.skipIf (b.keys (v % 16 : Nat))
  | .skipNoKey x => do
      let v ← b.reg x
      return b.skipIf (!b.keys (v % 16 : Nat))
  | .loadByte x byte => b.setReg x byte
  | .addByte x byte => do
      let v ← b.reg x
      b.setReg x ((v + byte) % 256)
  | .random x byte => b.setReg x (chance &&& byte : Nat)
  | .move x y => do
      let w ← b.reg y
      b.setReg x w
  | .or x y => do
      let v ← b.reg x
      let w ← b.reg y
      b.setReg x (v ||| w : Nat)
  | .and x y => do
      let v ← b.reg x
      let w ← b.reg y
      b.setReg x (v &&& w : Nat)
  | .xor x y => do
      let v ← b.reg x
      let w ← b.reg y
      b.setReg x (v ^^^ w : Nat)
  | .add x y => do
      let v ← b.reg x
      let w ← b.reg y
      b.setFlagged x (if 255 < v + w then 1 else 0) ((v + w) % 256)
  | .sub x y => do
      let v ← b.reg x
      let w ← b.reg y
      b.setFlagged x (if w < v then 1 else 0) ((v - w) % 256)
  | .shiftRight x _ => do
      let v ← b.reg x
      b.setFlagged x (v % 2) (v / 2)
  | .subFrom x y => do
      let v ← b.reg x
      let w ← b.reg y
      b.setFlagged x (if v < w then 1 else 0) ((w - v) % 256)
  | .shiftLeft x _ => do
      let v ← b.reg x
      b.setFlagged x (v / 128 % 2) (v * 2 % 256)
  | .loadIndex addr => return { b with index := addr }
  | .draw x y rows => do
      let v ← b.reg x
      let w ← b.reg y
      b.drawSprite v w rows
  | .readDelay x => b.setReg x b.delay
  | .waitKey x => return { b with wait := some x }
  | .setDelay x => do
      let v ← b.reg x
      return { b with delay := v }
  | .setSound x => do
      let v ← b.reg x
      return { b with sound := v }
  | .addIndex x => do
      let v ← b.reg x
      return { b with index := (b.index + v) % 65536 }
  | .glyph x => do
      let v ← b.reg x
      return { b with index := (v % 16 * Memory.glyphSize : Nat) }
  | .storeDigits x => do
      let v ← b.reg x
      let b ← b.poke b.index (v / 100)
      let b ← b.poke (b.index + 1) (v / 10 % 10)
      b.poke (b.index + 2) (v % 10)
  | .store x => (List.range (x + 1)).foldlM storeOne b
  | .load x => (List.range (x + 1)).foldlM loadOne b

/-- What there is to report besides the execution itself: a return without a call. -/
def warnings (b : Bare T) : Instruction Nat Nat Nat Nat → List Notice
  | .ret => if b.stack.isEmpty then [.ignoredReturn b.pc] else []
  | _ => []

/-- Adds two to the program counter and cuts it to sixteen bits. -/
def advance (b : Bare T) : Bare T :=
  { b with pc := (b.pc + 2) % 65536 }

/-- The word at the program counter. -/
def fetch (b : Bare T) : Except Fault Word := do
  let high ← b.peek b.pc
  let low ← b.peek (b.pc + 1)
  return Word.ofInt (high * 256 + low)

/-- Stores the low four bits of a pressed key in the register that waits for it. -/
def resume (b : Bare T) (press : Option Int) : Except Fault (Bare T) :=
  match b.wait, press with
  | some x, some key => do
      let b ← b.setReg x (key % 16)
      return { b with wait := none }
  | _, _ => return b

/-- Counts both timers down if a tick is due. -/
def tickTimers [Instant T] (b : Bare T) (now : T) : Bare T :=
  if Instant.due b.lastTick now then
    { b with
      delay := if 0 < b.delay then b.delay - 1 else b.delay
      sound := if 0 < b.sound then b.sound - 1 else b.sound
      lastTick := now }
  else b

variable [Instant T] [Host σ T]

/-- Ticks the timers and executes the word at the program counter. -/
def proceed (b : Bare T) (host : σ) (keys : Keyboard) : Except Fault (BareStep σ T) := do
  let reading := Host.readClock host
  let b := { b.tickTimers reading.1 with keys := keys, drawn := false }
  let word ← b.fetch
  let op := Instruction.decode word
  let chance := Machine.drawFor op reading.2
  let done ← b.execute chance.1.toNat op.numbers
  return ⟨done.advance, chance.2, done.drawn, 0 < done.sound, false,
    .executed b.pc word :: b.warnings op.numbers⟩

def step (b : Bare T) (host : σ) (input : Input) : Except Fault (BareStep σ T) := do
  let b ← b.resume input.press
  if b.wait.isSome then return ⟨b, host, false, 0 < b.sound, true, []⟩
  else b.proceed host input.keys

/-- The steps for a list of inputs, unless one fails. -/
def trace (b : Bare T) (host : σ) : List Input → Except Fault (List (BareStep σ T))
  | [] => return []
  | input :: rest => do
      let s ← b.step host input
      let later ← s.machine.trace s.host rest
      return s :: later

end Bare

end Chip8
