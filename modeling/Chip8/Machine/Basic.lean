import Chip8.Instruction.Encoding
import Chip8.Host
import Chip8.Memory
import Chip8.Snapshot
import Chip8.Text.Numeral

/-!
# Machine states

A machine holds sixteen byte registers, an index register, a program counter, two
timers, a stack of return addresses, memory, the display, a pending key wait and the
instant of the latest timer tick. The index register, the program counter, the return
addresses and the timers are integers, for a machine may be set up with any. A machine
that is started keeps the addresses from 0 to 65535 and the timers from 0 to 255.
-/

namespace Chip8

/-- A machine whose clock shows instants in `T`. -/
structure Machine (T : Type) where
  registers : Vector UInt8 16
  index : Int
  /-- The program counter; words are fetched modulo 4096. -/
  pc : Int
  delay : Int
  sound : Int
  /-- The addresses of the pending calls, the latest first. -/
  stack : List Int
  memory : Memory
  display : Display
  /-- The register that waits for a key, if any. -/
  wait : Option (Fin 16)
  /-- The instant of the latest timer tick. -/
  lastTick : T

namespace Machine

variable {σ T : Type}

/-- A machine with a program loaded, at an instant. -/
def start (program : List UInt8) (now : T) : Machine T where
  registers := Vector.replicate 16 0
  index := 0
  pc := Memory.programStart
  delay := 0
  sound := 0
  stack := []
  memory := Memory.load program
  display := Display.blank
  wait := none
  lastTick := now

/-- Loads a program; the clock is read once. -/
def boot [Host σ T] (program : List UInt8) (host : σ) : Machine T × σ :=
  let reading := Host.readClock host
  (start program reading.1, reading.2)

/-- The value of a register. -/
def reg (m : Machine T) (x : Fin 16) : UInt8 :=
  m.registers.get x

/-- Sets a register. -/
def setReg (m : Machine T) (x : Fin 16) (b : UInt8) : Machine T :=
  { m with registers := m.registers.setIfInBounds x b }

/-- The word at the program counter. -/
def fetch (m : Machine T) : Word :=
  Word.ofBytes (m.memory.read m.pc) (m.memory.read (m.pc + 1))

/-- What the machine shows, given whether it was redrawn and whether it is held up. -/
def snapshot (m : Machine T) (changed waiting : Bool) : Snapshot :=
  ⟨m.display, changed, 0 < m.sound, waiting⟩

theorem reg_setReg (m : Machine T) (x y : Fin 16) (b : UInt8) :
    (m.setReg x b).reg y = if x = y then b else m.reg y := by
  simp only [reg, setReg, Fin.ext_iff]
  exact Vector.getElem_setIfInBounds y.isLt

@[simp] theorem reg_setReg_self (m : Machine T) (x : Fin 16) (b : UInt8) :
    (m.setReg x b).reg x = b := by
  simp [reg_setReg]

end Machine

end Chip8
