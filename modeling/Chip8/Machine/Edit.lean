import Chip8.Machine.Basic
import Chip8.Position

/-!
# Edits

An edit sets one part of a machine from outside. The addresses and timers take any
integer; a register, a byte of memory or a cell of the display has to exist, and a
register takes bytes only. A list of edits stops at the first refusal and keeps what was
set before it.
-/

namespace Chip8

/-- A part of a machine and what it is set to. -/
inductive Edit where
  | register (number value : Int)
  | byte (address : Int) (value : UInt8)
  /-- A cell of the display, which is lit. A column may run on into other rows. -/
  | cell (x y : Int)
  | index (address : Int)
  | pc (address : Int)
  | delay (count : Int)
  | sound (count : Int)
  /-- The addresses of the pending calls, the latest last. -/
  | stack (addresses : List Int)
deriving DecidableEq, Repr

/-- Why an edit was refused. -/
inductive EditError where
  /-- There is no such register, byte or cell. -/
  | position (cause : PositionError)
  /-- The value of a register has to be a byte. -/
  | notByte
deriving DecidableEq, Repr

namespace Edit

/-- Edits of consecutive bytes of memory. -/
def bytes (address : Int) : List UInt8 → List Edit
  | [] => []
  | b :: rest => .byte address b :: bytes (address + 1) rest

end Edit

namespace Machine

variable {T : Type}

/-- Makes one edit. That a number is too large for a register is noticed before its value
is looked at, that there is no such register only afterwards. -/
def edit (m : Machine T) : Edit → Except EditError (Machine T)
  | .register number value =>
      match Position.resolve 16 number with
      | .error .tooLarge => .error (.position .tooLarge)
      | .error .outside =>
          .error (if 0 ≤ value ∧ value < 256 then .position .outside else .notByte)
      | .ok x =>
          if 0 ≤ value ∧ value < 256 then .ok (m.setReg x (UInt8.ofNat value.toNat))
          else .error .notByte
  | .byte address value =>
      match Position.resolve 4096 address with
      | .error e => .error (.position e)
      | .ok a => .ok { m with memory := m.memory.write a.val value }
  | .cell x y =>
      match m.display.light? x y with
      | .error e => .error (.position e)
      | .ok d => .ok { m with display := d }
  | .index address => .ok { m with index := address }
  | .pc address => .ok { m with pc := address }
  | .delay count => .ok { m with delay := count }
  | .sound count => .ok { m with sound := count }
  | .stack addresses => .ok { m with stack := addresses.reverse }

/-- Makes edits in order; the second part tells why they stopped early, if they did. -/
def editAll (m : Machine T) : List Edit → Machine T × Option EditError
  | [] => (m, none)
  | e :: rest =>
      match m.edit e with
      | .ok k => k.editAll rest
      | .error cause => (m, some cause)

end Machine

end Chip8
