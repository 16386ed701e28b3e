import Chip8.Machine.Basic

/-!
# The status line of a machine

The status line shows the general registers, the index register, the timers, the
program counter, the depth of the stack and the stack from its bottom.
-/

namespace Chip8.Machine

variable {T : Type}

/-- The status line. -/
def status (m : Machine T) : String :=
  "Machine(v=[" ++ ", ".intercalate (m.registers.toList.map fun v => Numeral.hex 2 v.toNat) ++
    "], i=" ++ Numeral.signedHex 3 m.index ++
    ", delay_timer=" ++ Numeral.signedDecimal m.delay ++
    ", sound_timer=" ++ Numeral.signedDecimal m.sound ++
    ", pc=" ++ Numeral.signedHex 3 m.pc ++
    ", sp=" ++ Numeral.decimal m.stack.length ++
    ", stack=[" ++ ", ".intercalate (m.stack.reverse.map (Numeral.signedHex 3)) ++ "])"

end Chip8.Machine
