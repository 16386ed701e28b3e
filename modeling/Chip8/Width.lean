/-!
# Whole numbers of a fixed width

The low bits of a whole number, read as a signed number. A number fits a width if
nothing is lost.
-/

namespace Chip8.Width

/-- The signed number in the low 32 bits. -/
def signed32 (z : Int) : Int :=
  z.bmod 0x100000000

/-- The signed number in the low 64 bits. -/
def signed64 (z : Int) : Int :=
  z.bmod 0x10000000000000000

/-- Whether a number is a signed number of 64 bits. -/
def fits64 (z : Int) : Bool :=
  signed64 z = z

theorem fits64_iff {z : Int} :
    fits64 z = true ↔ -0x8000000000000000 ≤ z ∧ z < 0x8000000000000000 := by
  rw [fits64, decide_eq_true_iff, signed64, Int.bmod_def]
  split <;> omega

/-- A number of 32 bits is kept. -/
theorem signed32_eq_self {z : Int} (h : -0x80000000 ≤ z ∧ z < 0x80000000) :
    signed32 z = z := by
  rw [signed32, Int.bmod_def]
  split <;> omega

end Chip8.Width
