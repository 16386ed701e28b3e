/-!
# Arithmetic with a flag

Five operations on bytes have a result and a flag: addition with its carry, the two
subtractions with the flag of a greater minuend, and the two shifts with the bit that
is shifted out.
-/

namespace Chip8

/-- A result byte and a flag. -/
structure Flagged where
  result : UInt8
  flag : Bool
deriving DecidableEq, Repr

namespace Flagged

/-- The flag as a byte, one or zero. -/
def flagByte (r : Flagged) : UInt8 :=
  if r.flag then 1 else 0

/-- Sum and carry. -/
def add (a b : UInt8) : Flagged :=
  ⟨a + b, 255 < a.toNat + b.toNat⟩

/-- Difference, with the flag set if the minuend is greater. -/
def sub (a b : UInt8) : Flagged :=
  ⟨a - b, b < a⟩

/-- Half, and the lowest bit. -/
def shiftRight (a : UInt8) : Flagged :=
  ⟨UInt8.ofNat (a.toNat / 2), a.toNat % 2 = 1⟩

/-- Double, and the highest bit. -/
def shiftLeft (a : UInt8) : Flagged :=
  ⟨UInt8.ofNat (2 * a.toNat), 128 ≤ a.toNat⟩

/-- The sum with its carry is the sum of the numbers. -/
theorem add_value (a b : UInt8) :
    a.toNat + b.toNat = 256 * (add a b).flag.toNat + (add a b).result.toNat := by
  have := a.toNat_lt
  have := b.toNat_lt
  simp only [add, UInt8.toNat_add]
  by_cases h : 255 < a.toNat + b.toNat <;> simp [h] <;> omega

/-- The difference is taken modulo 256. -/
theorem sub_value (a b : UInt8) :
    (sub a b).result.toNat = (a.toNat + 256 - b.toNat) % 256 := by
  have := a.toNat_lt
  have := b.toNat_lt
  simp only [sub, UInt8.toNat_sub]
  omega

theorem sub_flag (a b : UInt8) : (sub a b).flag = true ↔ b.toNat < a.toNat := by
  simp [sub, UInt8.lt_iff_toNat_lt]

/-- Twice the half plus the lowest bit is the byte. -/
theorem shiftRight_value (a : UInt8) :
    a.toNat = 2 * (shiftRight a).result.toNat + (shiftRight a).flag.toNat := by
  have := a.toNat_lt
  simp only [shiftRight, UInt8.toNat_ofNat']
  by_cases h : a.toNat % 2 = 1 <;> simp [h] <;> omega

/-- The double with its highest bit is twice the byte. -/
theorem shiftLeft_value (a : UInt8) :
    2 * a.toNat = 256 * (shiftLeft a).flag.toNat + (shiftLeft a).result.toNat := by
  have := a.toNat_lt
  simp only [shiftLeft, UInt8.toNat_ofNat']
  by_cases h : 128 ≤ a.toNat <;> simp [h] <;> omega

end Flagged

end Chip8
