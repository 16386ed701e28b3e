/-!
# Rounding to 53 binary digits

A rational number is rounded to the nearest number that has at most 53 binary digits
between its highest and its lowest one; of two that are equally near, the one whose
last digit is even is taken. The exponent is not bounded.
-/

namespace Chip8.Rounding

/-- The nearest whole number; a half goes to the even neighbour. -/
def whole (x : Rat) : Int :=
  let low := x.floor
  let rest := x - low
  if rest < 1 / 2 then low else if 1 / 2 < rest then low + 1 else low + low % 2

/-- The place of the highest binary digit of a number other than zero. -/
def place (x : Rat) : Int :=
  let e : Int := x.num.natAbs.log2 - x.den.log2
  if -2 ^ e < x ∧ x < 2 ^ e then e - 1 else e

/-- The place value of the last of the 53 digits that are kept. -/
def unit (x : Rat) : Rat :=
  2 ^ (place x - 52)

/-- Whether a number is a whole number of at most 53 binary digits. -/
def isShort (x : Rat) : Bool :=
  x.den = 1 && x.num.natAbs < 0x20000000000000

/-- The nearest number of at most 53 binary digits; a whole number that is short enough
is kept at once. -/
def nearest (x : Rat) : Rat :=
  if isShort x then x else whole (x / unit x) * unit x

/-- A whole number of at most 53 binary digits is kept. -/
theorem nearest_intCast {n : Int} (h : n.natAbs < 0x20000000000000) :
    nearest n = n := by
  have short : isShort n = true := by simp [isShort, h]
  rw [nearest, if_pos short]

end Chip8.Rounding
