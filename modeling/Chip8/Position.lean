import Chip8.Width

/-!
# Positions

A number names one of a row of places: from zero on it counts from the first place,
below zero back from the end. A range of places is given by two such bounds, which are
moved to the nearer end if they lie outside.
-/

namespace Chip8

/-- Why a number names no place. -/
inductive PositionError where
  /-- The number needs more than 64 bits. -/
  | tooLarge
  /-- There is no such place. -/
  | outside
deriving DecidableEq, Repr

namespace Position

/-- The place that a number names. -/
def resolve (size : Nat) (n : Int) : Except PositionError (Fin size) :=
  let k := if n < 0 then n + size else n
  if !Width.fits64 n then .error .tooLarge
  else if h : 0 ≤ k ∧ k < size then .ok ⟨k.toNat, by omega⟩
  else .error .outside

/-- A bound of a range. -/
def bound (size : Nat) (n : Int) : Nat :=
  if n < 0 then (n + size).toNat else min n.toNat size

end Position

end Chip8
