/-!
# Whole and floating-point numbers

A number is given as a whole number of any size or as a floating-point number. Reading
one as the other fails where there is no such number: a whole number may be beyond all
floating-point numbers, and a floating-point number may be infinite or no number.
-/

namespace Chip8

/-- A whole or a floating-point number. -/
inductive Number where
  | whole (value : Int)
  | real (value : Float)

/-- Why a number cannot be read in the way that is asked for. -/
inductive NumberError where
  /-- It is beyond all floating-point numbers. -/
  | tooLarge
  | infinite
  /-- It is no number. -/
  | undefined
deriving DecidableEq, Repr

namespace Number

/-- A whole number as a floating-point number: the nearest one. -/
def floatOf (z : Int) : Except NumberError Float :=
  if (Float.ofInt z).isInf then .error .tooLarge else .ok (Float.ofInt z)

/-- A whole number times a power of two, cut to a whole number. -/
def scaleCut (significand : Nat) (exponent : Int) : Nat :=
  match exponent with
  | .ofNat e => significand <<< e
  | .negSucc e => significand >>> (e + 1)

/-- A floating-point number cut to a whole number, from its sign, its exponent and its
significand. -/
def cut (x : Float) : Except NumberError Int :=
  let bits := x.toBits.toNat
  let exponent := bits >>> 52 % 2048
  let fraction := bits % 0x10000000000000
  if exponent = 2047 then
    if fraction = 0 then .error .infinite else .error .undefined
  else
    let significand := if exponent = 0 then fraction else fraction + 0x10000000000000
    let size := scaleCut significand (max exponent 1 - 1075 : Int)
    .ok (if bits < 0x8000000000000000 then size else -size)

/-- The number as a floating-point number. -/
def toFloat : Number → Except NumberError Float
  | whole z => floatOf z
  | real x => .ok x

/-- The number cut to a whole number. -/
def toInt : Number → Except NumberError Int
  | whole z => .ok z
  | real x => cut x

/-- A whole number times a number, cut to a whole number. -/
def timesCut (z : Int) : Number → Except NumberError Int
  | whole w => .ok (z * w)
  | real x =>
      match floatOf z with
      | .error e => .error e
      | .ok y => cut (y * x)

end Number

end Chip8
