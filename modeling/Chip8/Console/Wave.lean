import Chip8.Number
import Chip8.Rounding
import Chip8.Width

/-!
# Square waves

A square wave changes between a high and a low level twice in each period. Its
samples are taken at a rate per second. The phase of a sample counts the half periods
before it; a sample is high where an odd number of them is complete.

The phase is computed with 64-bit integers that wrap around and with quotients of 53
binary digits; it is exact as long as its terms are small.
-/

namespace Chip8

/-- Why there are no samples. -/
inductive WaveError where
  /-- The rate or the time is out of range. -/
  | number (cause : NumberError)
  /-- There would be more than can be counted in 64 bits. -/
  | tooMany
  /-- Their size in bytes needs more than 64 bits. -/
  | tooBig
  /-- There is no memory for rows of samples, each sample of a size in bytes. -/
  | noMemory (shape : List Nat) (sampleSize : Nat)
  /-- The tone or the number of channels needs more than 64 bits. -/
  | tooWide
deriving DecidableEq, Repr

namespace Wave

/-- The sample rate unless told otherwise. -/
def defaultRate : Int := 44100

/-- The length of a wave in seconds unless told otherwise. -/
def defaultDuration : Number := .real 0.1

/-- The number of samples in the default length at the default rate. -/
def defaultCount : Nat := 4410

/-- The tone in hertz unless told otherwise. -/
def defaultTone : Int := 440

/-- The half periods before sample `t`, exactly. -/
def exactPhase (tone rate : Int) (t : Nat) : Rat :=
  (2 * t * tone : Int) / rate

/-- The half periods before sample `t`, as computed. -/
def phase (tone rate : Int) (t : Nat) : Rat :=
  Rounding.nearest
    (Rounding.nearest (Width.signed64 (2 * t * tone)) / Rounding.nearest rate)

/-- The value of a sample at a phase: high after an odd number of half periods. -/
def level (phase : Rat) : Int :=
  if phase.floor % 2 = 1 then 32767 else -32767

/-- The value of sample `t`. -/
def sample (tone rate : Int) (t : Nat) : Int :=
  level (phase tone rate t)

/-- The first `n` samples. -/
def samples (tone rate : Int) (n : Nat) : List Int :=
  (List.range n).map (sample tone rate)

/-- The bytes that are at hand for samples. -/
def memoryLimit : Nat := 0x400000000

/-- Takes memory for rows of samples. -/
def allocate (shape : List Nat) (sampleSize : Nat) : Except WaveError Unit :=
  let bytes := shape.foldr (· * ·) sampleSize
  if 0x8000000000000000 ≤ bytes then .error .tooBig
  else if memoryLimit ≤ bytes then .error (.noMemory shape sampleSize)
  else .ok ()

/-- The number of samples in a length; none if it is negative. A length beyond 64 bits is
refused, but one that only just needs them counts as negative. -/
def count (length : Int) : Except WaveError Nat :=
  let rounded := (Rounding.nearest length).floor
  if 0x8000000000000000 < rounded.natAbs then .error .tooMany
  else .ok (Width.signed64 rounded).toNat

/-- Whether samples of a length can have a tone. They are numbered by integers of 64 bits,
beyond them by floating-point numbers and below them by integers of any size; the tone has
to be such a number too. -/
def checkTone (length tone : Int) : Except WaveError Unit :=
  if Width.fits64 length then
    if Width.fits64 tone then .ok () else .error .tooWide
  else if length < 0 then .ok ()
  else
    match Number.floatOf tone with
    | .error e => .error (.number e)
    | .ok _ => .ok ()

/-- The samples of a time. The length is the product of the rate and the time, cut to a
whole number; each sample is made of numbers of eight bytes. A rate beyond all
floating-point numbers has no wave. -/
def samplesFor (tone rate : Int) (duration : Number) : Except WaveError (List Int) :=
  match Number.timesCut rate duration with
  | .error e => .error (.number e)
  | .ok length =>
      match count length with
      | .error e => .error e
      | .ok n =>
          match allocate [n] 8 with
          | .error e => .error e
          | .ok _ =>
              match checkTone length tone with
              | .error e => .error e
              | .ok _ =>
                  match Number.floatOf rate with
                  | .error e => .error (.number e)
                  | .ok _ => .ok (samples tone rate n)

end Wave

end Chip8
