/-!
# Clock readings and random bytes

A machine asks its host for two things: the present instant and random bytes. Every
request hands back the host as it is afterwards, so the order of requests is part of
a run. `Tape` answers from two given streams and keeps its position in both; `Replay`
is a clock that is moved by hand and a list of bytes that is gone through in circles.
-/

namespace Chip8

/-- Instants of a clock that can tell when a timer tick is due. -/
class Instant (T : Type) where
  /-- Whether a sixtieth of a second or more has passed from `last` to `now`. -/
  due (last now : T) : Bool

instance : Instant Float where
  due last now := now - last ≥ 1.0 / 60.0

instance : Instant Rat where
  due last now := 1 / 60 ≤ now - last

/-- Hosts in state `σ` with a clock that shows instants in `T`. -/
class Host (σ : Type) (T : outParam Type) where
  readClock : σ → T × σ
  drawByte : σ → UInt8 × σ

/-- Answers from a stream of instants and a stream of bytes. -/
structure Tape (T : Type) where
  /-- The clock readings in the order they are asked for. -/
  instants : Nat → T
  /-- The random bytes in the order they are asked for. -/
  bytes : Nat → UInt8
  reads : Nat
  draws : Nat

instance {T : Type} : Host (Tape T) T where
  readClock t := (t.instants t.reads, { t with reads := t.reads + 1 })
  drawByte t := (t.bytes t.draws, { t with draws := t.draws + 1 })

/-- A clock in seconds that advances by `tick` with each reading, and a circle of bytes. -/
structure Replay where
  now : Float
  /-- What a reading adds to the clock. -/
  tick : Float
  /-- The circle of bytes; an empty one stands for a single zero. -/
  bytes : Array UInt8
  draws : Nat

namespace Replay

/-- Moves the clock. -/
def pass (seconds : Float) (r : Replay) : Replay :=
  { r with now := r.now + seconds }

end Replay

instance : Host Replay Float where
  readClock r := (r.now, { r with now := r.now + r.tick })
  drawByte r := (r.bytes.getD (r.draws % r.bytes.size) 0, { r with draws := r.draws + 1 })

end Chip8
