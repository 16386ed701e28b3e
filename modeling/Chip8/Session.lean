import Chip8.Machine.Breakdown

/-!
# Frames and sessions

A frame is a number of steps for one poll of the keys; only its first step is given
the pressed key, and its snapshot is that of the last step, redrawn if any step
redrew. A session runs one frame after another until a poll asks to stop, is
interrupted, or there are no more polls.
-/

namespace Chip8

/-- The outcome of the steps of one frame. -/
structure Frame (σ T : Type) where
  machine : Machine T
  host : σ
  snapshot : Snapshot
  /-- What happened, in order. -/
  notices : List Notice

namespace Frame

variable {σ T : Type}

/-- The frame made of a first step and the steps after it. -/
def ofSteps (first : Step σ T) (rest : List (Step σ T)) : Frame σ T :=
  let last := rest.getLastD first
  { machine := last.machine
    host := last.host
    snapshot :=
      { last.snapshot with
        changed := first.snapshot.changed || rest.any fun s => s.snapshot.changed }
    notices := first.notices ++ rest.flatMap fun s => s.notices }

end Frame

/-- Why a frame has no outcome. -/
inductive FrameError (σ T : Type) where
  /-- It was to have no steps. -/
  | noSteps
  | breakdown (left : Breakdown σ T)

/-- What one poll of the keys gives: the input for the frame, and whether to go on. -/
structure Poll where
  /-- The held keys and the pressed key. -/
  input : Input
  /-- Whether to run a frame; otherwise the session ends. -/
  running : Bool

/-- One turn of a session; what happens to the host beforehand is part of it. -/
inductive Visit (σ : Type) where
  | poll (pass : σ → σ) (result : Poll)
  | interrupt

/-- How a session ended. -/
inductive Ending where
  /-- A poll asked to stop, or none was left. -/
  | quit
  /-- A poll was interrupted. -/
  | interrupted
deriving DecidableEq, Repr

/-- A finished session. -/
structure Session (σ T : Type) where
  frames : List (Frame σ T)
  machine : Machine T
  ending : Ending
  /-- How many visits were not made. -/
  left : Nat

/-- The steps in a frame at an instruction rate: a sixtieth of it, and at least one. -/
def cyclesPerFrame (rate : Int) : Nat :=
  max 1 (rate / 60).toNat

/-- The instruction rate unless told otherwise. -/
def defaultRate : Int := 1200

namespace Machine

variable {σ T : Type} [Instant T] [Host σ T]

/-- The inputs of the steps of a frame after the first: the same keys and no press. -/
def laterInputs (input : Input) (more : Nat) : List Input :=
  List.replicate more { input with press := none }

/-- A frame of one step and `more` further ones. -/
def frame (m : Machine T) (host : σ) (input : Input) (more : Nat) : Frame σ T :=
  let first := m.step host input
  .ofSteps first (first.machine.trace first.host (laterInputs input more))

/-- A frame of a given number of steps, unless there are none or one breaks off. -/
def frame? (m : Machine T) (host : σ) (input : Input) (cycles : Int) :
    Except (FrameError σ T) (Frame σ T) :=
  match cycles.toNat with
  | 0 => .error .noSteps
  | more + 1 =>
      match m.step? host input with
      | .error b => .error (.breakdown b)
      | .ok first =>
          match first.machine.trace? id first.host (laterInputs input more) with
          | .error b => .error (.breakdown b)
          | .ok rest => .ok (.ofSteps first rest)

end Machine

namespace Session

variable {σ T : Type} [Instant T] [Host σ T]

/-- Runs frames of `more + 1` steps over a list of visits. -/
def run (more : Nat) (m : Machine T) (host : σ) : List (Visit σ) → Session σ T
  | [] => ⟨[], m, .quit, 0⟩
  | .interrupt :: rest => ⟨[], m, .interrupted, rest.length⟩
  | .poll pass result :: rest =>
      if result.running then
        let f := m.frame (pass host) result.input more
        let later := run more f.machine f.host rest
        { later with frames := f :: later.frames }
      else ⟨[], m, .quit, rest.length⟩

/-- Runs frames at an instruction rate over a list of visits. -/
def runAt (rate : Int) (m : Machine T) (host : σ) (visits : List (Visit σ)) : Session σ T :=
  run (cyclesPerFrame rate - 1) m host visits

end Session

end Chip8
