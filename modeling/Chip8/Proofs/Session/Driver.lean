import Chip8.Proofs.Machine.Run
import Chip8.Session

/-!
# The driver of a session

A driver owns a machine and asks for polls, steps, pictures and pauses, one after another. A
frame is a loop in which the pressed key is used up by the first step, the marks for a redrawn
display are joined, and the latest snapshot is kept. What the driver asked for is recorded, so
that its requests can be counted. A frame of the driver is a frame of the session.
-/

namespace Chip8

/-- One turn of a driver: what happens to the host beforehand, and what the poll gives. -/
structure Turn (σ : Type) where
  pass : σ → σ
  poll : Poll

/-- A turn as a visit of a session. -/
def Turn.visit {σ : Type} (turn : Turn σ) : Visit σ :=
  .poll turn.pass turn.poll

/-- What a driver asks for. -/
inductive Request where
  /-- What the keys report. -/
  | poll
  | step (input : Input)
  /-- That a snapshot is shown. -/
  | follow (snapshot : Snapshot)
  /-- A pause that leaves so many turns to a second. -/
  | tick (rate : Int)

/-- A machine and its host, and what was asked for so far. -/
structure Driver (σ T : Type) where
  machine : Machine T
  host : σ
  /-- The requests in order. -/
  requests : List Request

/-- A frame that is going through its steps. -/
structure FrameLoop (σ T : Type) where
  driver : Driver σ T
  /-- The pressed key for the next step. -/
  press : Option Int
  /-- Whether a step redrew. -/
  changed : Bool
  /-- The snapshot of the latest step. -/
  snapshot : Option Snapshot

namespace FrameLoop

variable {σ T : Type}

/-- The loop after a step. -/
def after (requests : List Request) (changed : Bool) (s : Step σ T) : FrameLoop σ T :=
  ⟨⟨s.machine, s.host, requests⟩, none, changed, some s.snapshot⟩

variable [Instant T] [Host σ T]

/-- Makes one step, which uses up the pressed key. -/
def once (l : FrameLoop σ T) (keys : Keyboard) : Except (Breakdown σ T) (FrameLoop σ T) :=
  match l.driver.machine.step? l.driver.host ⟨keys, l.press⟩ with
  | .error b => .error b
  | .ok s =>
      .ok (after (l.driver.requests ++ [.step ⟨keys, l.press⟩])
        (l.changed || s.snapshot.changed) s)

/-- Makes a number of steps. -/
def times (l : FrameLoop σ T) (keys : Keyboard) : Nat → Except (Breakdown σ T) (FrameLoop σ T)
  | 0 => .ok l
  | n + 1 =>
      match l.once keys with
      | .error b => .error b
      | .ok l => l.times keys n

/-- After its first step a loop makes steps without a pressed key. -/
theorem times_after (requests : List Request) (changed : Bool) (s : Step σ T) (keys : Keyboard)
    (n : Nat) :
    (after requests changed s).times keys n =
      (s.machine.trace? id s.host (List.replicate n ⟨keys, none⟩)).map fun rest =>
        after (requests ++ List.replicate n (.step ⟨keys, none⟩))
          (changed || rest.any fun r => r.snapshot.changed) (rest.getLastD s) := by
  induction n generalizing requests changed s with
  | zero => simp [times, Machine.trace?, Except.map]
  | succ n ih =>
      simp only [times, once, List.replicate_succ, Machine.trace?, id_eq, after]
      cases s.machine.step? s.host ⟨keys, none⟩ with
      | error b => rfl
      | ok next =>
          have onward := ih (requests ++ [.step ⟨keys, none⟩])
            (changed || next.snapshot.changed) next
          simp only [after] at onward ⊢
          rw [onward]
          cases next.machine.trace? id next.host (List.replicate n ⟨keys, none⟩) with
          | error b => rfl
          | ok rest =>
              simp only [Except.map, List.getLastD_cons, List.any_cons, Bool.or_assoc,
                List.append_assoc, List.singleton_append]

end FrameLoop

/-- The inputs of the steps of a frame. -/
def Input.frame (input : Input) : Nat → List Input
  | 0 => []
  | more + 1 => input :: Machine.laterInputs input more

theorem Input.length_frame (input : Input) (n : Nat) : (input.frame n).length = n := by
  cases n with
  | zero => rfl
  | succ more => simp [frame, Machine.laterInputs]

namespace Driver

variable {σ T : Type} [Instant T] [Host σ T]

/-- The steps of a frame and its snapshot, which cannot be told if there were none. -/
def frame (d : Driver σ T) (input : Input) (cycles : Int) :
    Except (FrameError σ T) (Driver σ T × Snapshot) :=
  match (⟨d, input.press, false, none⟩ : FrameLoop σ T).times input.keys cycles.toNat with
  | .error b => .error (.breakdown b)
  | .ok l =>
      match l.snapshot with
      | none => .error .noSteps
      | some s => .ok (l.driver, { s with changed := l.changed })

/-- Goes through turns until a poll asks to stop; so does a poll when no turn is left. -/
def loop (cycles : Int) (d : Driver σ T) : List (Turn σ) → Except (FrameError σ T) (Driver σ T)
  | [] => .ok { d with requests := d.requests ++ [.poll] }
  | turn :: rest =>
      if turn.poll.running then
        match frame ⟨d.machine, turn.pass d.host, d.requests ++ [.poll]⟩ turn.poll.input cycles with
        | .error e => .error e
        | .ok (d, shown) =>
            loop cycles { d with requests := d.requests ++ [.follow shown, .tick 60] } rest
      else .ok { d with requests := d.requests ++ [.poll] }

/-- Runs a machine at an instruction rate. -/
def run (rate : Int) (m : Machine T) (host : σ) (turns : List (Turn σ)) :
    Except (FrameError σ T) (Driver σ T) :=
  loop (max 1 (rate / 60)) ⟨m, host, []⟩ turns

/-- A driver makes the frames of a machine and asks for their steps one by one. -/
theorem frame_eq (d : Driver σ T) (input : Input) (cycles : Int) :
    d.frame input cycles =
      (d.machine.frame? d.host input cycles).map fun f =>
        (⟨f.machine, f.host, d.requests ++ (input.frame cycles.toNat).map .step⟩,
          f.snapshot) := by
  rw [frame, Machine.frame?]
  cases cycles.toNat with
  | zero => rfl
  | succ more =>
      rw [FrameLoop.times, FrameLoop.once]
      simp only []
      cases d.machine.step? d.host input with
      | error b => rfl
      | ok first =>
          simp only [Bool.false_or, FrameLoop.times_after, Machine.laterInputs, Input.frame]
          cases first.machine.trace? id first.host
              (List.replicate more { input with press := none }) with
          | error b => rfl
          | ok rest => simp [Except.map, FrameLoop.after, Frame.ofSteps]

/-- What is asked for in a turn of `c` steps that ends in a frame. -/
def requestsFor (c : Nat) (turn : Turn σ) (f : Frame σ T) : List Request :=
  .poll :: ((turn.poll.input.frame c).map .step ++ [.follow f.snapshot, .tick 60])

/-- A turn that runs makes a frame and goes on from it. -/
theorem loop_cons_of_running {turn : Turn σ} (h : turn.poll.running = true) (cycles : Int)
    (d : Driver σ T) (rest : List (Turn σ)) :
    loop cycles d (turn :: rest) =
      match d.machine.frame? (turn.pass d.host) turn.poll.input cycles with
      | .error e => .error e
      | .ok f =>
          loop cycles ⟨f.machine, f.host, d.requests ++ requestsFor cycles.toNat turn f⟩ rest := by
  rw [loop, if_pos h, frame_eq]
  cases d.machine.frame? (turn.pass d.host) turn.poll.input cycles with
  | error e => rfl
  | ok f => simp [Except.map, requestsFor]

end Driver

end Chip8
