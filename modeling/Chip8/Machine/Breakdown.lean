import Chip8.Machine.Step

/-!
# Breakdowns

A register takes its value from the delay timer only if the timer holds a byte.
Otherwise the step breaks off: the key wait is over and the timers have ticked, but the
program counter still stands at the instruction. The timers of a machine that was
started hold bytes, so its steps never break off.
-/

namespace Chip8

/-- What a step that broke off leaves behind. -/
structure Breakdown (σ T : Type) where
  machine : Machine T
  host : σ

namespace Machine

variable {σ T : Type}

/-- Whether an instruction finds a byte in the timer that it reads. -/
def canExecute (m : Machine T) : Opcode → Bool
  | .readDelay _ => 0 ≤ m.delay && m.delay < 256
  | _ => true

theorem canExecute_of_byte {m : Machine T} (h : 0 ≤ m.delay ∧ m.delay < 256) (op : Opcode) :
    m.canExecute op = true := by
  cases op <;> simp [canExecute, h]

@[simp] theorem delay_resume (m : Machine T) (press : Option Int) :
    (m.resume press).delay = m.delay := by
  unfold resume
  split <;> rfl

theorem delay_tickTimers_byte [Instant T] (m : Machine T) (now : T)
    (h : 0 ≤ m.delay ∧ m.delay < 256) :
    0 ≤ (m.tickTimers now).delay ∧ (m.tickTimers now).delay < 256 := by
  unfold tickTimers countDown
  split
  · dsimp only
    split <;> omega
  · exact h

variable [Instant T] [Host σ T]

/-- What is left behind if a step breaks off. -/
def breakdown? (m : Machine T) (host : σ) (input : Input) : Option (Breakdown σ T) :=
  let m := m.resume input.press
  if m.wait.isSome then none
  else
    let reading := Host.readClock host
    let m := m.tickTimers reading.1
    if m.canExecute (Instruction.decode m.fetch) then none else some ⟨m, reading.2⟩

/-- One step, unless it breaks off. -/
def step? (m : Machine T) (host : σ) (input : Input) : Except (Breakdown σ T) (Step σ T) :=
  match m.breakdown? host input with
  | some b => .error b
  | none => .ok (m.step host input)

/-- The steps for a list of inputs, unless one breaks off. Something may happen to the
host before each of them. -/
def trace? (pass : σ → σ) (m : Machine T) (host : σ) :
    List Input → Except (Breakdown σ T) (List (Step σ T))
  | [] => .ok []
  | input :: rest =>
      match m.step? (pass host) input with
      | .error b => .error b
      | .ok s => (s.machine.trace? pass s.host rest).map (s :: ·)

/-- A machine whose delay timer holds a byte takes every step. -/
theorem step?_of_byte {m : Machine T} (h : 0 ≤ m.delay ∧ m.delay < 256) (host : σ)
    (input : Input) : m.step? host input = .ok (m.step host input) := by
  have none : m.breakdown? host input = none := by
    simp only [breakdown?]
    split
    · rfl
    · rw [if_pos (canExecute_of_byte (delay_tickTimers_byte _ _ (by simpa using h)) _)]
  simp [step?, none]

end Machine

end Chip8
