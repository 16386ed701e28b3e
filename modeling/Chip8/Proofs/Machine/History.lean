import Chip8.Proofs.Machine.Run

/-!
# Histories of runs

A history lists what the steps of a run give, each of them at most one thing: the clock
readings, the ticks of the timers, the instructions that were executed. The history of a
run is that of its beginning followed by that of the rest.
-/

namespace Chip8.Machine

variable {σ T α : Type} [Instant T] [Host σ T]

/-- What the steps of a run give, in order. -/
def history (note : Machine T → σ → Input → Option α) (m : Machine T) (host : σ) :
    List Input → List α
  | [] => []
  | input :: rest =>
      (note m host input).toList ++
        (m.step host input).machine.history note (m.step host input).host rest

variable (note : Machine T → σ → Input → Option α)

@[simp] theorem history_nil (m : Machine T) (host : σ) : m.history note host [] = [] := rfl

theorem history_cons (m : Machine T) (host : σ) (input : Input) (rest : List Input) :
    m.history note host (input :: rest) =
      (note m host input).toList ++
        (m.step host input).machine.history note (m.step host input).host rest := rfl

/-- A run goes on from where its beginning ended. -/
theorem history_append (m : Machine T) (host : σ) (first rest : List Input) :
    m.history note host (first ++ rest) =
      m.history note host first ++
        (m.after host first).1.history note (m.after host first).2 rest := by
  induction first generalizing m host with
  | nil => rfl
  | cons input first ih =>
      rw [List.cons_append, history_cons, history_cons, after_cons, ih, List.append_assoc]

/-- The instructions that a run executes. -/
def opcodes (m : Machine T) (host : σ) (inputs : List Input) : List Opcode :=
  m.history (fun m _ input => m.executed? input) host inputs

theorem opcodes_cons (m : Machine T) (host : σ) (input : Input) (rest : List Input) :
    m.opcodes host (input :: rest) =
      (m.executed? input).toList ++
        (m.step host input).machine.opcodes (m.step host input).host rest := rfl

end Chip8.Machine
