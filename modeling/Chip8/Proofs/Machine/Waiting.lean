import Chip8.Proofs.Machine.Run

/-!
# Held-up steps

A step that finds the machine waiting and brings no key changes nothing and asks nothing of
the host. Such steps can therefore be taken out of a run: the other steps, the log and the
end of the run stay the same. A step that brings a key is a step from the machine that has
the key already.
-/

namespace Chip8

/-- The members of a list that a list of marks does not mark. -/
def unmarked {α : Type} (marks : List Bool) (xs : List α) : List α :=
  ((marks.zip xs).filter fun p => !p.1).map Prod.snd

section Unmarked

variable {α : Type}

@[simp] theorem unmarked_nil (marks : List Bool) : unmarked marks ([] : List α) = [] := by
  simp [unmarked]

@[simp] theorem unmarked_true_cons (marks : List Bool) (x : α) (xs : List α) :
    unmarked (true :: marks) (x :: xs) = unmarked marks xs := rfl

@[simp] theorem unmarked_false_cons (marks : List Bool) (x : α) (xs : List α) :
    unmarked (false :: marks) (x :: xs) = x :: unmarked marks xs := rfl

end Unmarked

namespace Machine

variable {σ T : Type} [Instant T] [Host σ T]

/-- For each step of a run, whether it is held up. -/
def heldMarks (m : Machine T) (host : σ) : List Input → List Bool
  | [] => []
  | input :: rest =>
      m.isHeld input :: (m.step host input).machine.heldMarks (m.step host input).host rest

theorem heldMarks_cons (m : Machine T) (host : σ) (input : Input) (rest : List Input) :
    m.heldMarks host (input :: rest) =
      m.isHeld input ::
        (m.step host input).machine.heldMarks (m.step host input).host rest := rfl

/-- Without its held-up steps a run has the same other steps: machines, hosts, snapshots and
notices. -/
theorem trace_unmarked (m : Machine T) (host : σ) (inputs : List Input) :
    m.trace host (unmarked (m.heldMarks host inputs) inputs) =
      unmarked (m.heldMarks host inputs) (m.trace host inputs) := by
  induction inputs generalizing m host with
  | nil => rfl
  | cons input rest ih =>
      rw [heldMarks_cons, trace_cons]
      cases h : m.isHeld input with
      | true =>
          rw [step_of_isHeld h, unmarked_true_cons, unmarked_true_cons]
          exact ih m host
      | false =>
          rw [unmarked_false_cons, unmarked_false_cons, trace_cons, ih]

/-- Without its held-up steps a run ends in the same way. -/
theorem after_unmarked (m : Machine T) (host : σ) (inputs : List Input) :
    m.after host (unmarked (m.heldMarks host inputs) inputs) = m.after host inputs := by
  induction inputs generalizing m host with
  | nil => rfl
  | cons input rest ih =>
      rw [heldMarks_cons, after_cons]
      cases h : m.isHeld input with
      | true =>
          rw [step_of_isHeld h, unmarked_true_cons]
          exact ih m host
      | false => rw [unmarked_false_cons, after_cons, ih]

/-- Held-up steps have nothing to report. -/
theorem notices_unmarked (m : Machine T) (host : σ) (inputs : List Input) :
    (unmarked (m.heldMarks host inputs) (m.trace host inputs)).flatMap Step.notices =
      (m.trace host inputs).flatMap Step.notices := by
  induction inputs generalizing m host with
  | nil => rfl
  | cons input rest ih =>
      rw [heldMarks_cons, trace_cons]
      cases h : m.isHeld input with
      | true => simp [step_of_isHeld h, ih]
      | false => simp [ih]

/-- The snapshot of a step tells whether it was held up; a step that executes something is
not, even if it makes the machine wait. -/
theorem waiting_step (m : Machine T) (host : σ) (input : Input) :
    (m.step host input).snapshot.waiting = m.isHeld input := by
  cases h : m.isHeld input with
  | true => rw [step_of_isHeld h]; rfl
  | false => rw [step_of_not_isHeld h]; rfl

theorem waiting_trace (m : Machine T) (host : σ) (inputs : List Input) :
    (m.trace host inputs).map (fun s => s.snapshot.waiting) = m.heldMarks host inputs := by
  induction inputs generalizing m host with
  | nil => rfl
  | cons input rest ih =>
      rw [trace_cons, List.map_cons, heldMarks_cons, waiting_step, ih]

/-- A key for a machine that waits might as well have been in the register beforehand. -/
theorem step_of_press {m : Machine T} {x : Fin 16} (h : m.wait = some x) (host : σ)
    (keys : Keyboard) (key : Int) :
    m.step host ⟨keys, some key⟩ =
      Machine.step { m.setReg x (UInt8.ofNat (key % 16).toNat) with wait := none } host
        ⟨keys, none⟩ := by
  have delivered : m.resume (some key) =
      { m.setReg x (UInt8.ofNat (key % 16).toNat) with wait := none } := by
    simp [resume, h]
  simp only [step, delivered, resume_none]

/-- Held-up steps are inert. Taking them out of a run leaves the end of the run (the machine
and the host with its place in the clock readings and random bytes), all other steps with
their snapshots, and the log. A snapshot says that the machine waits exactly if its step was
held up, and then shows the unchanged machine. A step that brings a key is the step without
a key from the machine that has the key in the waiting register and waits no more. -/
theorem held_steps_inert (m : Machine T) (host : σ) (inputs : List Input) :
    let marks := m.heldMarks host inputs
    m.after host (unmarked marks inputs) = m.after host inputs ∧
      m.trace host (unmarked marks inputs) = unmarked marks (m.trace host inputs) ∧
      (m.trace host (unmarked marks inputs)).flatMap Step.notices =
        (m.trace host inputs).flatMap Step.notices ∧
      (m.trace host inputs).map (fun s => s.snapshot.waiting) = marks ∧
      (∀ input, m.isHeld input = true →
        m.step host input = ⟨m, host, ⟨m.display, false, 0 < m.sound, true⟩, []⟩) ∧
      ∀ x keys key, m.wait = some x →
        m.step host ⟨keys, some key⟩ =
          Machine.step { m.setReg x (UInt8.ofNat (key % 16).toNat) with wait := none } host
            ⟨keys, none⟩ := by
  intro marks
  have log : (m.trace host (unmarked marks inputs)).flatMap Step.notices =
      (m.trace host inputs).flatMap Step.notices := by
    rw [trace_unmarked, notices_unmarked]
  refine ⟨after_unmarked m host inputs, trace_unmarked m host inputs, log,
    waiting_trace m host inputs, ?_, ?_⟩
  · intro input held
    exact step_of_isHeld held host
  · intro x keys key waits
    exact step_of_press waits host keys key

end Machine

end Chip8
