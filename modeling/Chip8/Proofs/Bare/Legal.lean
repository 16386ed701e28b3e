import Chip8.Proofs.Bare.Run
import Chip8.Proofs.Machine.Range
import Mathlib.Data.List.Forall2

/-!
# Nothing goes wrong in a run

A bare machine has no sizes and ranges of its own. Yet if a program is loaded into one and
it takes any steps, with any clock readings and random bytes, none of them fails, and every
state on the way has the sizes and ranges of a machine.
-/

namespace Chip8

variable {σ T : Type}

/-- The sizes and ranges that a bare machine should have. -/
structure Bare.Legal (b : Bare T) : Prop where
  memory : b.memory.length = 4096 ∧ ∀ v ∈ b.memory, v ≤ 0xFF
  registers : b.registers.length = 16 ∧ ∀ v ∈ b.registers, v ≤ 0xFF
  display : b.display.length = 2048 ∧ ∀ v ∈ b.display, v = 0 ∨ v = 1
  index : IsAddress b.index
  pc : IsAddress b.pc
  stack : ∀ a ∈ b.stack, IsAddress a
  delay : IsCount b.delay
  sound : IsCount b.sound
  wait : ∀ x, b.wait = some x → x ≤ 15

/-- Whether a bare step is the layout of a step. -/
def BareStep.Shows (b : BareStep σ T) (s : Step σ T) : Prop :=
  ∃ keys drawn, b = s.bare keys drawn

namespace Machine

theorem InRange.bare {m : Machine T} (h : m.InRange) (keys : Keyboard) (drawn : Bool) :
    (m.bare keys drawn).Legal where
  memory := ⟨Row.length_ofVector _ _, Row.le_of_mem_bytes⟩
  registers := ⟨Row.length_ofVector _ _, Row.le_of_mem_bytes⟩
  display := by
    constructor
    · exact Row.length_ofVector _ _
    · intro v hv
      obtain ⟨c, rfl⟩ := Row.mem_ofVector hv
      cases c with
      | false => exact .inl rfl
      | true => exact .inr rfl
  index := h.index
  pc := h.pc
  stack := h.stack
  delay := h.delay
  sound := h.sound
  wait := by
    intro x hx
    obtain ⟨y, -, rfl⟩ := Option.map_eq_some_iff.1 hx
    omega

theorem InRange.delay_byte {m : Machine T} (h : m.InRange) :
    0 ≤ m.delay ∧ m.delay < 256 :=
  ⟨h.delay.1, Int.lt_add_one_of_le h.delay.2⟩

variable [Instant T] [Host σ T]

/-- A run of a machine in range never breaks off. -/
theorem InRange.trace? {m : Machine T} (h : m.InRange) (host : σ) (inputs : List Input) :
    m.trace? id host inputs = .ok (m.trace host inputs) := by
  induction inputs generalizing m host with
  | nil => rfl
  | cons input rest ih =>
      have step := step?_of_byte h.delay_byte host input
      rw [Machine.trace?, id_eq, step, trace_cons]
      simp only [ih (h.step host input), Except.map]

/-- All machines of a run are in range. -/
theorem InRange.trace {m : Machine T} (h : m.InRange) (host : σ) (inputs : List Input) :
    ∀ s ∈ m.trace host inputs, s.machine.InRange := by
  apply forall_trace_of_step (P := InRange) _ h
  intro m host input before
  exact before.step host input

/-- A step of a layout succeeds and is the layout of a step. -/
theorem InRange.step_bare {m : Machine T} (h : m.InRange) (keys : Keyboard) (drawn : Bool)
    (host : σ) (input : Input) :
    ∃ held mark, (m.bare keys drawn).step host input =
      .ok ((m.step host input).bare held mark) := by
  cases held : m.isHeld input with
  | true => exact ⟨keys, drawn, Bare.step_bare_of_isHeld held keys drawn host⟩
  | false => exact ⟨_, _, Bare.step_bare_of_not_isHeld held h.delay_byte keys drawn host⟩

/-- A step that is not held up goes through, also on a layout. -/
theorem InRange.step_succeeds {m : Machine T} (h : m.InRange) {input : Input}
    (goes : m.isHeld input = false) (host : σ) :
    m.step? host input = .ok (m.step host input) ∧
      ∀ keys drawn, (m.bare keys drawn).step host input =
        .ok ((m.step host input).bare input.keys (m.step host input).snapshot.changed) := by
  constructor
  · exact step?_of_byte h.delay_byte host input
  · intro keys drawn
    exact Bare.step_bare_of_not_isHeld goes h.delay_byte keys drawn host

/-- A run of a layout succeeds and consists of the layouts of the steps of a run. -/
theorem InRange.trace_bare {m : Machine T} (h : m.InRange) (keys : Keyboard) (drawn : Bool)
    (host : σ) (inputs : List Input) :
    ∃ steps, (m.bare keys drawn).trace host inputs = .ok steps ∧
      List.Forall₂ BareStep.Shows steps (m.trace host inputs) := by
  induction inputs generalizing m keys drawn host with
  | nil => exact ⟨[], rfl, .nil⟩
  | cons input rest ih =>
      obtain ⟨held, mark, first⟩ := h.step_bare keys drawn host input
      obtain ⟨later, run, shown⟩ := ih (h.step host input) held mark (m.step host input).host
      refine ⟨(m.step host input).bare held mark :: later, ?_, .cons ⟨held, mark, rfl⟩ shown⟩
      have onward : ((m.step host input).bare held mark).machine.trace
          ((m.step host input).bare held mark).host rest = .ok later := run
      rw [Bare.trace, first, ok_bind, onward]
      rfl

end Machine

/-- Layouts of steps whose machines are in range are legal. -/
theorem BareStep.legal_of_shows {steps : List (BareStep σ T)} {trace : List (Step σ T)}
    (shown : List.Forall₂ BareStep.Shows steps trace)
    (range : ∀ s ∈ trace, s.machine.InRange) : ∀ b ∈ steps.map BareStep.machine, b.Legal := by
  induction shown with
  | nil => simp
  | cons related _ ih =>
      intro b hb
      rw [List.map_cons] at hb
      obtain ⟨keys, drawn, rfl⟩ := related
      obtain rfl | later := List.mem_cons.1 hb
      · exact (range _ List.mem_cons_self).bare keys drawn
      · exact ih (fun s hs => range s (List.mem_cons_of_mem _ hs)) b later

/-- No run of a program goes wrong. Whatever is loaded into a bare machine, whatever the
inputs, the clock readings and the random bytes are: every step succeeds, every state from
the first on is legal, and the steps are the layouts of the steps of a machine, which does
not break off either. -/
theorem bare_run_legal [Instant T] [Host σ T] (program : List UInt8) (host : σ)
    (inputs : List Input) :
    ∃ steps : List (BareStep σ T),
      (Bare.boot program host).1.trace (Bare.boot program host).2 inputs = .ok steps ∧
        (∀ b ∈ (Bare.boot program host).1 :: steps.map BareStep.machine, b.Legal) ∧
        List.Forall₂ BareStep.Shows steps
          ((Machine.boot program host).1.trace (Machine.boot program host).2 inputs) ∧
        (Machine.boot program host).1.trace? id (Machine.boot program host).2 inputs =
          .ok ((Machine.boot program host).1.trace (Machine.boot program host).2 inputs) := by
  have range : (Machine.boot program host).1.InRange := Machine.inRange_start program _
  have first : (Bare.boot program host).1 =
      (Machine.boot program host).1.bare Keyboard.released false := Bare.start_eq program _
  obtain ⟨steps, run, shown⟩ :=
    range.trace_bare Keyboard.released false (Machine.boot program host).2 inputs
  refine ⟨steps, ?_, ?_, shown, range.trace? _ inputs⟩
  · rw [first]
    exact run
  · intro b hb
    obtain rfl | later := List.mem_cons.1 hb
    · rw [first]
      exact range.bare _ _
    · exact BareStep.legal_of_shows shown (range.trace _ inputs) b later

end Chip8
