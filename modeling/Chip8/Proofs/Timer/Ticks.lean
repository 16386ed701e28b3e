import Chip8.Proofs.Machine.History

/-!
# The ticks of the timers

A step that is not held up reads the clock, and the timers tick if a period has passed since
the latest tick. Both timers tick together. Between instructions that set it, a timer falls
by one with each tick until it stands at zero.
-/

namespace Chip8

/-- The two timers of a machine. -/
inductive Timer where
  | delay
  | sound
deriving DecidableEq, Repr

/-- The instruction that sets a timer from a register. -/
def Timer.setter (x : Fin 16) : Timer → Opcode
  | .delay => .setDelay x
  | .sound => .setSound x

/-- The clock readings that are ticks, if the latest tick was at `last`. -/
def ticksAmong {T : Type} [Instant T] (last : T) : List T → List T
  | [] => []
  | now :: rest =>
      if Instant.due last now then now :: ticksAmong now rest else ticksAmong last rest

namespace Machine

variable {σ T : Type}

/-- What a timer stands at. -/
def timer (m : Machine T) : Timer → Int
  | .delay => m.delay
  | .sound => m.sound

/-- A timer is touched only by the instruction that sets it. -/
theorem timer_execute {m : Machine T} {t : Timer} {op : Opcode} (h : ∀ x, op ≠ t.setter x)
    (keys : Keyboard) (chance : UInt8) :
    (m.execute keys chance op).machine.timer t = m.timer t := by
  cases t with
  | delay =>
      rw [timer, timer, delay_execute]
      cases op with
      | setDelay x => exact absurd rfl (h x)
      | _ => rfl
  | sound =>
      rw [timer, timer, sound_execute]
      cases op with
      | setSound x => exact absurd rfl (h x)
      | _ => rfl

/-- A timer that is not negative falls by one, but not below zero. -/
theorem countDown_eq_max {t : Int} (h : 0 ≤ t) : countDown t = max 0 (t - 1) := by
  unfold countDown
  split <;> omega

variable [Instant T] [Host σ T]

/-- The clock reading of a step that is not held up. -/
def reading? (m : Machine T) (host : σ) (input : Input) : Option T :=
  if m.isHeld input then none else some (Host.readClock host).1

/-- The clock reading of a step in which the timers tick. -/
def tick? (m : Machine T) (host : σ) (input : Input) : Option T :=
  (m.reading? host input).filter (Instant.due m.lastTick)

/-- The clock readings of a run. -/
def readings (m : Machine T) (host : σ) (inputs : List Input) : List T :=
  m.history reading? host inputs

/-- The instants at which the timers tick in a run. -/
def tickTimes (m : Machine T) (host : σ) (inputs : List Input) : List T :=
  m.history tick? host inputs

theorem readings_cons (m : Machine T) (host : σ) (input : Input) (rest : List Input) :
    m.readings host (input :: rest) =
      (m.reading? host input).toList ++
        (m.step host input).machine.readings (m.step host input).host rest := rfl

theorem tickTimes_cons (m : Machine T) (host : σ) (input : Input) (rest : List Input) :
    m.tickTimes host (input :: rest) =
      (m.tick? host input).toList ++
        (m.step host input).machine.tickTimes (m.step host input).host rest := rfl

theorem timer_prepared (m : Machine T) (host : σ) (input : Input) (t : Timer) :
    (m.prepared host input).timer t =
      if Instant.due m.lastTick (Host.readClock host).1 then countDown (m.timer t)
      else m.timer t := by
  rw [prepared, resume_eq, tickTimers]
  cases t <;> split <;> rfl

theorem lastTick_prepared (m : Machine T) (host : σ) (input : Input) :
    (m.prepared host input).lastTick =
      if Instant.due m.lastTick (Host.readClock host).1 then (Host.readClock host).1
      else m.lastTick := by
  rw [prepared, resume_eq, tickTimers]
  split <;> rfl

/-- A step moves the instant of the latest tick exactly if the timers tick. -/
theorem lastTick_step (m : Machine T) (host : σ) (input : Input) :
    (m.step host input).machine.lastTick = (m.tick? host input).getD m.lastTick := by
  cases held : m.isHeld input with
  | true => simp [step_of_isHeld held, tick?, reading?, held]
  | false =>
      rw [step_of_not_isHeld held, effect, lastTick_execute, lastTick_prepared, tick?, reading?]
      by_cases due : Instant.due m.lastTick (Host.readClock host).1 <;>
        simp [held, due, Option.filter]

/-- A timer that a step does not set counts down exactly if the timers tick. -/
theorem timer_step {m : Machine T} {input : Input} {t : Timer}
    (unset : ∀ x, m.executed? input ≠ some (t.setter x)) (host : σ) :
    (m.step host input).machine.timer t =
      if (m.tick? host input).isSome then countDown (m.timer t) else m.timer t := by
  cases held : m.isHeld input with
  | true => simp [step_of_isHeld held, tick?, reading?, held]
  | false =>
      have other : ∀ x, Instruction.decode m.fetch ≠ t.setter x := by
        intro x same
        exact unset x (by simp [executed?, held, same])
      rw [step_of_not_isHeld held, effect, timer_execute other, timer_prepared, tick?, reading?]
      by_cases due : Instant.due m.lastTick (Host.readClock host).1 <;> simp [held, due]

/-- The ticks of a run are told by its clock readings. -/
theorem tickTimes_eq (m : Machine T) (host : σ) (inputs : List Input) :
    m.tickTimes host inputs = ticksAmong m.lastTick (m.readings host inputs) := by
  induction inputs generalizing m host with
  | nil => rfl
  | cons input rest ih =>
      rw [tickTimes_cons, readings_cons, ih, lastTick_step, tick?]
      cases m.reading? host input with
      | none => rfl
      | some now =>
          by_cases due : Instant.due m.lastTick now <;> simp [ticksAmong, due, Option.filter]

/-- Over a run that does not set it, a timer falls by the number of ticks, but not below
zero. -/
theorem timer_after {m : Machine T} {t : Timer} (start : 0 ≤ m.timer t) {host : σ}
    {inputs : List Input} (unset : ∀ x, t.setter x ∉ m.opcodes host inputs) :
    (m.after host inputs).1.timer t =
      max 0 (m.timer t - (m.tickTimes host inputs).length) := by
  induction inputs generalizing m host with
  | nil =>
      rw [after_nil, tickTimes, history_nil, List.length_nil, Int.natCast_zero, Int.sub_zero]
      exact (Int.max_eq_right start).symm
  | cons input rest ih =>
      have here : ∀ x, m.executed? input ≠ some (t.setter x) := by
        intro x executed
        exact unset x (by simp [opcodes_cons, executed])
      have later : ∀ x, t.setter x ∉
          (m.step host input).machine.opcodes (m.step host input).host rest := by
        intro x executed
        exact unset x (by simp [opcodes_cons, executed])
      have value := timer_step here host
      rw [after_cons, tickTimes_cons, List.length_append]
      cases ticked : m.tick? host input with
      | none =>
          simp only [ticked, Option.isSome_none, Bool.false_eq_true, if_false] at value
          rw [ih (by rwa [value]) later, value]
          simp
      | some now =>
          simp only [ticked, Option.isSome_some, if_true, countDown_eq_max start] at value
          rw [ih (by rw [value]; omega) later, value]
          simp only [Option.toList_some, List.length_cons, List.length_nil]
          omega

end Machine

end Chip8
