import Chip8.Proofs.Timer.Ticks
import Chip8.Proofs.Machine.Range
import Mathlib.Algebra.Order.Field.Rat
import Mathlib.Data.List.Chain
import Mathlib.Tactic.Linarith
import Mathlib.Tactic.Ring

/-!
# How many ticks fit into a time

With a clock that shows rational seconds, the ticks of a run are at least a period apart, and
there is no more than a period and a gap between readings from one tick to the next. So the
number of ticks is caught between two multiples of the time that has passed.
-/

namespace Chip8

/-- The least time between two ticks, a sixtieth of a second. -/
def period : Rat := 1 / 60

theorem due_iff {last now : Rat} : Instant.due last now = true ↔ period ≤ now - last := by
  simp [Instant.due, period]

/-- Clock readings that never go back and are never more than `gap` apart. -/
def Paced (gap : Rat) (readings : List Rat) : Prop :=
  readings.IsChain fun a b => a ≤ b ∧ b - a ≤ gap

instance (gap : Rat) (readings : List Rat) : Decidable (Paced gap readings) :=
  inferInstanceAs (Decidable (readings.IsChain _))

/-- The time from an instant to the last of some readings. -/
def elapsed (origin : Rat) (readings : List Rat) : Rat :=
  readings.getLastD origin - origin

/-- A clock that is `d` further at each reading, and random bytes that are all zero. -/
def Tape.even (d : Rat) : Tape Rat :=
  ⟨fun k : Nat => (k : Rat) * d, fun _ => 0, 0, 0⟩

/-- A tick comes at least a period after the one before it. -/
theorem isChain_ticksAmong (last : Rat) (readings : List Rat) :
    (last :: ticksAmong last readings).IsChain fun a b => a + period ≤ b := by
  induction readings generalizing last with
  | nil => exact .singleton last
  | cons now rest ih =>
      rw [ticksAmong]
      by_cases due : Instant.due last now = true
      · rw [if_pos due]
        have apart := due_iff.1 due
        exact .cons_cons (by linarith) (ih now)
      · rw [if_neg due]
        exact ih last

/-- The envelope of the ticks, at a point of a run where the latest tick was at `last` and the
latest reading, less than a period later, at `now`. -/
theorem ticksAmong_envelope {gap last now : Rat} {readings : List Rat} (order : last ≤ now)
    (early : now - last < period) (paced : Paced gap (now :: readings)) :
    (ticksAmong last readings).length * period ≤ readings.getLastD now - last ∧
      readings.getLastD now - last <
        period + (ticksAmong last readings).length * (period + gap) := by
  induction readings generalizing last now with
  | nil =>
      simp only [ticksAmong, List.length_nil, List.getLastD_nil, Nat.cast_zero, zero_mul]
      constructor <;> linarith
  | cons next rest ih =>
      obtain ⟨⟨forward, near⟩, onward⟩ := List.isChain_cons_cons.1 paced
      rw [ticksAmong, List.getLastD_cons]
      by_cases due : Instant.due last next = true
      · -- a tick at `next`: the count starts again there
        have apart := due_iff.1 due
        have positive : (0 : Rat) < period := by norm_num [period]
        obtain ⟨low, high⟩ := ih le_rfl (by linarith) onward
        rw [if_pos due, List.length_cons, Nat.cast_add, Nat.cast_one]
        constructor <;> linarith
      · have soon : next - last < period := by
          rw [due_iff] at due
          linarith
        rw [if_neg due]
        exact ih (by linarith) soon onward

namespace Machine

theorem InRange.timer_nonneg {T : Type} {m : Machine T} (h : m.InRange) (t : Timer) :
    0 ≤ m.timer t := by
  cases t with
  | delay => exact h.delay.1
  | sound => exact h.sound.1

variable {σ : Type} [Host σ Rat]

/-- The ticks of a machine that was just started, against the time since its start. -/
theorem tickTimes_boot_envelope {gap : Rat} (program : List UInt8) (host : σ)
    (inputs : List Input)
    (paced : Paced gap ((Host.readClock host).1 ::
      (boot program host).1.readings (boot program host).2 inputs)) :
    let booted := boot program host
    let count := (booted.1.tickTimes booted.2 inputs).length
    let time := elapsed (Host.readClock host).1 (booted.1.readings booted.2 inputs)
    count * period ≤ time ∧ time < period + count * (period + gap) := by
  intro booted count time
  have first : booted.1.lastTick = (Host.readClock host).1 := rfl
  have positive : (0 : Rat) < period := by norm_num [period]
  have envelope := ticksAmong_envelope le_rfl (by rwa [sub_self]) paced
  rwa [← first, ← tickTimes_eq] at envelope

/-- The envelope of the timers. Let the clock readings of a run from the start of a machine
never go back and never be more than `gap` apart. Then the time that passed is at least a period
for each tick, and less than a period and a gap for each tick and one more. Whatever the
readings are, a tick comes at least a period after the one before it. Over any stretch of the
run, also one with key waits in it, a timer that is not set falls by the number of ticks in the
stretch, but not below zero. -/
theorem timer_envelope (program : List UInt8) (host : σ) (inputs : List Input) :
    let booted := boot program host
    let origin := (Host.readClock host).1
    let readings := booted.1.readings booted.2 inputs
    let ticks := booted.1.tickTimes booted.2 inputs
    (∀ gap, 0 ≤ gap → Paced gap (origin :: readings) →
      ticks.length * period ≤ elapsed origin readings ∧
        elapsed origin readings < (ticks.length + 1) * (period + gap)) ∧
      ((origin :: ticks).IsChain fun a b => a + period ≤ b) ∧
      ∀ before stretch rest, inputs = before ++ stretch ++ rest →
        let first := booted.1.after booted.2 before
        let last := first.1.after first.2 stretch
        let within := first.1.tickTimes first.2 stretch
        within <:+: ticks ∧
          ∀ timer, (∀ x, Timer.setter x timer ∉ first.1.opcodes first.2 stretch) →
            last.1.timer timer = max 0 (first.1.timer timer - within.length) := by
  intro booted origin readings ticks
  refine ⟨?_, ?_, ?_⟩
  · intro gap wide paced
    obtain ⟨low, high⟩ := tickTimes_boot_envelope program host inputs paced
    refine ⟨low, high.trans_le ?_⟩
    linarith
  · rw [show ticks = _ from tickTimes_eq booted.1 booted.2 inputs]
    exact isChain_ticksAmong origin readings
  · rintro before stretch rest rfl first last within
    constructor
    · -- the run splits where the stretch begins and where it ends
      have split : ticks = booted.1.tickTimes booted.2 before ++ within ++
          last.1.tickTimes last.2 rest := by
        change booted.1.history tick? booted.2 (before ++ stretch ++ rest) = _
        rw [history_append, history_append, after_append]
        rfl
      exact ⟨_, _, split.symm⟩
    · intro timer unset
      have reached : first.1.InRange := (inRange_start program _).after booted.2 before
      exact timer_after (reached.timer_nonneg timer) unset

/-- A program that sets the delay timer and waits for a key, with a clock that is read every
sixty-fourth of a second. The stretch begins with the wait and ends with the key. -/
theorem timer_envelope_key_wait :
    let program : List UInt8 := [0x60, 0x02, 0xF0, 0x15, 0xF1, 0x0A, 0x12, 0x06]
    let tape := Tape.even (1 / 64)
    let booted := boot program tape
    let origin := (Host.readClock tape).1
    let before : List Input := [{}, {}]
    let stretch : List Input := [{}, {}, {}, { press := some 7 }]
    let readings := booted.1.readings booted.2 (before ++ stretch ++ [])
    let ticks := booted.1.tickTimes booted.2 (before ++ stretch ++ [])
    let first := booted.1.after booted.2 before
    Paced (1 / 64) (origin :: readings) ∧
      (∀ x, Timer.setter x .delay ∉ first.1.opcodes first.2 stretch) ∧
      ticks.length * period ≤ elapsed origin readings ∧
      elapsed origin readings < (ticks.length + 1) * (period + 1 / 64) ∧
      (first.1.after first.2 stretch).1.delay =
        max 0 (first.1.delay - (first.1.tickTimes first.2 stretch).length) := by
  intro program tape booted origin before stretch readings ticks first
  have paced : Paced (1 / 64) (origin :: readings) := by decide +kernel
  have unset : ∀ x, Timer.setter x .delay ∉ first.1.opcodes first.2 stretch := by
    decide +kernel
  obtain ⟨envelope, -, stretches⟩ := timer_envelope program tape (before ++ stretch ++ [])
  obtain ⟨low, high⟩ := envelope (1 / 64) (by norm_num) paced
  obtain ⟨-, falls⟩ := stretches before stretch [] rfl
  exact ⟨paced, unset, low, high, falls .delay unset⟩

end Machine

end Chip8
