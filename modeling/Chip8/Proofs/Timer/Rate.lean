import Chip8.Proofs.Timer.Envelope
import Mathlib.Algebra.Order.Floor.Ring
import Mathlib.Data.Rat.Floor

/-!
# The rate of the timers

A tick is counted from the reading that noticed it, so what is left of the last period is lost
with every tick. With readings at most a period apart the timers therefore run at no more than
sixty ticks a second and at no less than half of that, and every deficit in between is reached:
they do not keep up with sixty ticks a second.
-/

namespace Chip8

variable {d : Rat}

/-- Clock readings at equal distances after an instant. -/
def everySo (d last : Rat) : Nat → List Rat
  | 0 => []
  | n + 1 => (last + d) :: everySo d (last + d) n

theorem getLastD_everySo (d last : Rat) (n : Nat) :
    (everySo d last n).getLastD last = last + n * d := by
  induction n generalizing last with
  | zero => simp [everySo]
  | succ n ih =>
      rw [everySo, List.getLastD_cons, ih]
      push_cast
      ring

theorem paced_everySo {gap : Rat} (forward : 0 ≤ d) (near : d ≤ gap) (last : Rat) (n : Nat) :
    Paced gap (last :: everySo d last n) := by
  induction n generalizing last with
  | zero => exact .singleton last
  | succ n ih =>
      exact .cons_cons ⟨by linarith, by linarith⟩ (ih (last + d))

/-- If a period has not passed after one reading but has after two, every second reading is
a tick. -/
theorem length_ticksAmong_everySo (short : d < period) (long : period ≤ 2 * d) (last : Rat)
    (n : Nat) : (ticksAmong last (everySo d last n)).length = n / 2 := by
  have early (t : Rat) : ¬ Instant.due t (t + d) = true := by
    rw [due_iff]
    linarith
  have due (t : Rat) : Instant.due t (t + d + d) = true := by
    rw [due_iff]
    linarith
  induction n using Nat.twoStepInduction generalizing last with
  | zero => rfl
  | one => simp [everySo, ticksAmong, early]
  | more n ih _ =>
      rw [everySo, everySo, ticksAmong, if_neg (early last), ticksAmong, if_pos (due last),
        List.length_cons, ih]
      omega

namespace Machine

/-- A step that is not held up takes one reading from a tape. -/
theorem host_step_tape {T : Type} [Instant T] {m : Machine T} {input : Input}
    (goes : m.isHeld input = false) (tape : Tape T) :
    (m.step tape input).host.instants = tape.instants ∧
      (m.step tape input).host.reads = tape.reads + 1 := by
  rw [step_of_not_isHeld goes, drawn, drawFor]
  split
  · exact ⟨rfl, rfl⟩
  · exact ⟨rfl, rfl⟩

/-- If every input brings a key, no step is held up, and all readings of a tape with equal
distances are at equal distances. -/
theorem readings_of_press {m : Machine Rat} {tape : Tape Rat}
    (even : tape.instants = fun k : Nat => (k : Rat) * d) {inputs : List Input}
    (pressed : ∀ input ∈ inputs, input.press.isSome) :
    m.readings tape inputs = everySo d (tape.reads * d - d) inputs.length := by
  induction inputs generalizing m tape with
  | nil => rfl
  | cons input rest ih =>
      have goes : m.isHeld input = false := by
        have := pressed input List.mem_cons_self
        simp [isHeld, Option.isNone_eq_false_iff.2 this]
      obtain ⟨instants, reads⟩ := host_step_tape goes tape
      have now : m.reading? tape input = some (tape.reads * d) := by
        rw [reading?, goes]
        exact congrArg some (congrFun even tape.reads)
      have later := ih (m := (m.step tape input).machine) (instants.trans even)
        fun input member => pressed input (List.mem_cons_of_mem _ member)
      rw [readings_cons, now, later, reads, List.length_cons, everySo]
      have next : ((tape.reads + 1 : Nat) : Rat) * d - d = tape.reads * d - d + d := by
        push_cast
        ring
      rw [next, sub_add_cancel]
      rfl

/-- With readings at most a period apart there is no more than one tick for every period that
passed, and no less than one for every two. -/
theorem floor_elapsed_bounds {σ : Type} [Host σ Rat] (program : List UInt8) (host : σ)
    (inputs : List Input)
    (paced : Paced period ((Host.readClock host).1 ::
      (boot program host).1.readings (boot program host).2 inputs)) :
    let booted := boot program host
    let count := (booted.1.tickTimes booted.2 inputs).length
    let seconds := elapsed (Host.readClock host).1 (booted.1.readings booted.2 inputs)
    count ≤ ⌊60 * seconds⌋ ∧ ⌊60 * seconds⌋ ≤ 2 * count := by
  intro booted count seconds
  obtain ⟨low, high⟩ := tickTimes_boot_envelope program host inputs paced
  have low : count * period ≤ seconds := low
  have high : seconds < period + count * (period + period) := high
  simp only [period] at low high
  constructor
  · rw [Int.le_floor]
    push_cast
    linarith
  · apply Int.lt_add_one_iff.1
    rw [Int.floor_lt]
    push_cast
    linarith

/-- With a clock whose readings are between half a period and a period apart, only every second
reading is a tick. -/
theorem tickTimes_even (short : d < period) (long : period ≤ 2 * d) (program : List UInt8)
    (n : Nat) :
    let booted := boot program (Tape.even d)
    let inputs : List Input := List.replicate n { press := some 0 }
    booted.1.readings booted.2 inputs = everySo d 0 n ∧
      (booted.1.tickTimes booted.2 inputs).length = n / 2 := by
  intro booted inputs
  have first : booted.1.lastTick = 0 := zero_mul d
  have pressed : ∀ input ∈ inputs, input.press.isSome := by
    intro input member
    rw [List.eq_of_mem_replicate member]
    rfl
  have readings : booted.1.readings booted.2 inputs = everySo d 0 n := by
    have all : booted.1.readings booted.2 inputs =
        everySo d (booted.2.reads * d - d) inputs.length := readings_of_press rfl pressed
    have origin : (booted.2.reads : Rat) * d - d = 0 := by
      change ((0 + 1 : Nat) : Rat) * d - d = 0
      push_cast
      ring
    rw [all, origin, List.length_replicate]
  refine ⟨readings, ?_⟩
  rw [tickTimes_eq, readings, first]
  exact length_ticksAmong_everySo short long 0 n

/-- The timers run at sixty ticks a second or less, down to half of that. If the clock readings
of a run from the start of a machine never go back and are never more than a period apart, the
number of ticks lies between half the number of whole periods that passed and that number. The
lower end is reached by some run with any number of ticks, whatever the program is, so the ticks
fall behind the periods without bound. -/
theorem tick_count_between (program : List UInt8) :
    (∀ (σ : Type) [Host σ Rat] (host : σ) (inputs : List Input),
      let booted := boot program host
      let readings := booted.1.readings booted.2 inputs
      let count := (booted.1.tickTimes booted.2 inputs).length
      let origin := (Host.readClock host).1
      Paced period (origin :: readings) →
        count ≤ ⌊60 * elapsed origin readings⌋ ∧ ⌊60 * elapsed origin readings⌋ ≤ 2 * count) ∧
      ∀ count : Nat, ∃ (tape : Tape Rat) (inputs : List Input),
        let booted := boot program tape
        let readings := booted.1.readings booted.2 inputs
        let origin := (Host.readClock tape).1
        Paced period (origin :: readings) ∧
          (booted.1.tickTimes booted.2 inputs).length = count ∧
          ⌊60 * elapsed origin readings⌋ = 2 * count := by
  constructor
  · intro σ _ host inputs booted readings count origin paced
    exact floor_elapsed_bounds program host inputs paced
  · intro count
    -- `2 * count + 1` readings that are a little less than a period apart: half a period in all
    let less : Rat := period / (4 * count + 2)
    have positive : 0 < less := by
      have : (0 : Rat) < period := by norm_num [period]
      positivity
    have half : (2 * count + 1) * less = period / 2 := by
      simp only [less]
      field_simp
      ring
    have short : period - less < period := by linarith
    have long : period ≤ 2 * (period - less) := by
      have : 0 ≤ count * less := by positivity
      linarith
    obtain ⟨readings, ticks⟩ := tickTimes_even short long program (2 * count + 1)
    refine ⟨Tape.even (period - less), List.replicate (2 * count + 1) { press := some 0 }, ?_⟩
    have origin : (Host.readClock (Tape.even (period - less))).1 = 0 := zero_mul _
    have seconds : elapsed 0 (everySo (period - less) 0 (2 * count + 1)) =
        (2 * count + 1 / 2) * period := by
      rw [elapsed, getLastD_everySo]
      push_cast
      linarith
    simp only [readings, origin, seconds]
    refine ⟨paced_everySo (by linarith) short.le 0 _, by omega, ?_⟩
    rw [Int.floor_eq_iff, period]
    push_cast
    constructor <;> linarith

/-- A jump to itself, with a clock that is read every hundredth of a second. -/
theorem tick_count_between_circle :
    let tape := Tape.even (1 / 100)
    let booted := boot [0x12, 0x00] tape
    let inputs : List Input := List.replicate 7 {}
    let readings := booted.1.readings booted.2 inputs
    let count := (booted.1.tickTimes booted.2 inputs).length
    let periods := ⌊60 * elapsed (Host.readClock tape).1 readings⌋
    Paced period ((Host.readClock tape).1 :: readings) ∧ count ≤ periods ∧ periods ≤ 2 * count := by
  intro tape booted inputs readings count periods
  have paced : Paced period ((Host.readClock tape).1 :: readings) := by decide +kernel
  exact ⟨paced, (tick_count_between [0x12, 0x00]).1 _ tape inputs paced⟩

/-- A program that sets the delay timer to five and then runs in a circle, with a clock that is
read every sixty-fourth of a second: in ten steps more than nine periods pass, but the timers
tick only five times and the delay timer still stands at one. -/
theorem ticks_fall_behind :
    let booted := boot [0x60, 0x05, 0xF0, 0x15, 0x12, 0x04] (Tape.even (1 / 64))
    let inputs : List Input := List.replicate 10 {}
    let readings := booted.1.readings booted.2 inputs
    let count := (booted.1.tickTimes booted.2 inputs).length
    let periods := ⌊60 * elapsed (Host.readClock (Tape.even (1 / 64))).1 readings⌋
    Paced period ((Host.readClock (Tape.even (1 / 64))).1 :: readings) ∧
      count = 5 ∧ periods = 9 ∧ ¬ |(count : Int) - periods| ≤ 1 ∧
      (booted.1.after booted.2 inputs).1.delay = 1 := by
  intro booted inputs readings count periods
  have origin : (Host.readClock (Tape.even (1 / 64))).1 = 0 := zero_mul _
  have sampled : readings = everySo (1 / 64) 0 10 := by decide +kernel
  have ticks : count = 5 := by
    have first : booted.1.lastTick = 0 := zero_mul _
    have among : count = (ticksAmong booted.1.lastTick readings).length := by
      rw [← tickTimes_eq]
    rw [among, sampled, first, length_ticksAmong_everySo] <;> norm_num [period]
  have passed : periods = 9 := by
    simp only [periods, sampled, origin, elapsed, getLastD_everySo]
    norm_num
  refine ⟨?_, ticks, passed, ?_, by decide +kernel⟩
  · rw [origin, sampled]
    exact paced_everySo (by norm_num) (by norm_num [period]) 0 10
  · rw [ticks, passed]
    decide

end Machine

end Chip8
