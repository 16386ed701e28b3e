import Chip8.Console.Speaker
import Chip8.Proofs.Rounding
import Mathlib.Tactic.LinearCombination

/-!
# The form of a square wave

Without rounding, a sample of a square wave is high exactly if the whole part of its phase is odd.
A speaker plays a tenth of a second of its wave again and again. What it plays is the wave itself
exactly if the tone is a multiple of ten hertz; any other tone jumps where the sound starts again.
With numbers below `2 ^ 53` the samples as they are computed are the samples without rounding.
-/

namespace Chip8

namespace Wave

/-- The part of a phase that is left over by its periods, each of two half periods. -/
def withinPeriod (phase : Rat) : Rat :=
  phase - 2 * (phase / 2).floor

/-- The level at a phase: a period is low for its first half and high for its second. -/
def periodLevel (phase : Rat) : Int :=
  ((if 1 ≤ withinPeriod phase then 1 else 0) * 2 - 1) * 32767

/-- The second half of a period is where the whole part of a phase is odd. -/
theorem one_le_withinPeriod_iff (phase : Rat) :
    1 ≤ withinPeriod phase ↔ phase.floor % 2 = 1 := by
  have low : ((phase / 2).floor : Rat) ≤ phase / 2 := Rat.floor_le _
  have high : phase / 2 < (phase / 2).floor + 1 := by
    exact_mod_cast Rat.lt_floor_add_one (phase / 2)
  unfold withinPeriod
  generalize (phase / 2).floor = periods at low high ⊢
  by_cases second : 2 * (periods : Rat) + 1 ≤ phase
  · have whole : ⌊phase⌋ = 2 * periods + 1 := by
      rw [Int.floor_eq_iff]
      push_cast
      constructor <;> linarith
    change _ ↔ ⌊phase⌋ % 2 = 1
    rw [whole]
    refine iff_of_true (by linarith) (by omega)
  · have whole : ⌊phase⌋ = 2 * periods := by
      rw [Int.floor_eq_iff]
      push_cast
      constructor <;> linarith
    change _ ↔ ⌊phase⌋ % 2 = 1
    rw [whole]
    refine iff_of_false (by linarith) (by omega)

theorem periodLevel_eq_level (phase : Rat) : periodLevel phase = level phase := by
  simp only [periodLevel, level, one_le_withinPeriod_iff]
  split <;> rfl

/-- The value of sample `t` without rounding. -/
def exactSample (tone rate : Int) (t : Nat) : Int :=
  periodLevel (exactPhase tone rate t)

/-- The first `n` samples without rounding. -/
def exactSamples (tone rate : Int) (n : Nat) : List Int :=
  (List.range n).map (exactSample tone rate)

theorem getElem?_exactSamples (tone rate : Int) {n t : Nat} (inside : t < n) :
    (exactSamples tone rate n)[t]? = some (exactSample tone rate t) := by
  simp [exactSamples, inside]

/-- Without rounding the whole part of a phase is a floored quotient. -/
theorem floor_exactPhase {tone rate : Int} (pos : 0 < rate) (t : Nat) :
    (exactPhase tone rate t).floor = 2 * t * tone / rate := by
  obtain ⟨r, rfl⟩ := Int.eq_ofNat_of_zero_le pos.le
  change ⌊((2 * t * tone : Int) : Rat) / ((r : Int) : Rat)⌋ = _
  rw [Int.cast_natCast, Rat.floor_intCast_div_natCast]

/-- Without rounding a sample is high where the whole part of its phase is odd. -/
theorem exactSample_eq {tone rate : Int} (pos : 0 < rate) (t : Nat) :
    exactSample tone rate t = if 2 * t * tone / rate % 2 = 1 then 32767 else -32767 := by
  rw [exactSample, periodLevel_eq_level, level, floor_exactPhase pos]

/-- Only the parity of the whole part of a phase is heard. -/
theorem exactSample_eq_iff {tone rate : Int} (pos : 0 < rate) (s t : Nat) :
    exactSample tone rate s = exactSample tone rate t ↔
      2 * s * tone / rate % 2 = 2 * t * tone / rate % 2 := by
  rw [exactSample_eq pos, exactSample_eq pos]
  split <;> split <;> omega

/-- At the speaker's rate, a tone is heard without a seam exactly if it is a multiple of ten. -/
theorem seamless_iff (tone : Int) :
    (∀ t : Nat, exactSample tone defaultRate (t % defaultCount) = exactSample tone defaultRate t) ↔
      10 ∣ tone := by
  have pos : 0 < defaultRate := by decide
  simp only [exactSample_eq_iff pos]
  simp only [defaultRate, defaultCount]
  constructor
  · -- Every sound starts low. So does every later one if there is no seam, but with any other
    -- tone one of the next five starts high.
    intro seamless
    have start (k : Nat) : k * tone / 5 % 2 = 0 := by
      have again := seamless (4410 * k)
      have phase : 2 * ((4410 * k : Nat) : Int) * tone / 44100 = k * tone / 5 := by
        push_cast
        rw [← Int.mul_ediv_mul_of_pos_left (k * tone) 5 (by decide : (0 : Int) < 8820)]
        congr 1
        ring
      rw [phase, Nat.mul_mod_right] at again
      simpa using again.symm
    have second := start 1
    have third := start 2
    have fourth := start 3
    have sixth := start 5
    push_cast at second third fourth sixth
    have rest : tone % 10 < 5 := by omega
    have rest : tone % 10 < 3 := by omega
    have rest : tone % 10 < 2 := by omega
    have rest : tone % 10 < 1 := by omega
    omega
  · rintro ⟨k, rfl⟩ t
    -- A sound holds `k` whole periods.
    have phase : 2 * (t : Int) * (10 * k) / 44100 =
        2 * ((t % 4410 : Nat) : Int) * (10 * k) / 44100 + 2 * (t / 4410 * k) := by
      rw [← Int.add_mul_ediv_right _ _ (by decide : (44100 : Int) ≠ 0)]
      congr 1
      have parts : (t : Int) = t % 4410 + 4410 * (t / 4410) := (Int.emod_add_mul_ediv _ _).symm
      push_cast
      linear_combination 20 * k * parts
    rw [phase]
    omega

/-- The samples as they are computed are the samples without rounding, as long as the rate and
twice the product of sample and tone stay below `2 ^ 53`. -/
theorem sample_eq_exactSample {tone rate : Int} {t : Nat} (pos : 0 < rate)
    (rateSmall : rate < 0x20000000000000) (small : (2 * t * tone).natAbs < 0x20000000000000) :
    sample tone rate t = exactSample tone rate t := by
  have width : Width.signed64 (2 * t * tone) = 2 * t * tone :=
    of_decide_eq_true (Width.fits64_iff.2 (by omega))
  have whole : (phase tone rate t).floor = 2 * t * tone / rate := by
    rw [phase, width, Rounding.nearest_intCast small, Rounding.nearest_intCast (by omega),
      Rounding.floor_nearest_div small pos]
  rw [exactSample_eq pos, sample, level, whole]

/-- Square waves and the seam of their loop. Without rounding, sample `t` is high exactly if the
whole part of `2 * t * tone / rate` is odd, and low otherwise. Played again and again, the samples
of the speaker's sound are the wave itself exactly if the tone is a multiple of ten. The samples as
they are computed are those without rounding as long as the numbers stay below `2 ^ 53`, and so is
the sound that a speaker holds. -/
theorem loop_has_no_seam_iff :
    (∀ (tone rate : Int) (n t : Nat), 0 < rate → t < n →
      (exactSamples tone rate n)[t]? =
        some (if (2 * t * tone).fdiv rate % 2 = 1 then 32767 else -32767)) ∧
    (∀ tone : Int,
      (∀ t : Nat, (exactSamples tone defaultRate defaultCount)[t % defaultCount]? =
        some (exactSample tone defaultRate t)) ↔ 10 ∣ tone) ∧
    (∀ (tone rate : Int) (n : Nat), 0 < rate → rate < 0x20000000000000 →
      (∀ t < n, (2 * t * tone).natAbs < 0x20000000000000) →
        samples tone rate n = exactSamples tone rate n) ∧
    ∀ (tone : Int) (channels : Nat), (8818 * tone).natAbs < 0x20000000000000 →
      (Speaker.create (.ready channels) tone).1.sound =
        some ⟨channels, exactSamples tone defaultRate defaultCount⟩ := by
  have same (tone rate : Int) (n : Nat) (pos : 0 < rate) (rateSmall : rate < 0x20000000000000)
      (small : ∀ t < n, (2 * t * tone).natAbs < 0x20000000000000) :
      samples tone rate n = exactSamples tone rate n := by
    apply List.map_congr_left
    intro t member
    exact sample_eq_exactSample pos rateSmall (small t (List.mem_range.1 member))
  refine ⟨?_, ?_, same, ?_⟩
  · intro tone rate n t pos inside
    rw [getElem?_exactSamples tone rate inside, exactSample_eq pos,
      Int.fdiv_eq_ediv_of_nonneg _ pos.le]
  · intro tone
    have buffer (t : Nat) := getElem?_exactSamples tone defaultRate
      (Nat.mod_lt t (by decide : 0 < defaultCount))
    simp only [buffer, Option.some_inj]
    exact seamless_iff tone
  · intro tone channels small
    have each : ∀ t < defaultCount, (2 * t * tone).natAbs < 0x20000000000000 := by
      intro t inside
      simp only [defaultCount] at inside
      have longest : 2 * t ≤ 8818 := by omega
      calc (2 * t * tone).natAbs = 2 * t * tone.natAbs := by simp [Int.natAbs_mul]
        _ ≤ 8818 * tone.natAbs := Nat.mul_le_mul_right _ longest
        _ = (8818 * tone).natAbs := by simp [Int.natAbs_mul]
        _ < 0x20000000000000 := small
    rw [← same tone defaultRate defaultCount (by decide) (by decide) each]
    rfl

/-- A tone below zero starts high behind its first sample, and a tone of 441 hertz clicks: a stereo
speaker holds its samples without rounding, and they are not the wave. -/
theorem loop_has_no_seam_iff_clicks :
    (0 : Int) < 44100 ∧ 1 < 4410 ∧ (exactSamples (-441) 44100 4410)[1]? = some 32767 ∧
      (8818 * 441 : Int).natAbs < 0x20000000000000 ∧
      (Speaker.create (.ready 2) 441).1.sound =
        some ⟨2, exactSamples 441 defaultRate defaultCount⟩ ∧
      ¬ ∀ t : Nat, (exactSamples 441 defaultRate defaultCount)[t % defaultCount]? =
        some (exactSample 441 defaultRate t) := by
  obtain ⟨parity, seam, -, speaker⟩ := loop_has_no_seam_iff
  refine ⟨by decide, by decide, parity (-441) 44100 4410 1 (by decide) (by decide), by decide,
    speaker 441 2 (by decide), ?_⟩
  rw [seam]
  decide

end Wave

end Chip8
