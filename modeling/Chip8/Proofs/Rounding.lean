import Chip8.Rounding
import Mathlib.Algebra.Order.Floor.Ring
import Mathlib.Data.Rat.Floor
import Mathlib.Tactic.FieldSimp
import Mathlib.Tactic.Linarith
import Mathlib.Tactic.Positivity

/-!
# What rounding keeps

Rounding to 53 binary digits moves a number by at most half the place of its last digit, and below
`2 ^ 53` it does not move it past a whole number. A quotient of whole numbers that is not whole
itself is too far from the next whole number to be rounded to it. So its whole part is kept.
-/

namespace Chip8.Rounding

theorem le_whole {n : Int} {x : Rat} (below : n ≤ x) : n ≤ whole x := by
  have low : n ≤ x.floor := Rat.le_floor_iff.2 below
  have rest : 0 ≤ x.floor % 2 := Int.emod_nonneg _ (by decide)
  unfold whole
  dsimp only
  split
  · exact low
  · split <;> omega

theorem whole_le (x : Rat) : whole x ≤ x + 1 / 2 := by
  have low : (x.floor : Rat) ≤ x := Rat.floor_le x
  have parity : ((x.floor % 2 : Int) : Rat) ≤ 1 := by exact_mod_cast (by omega : x.floor % 2 ≤ 1)
  unfold whole
  dsimp only
  split
  · linarith
  · split
    · push_cast
      linarith
    · push_cast
      linarith

/-- The highest binary digit of a number is no more than the number. -/
theorem two_zpow_place_le {x : Rat} (nonzero : x ≠ 0) : (2 : Rat) ^ place x ≤ |x| := by
  unfold place
  dsimp only
  split
  · have num : (2 : Rat) ^ x.num.natAbs.log2 ≤ x.num.natAbs := by
      exact_mod_cast Nat.log2_self_le (Int.natAbs_ne_zero.2 (Rat.num_ne_zero.2 nonzero))
    have den : (x.den : Rat) ≤ 2 ^ (x.den.log2 + 1) := by
      exact_mod_cast Nat.lt_log2_self.le
    have value : |x| = x.num.natAbs / x.den := by
      conv_lhs => rw [← Rat.num_div_den x]
      rw [abs_div, Nat.cast_natAbs, Int.cast_abs, Nat.abs_cast]
    have digit : (x.num.natAbs.log2 : Int) - x.den.log2 - 1 =
        x.num.natAbs.log2 - ((x.den.log2 + 1 : Nat) : Int) := by
      push_cast
      ring
    rw [digit, zpow_sub₀ two_ne_zero, zpow_natCast, zpow_natCast, value]
    exact div_le_div₀ (Nat.cast_nonneg _) num (Nat.cast_pos.2 x.den_pos) den
  · rename_i outside
    rw [← abs_lt, not_lt] at outside
    exact outside

/-- Half the place of the last digit that is kept. -/
theorem unit_le {x : Rat} (nonzero : x ≠ 0) : unit x / 2 ≤ |x| / 2 ^ 53 := by
  have highest := two_zpow_place_le nonzero
  have last : unit x / 2 = 2 ^ place x / 2 ^ 53 := by
    rw [unit, zpow_sub₀ two_ne_zero, div_div]
    norm_num
  rw [last]
  gcongr

/-- Below `2 ^ 53` the last digit that is kept is whole or behind the point. -/
theorem exists_unit_eq {x : Rat} (nonzero : x ≠ 0) (small : |x| < 2 ^ 53) :
    ∃ k : Nat, unit x = 1 / 2 ^ k := by
  have highest := two_zpow_place_le nonzero
  have below : place x < 53 := by
    apply (zpow_lt_zpow_iff_right₀ (a := (2 : Rat)) one_lt_two).1
    exact_mod_cast highest.trans_lt small
  refine ⟨(52 - place x).toNat, ?_⟩
  rw [unit, one_div, ← zpow_natCast, ← zpow_neg]
  congr 1
  omega

/-- Below `2 ^ 53` a number is not rounded to below a whole number that is not above it. -/
theorem le_nearest {n : Int} {x : Rat} (small : |x| < 2 ^ 53) (below : n ≤ x) :
    n ≤ nearest x := by
  unfold nearest
  split
  · exact below
  · rename_i long
    have nonzero : x ≠ 0 := by
      rintro rfl
      exact long rfl
    obtain ⟨k, digit⟩ := exists_unit_eq nonzero small
    rw [digit, div_div_eq_mul_div, div_one, mul_one_div]
    have pos : (0 : Rat) < 2 ^ k := by positivity
    rw [le_div_iff₀ pos]
    have moved : ((n * 2 ^ k : Int) : Rat) ≤ x * 2 ^ k := by
      push_cast
      gcongr
    exact_mod_cast le_whole moved

/-- Rounding moves a number up by at most half the place of its last digit. -/
theorem nearest_le (x : Rat) : nearest x ≤ x + |x| / 2 ^ 53 := by
  unfold nearest
  split
  · have : 0 ≤ |x| / 2 ^ 53 := by positivity
    linarith
  · rename_i long
    have nonzero : x ≠ 0 := by
      rintro rfl
      exact long rfl
    have half := unit_le nonzero
    have pos : 0 < unit x := zpow_pos two_pos _
    calc whole (x / unit x) * unit x ≤ (x / unit x + 1 / 2) * unit x := by
          gcongr
          exact whole_le _
      _ = x + unit x / 2 := by field_simp
      _ ≤ x + |x| / 2 ^ 53 := by linarith

/-- The whole part of a quotient is kept. -/
theorem floor_nearest_div {a b : Int} (small : a.natAbs < 0x20000000000000) (pos : 0 < b) :
    (nearest (a / b)).floor = a / b := by
  have denominator : (0 : Rat) < b := Int.cast_pos.2 pos
  have bound : |(a : Rat)| < 2 ^ 53 := by
    rw [← Int.cast_abs, Int.abs_eq_natAbs]
    exact_mod_cast small
  have size : |(a / b : Rat)| = |(a : Rat)| / b := by rw [abs_div, abs_of_pos denominator]
  have shorter : |(a / b : Rat)| < 2 ^ 53 := by
    rw [size]
    exact (div_le_self (abs_nonneg _) (by exact_mod_cast pos)).trans_lt bound
  change ⌊nearest (a / b)⌋ = a / b
  rw [Int.floor_eq_iff]
  constructor
  · apply le_nearest shorter
    rw [le_div_iff₀ denominator]
    exact_mod_cast Int.ediv_mul_le a pos.ne'
  · -- The next whole number is a `b`-th away at least, and rounding moves by less.
    have away : (a / b : Rat) + 1 / b ≤ (a / b : Int) + 1 := by
      rw [← add_div, div_le_iff₀ denominator]
      exact_mod_cast Int.lt_ediv_add_one_mul_self a pos
    have moved : |(a / b : Rat)| / 2 ^ 53 < 1 / b := by
      rw [size, div_div, mul_comm, ← div_div, div_lt_div_iff_of_pos_right denominator]
      exact (div_lt_one (by positivity)).2 bound
    linarith [nearest_le (a / b)]

end Chip8.Rounding
