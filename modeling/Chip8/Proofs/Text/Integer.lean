import Chip8.Proofs.Text.Numeral
import Chip8.Text.Integer

/-!
# Reading written integers

An integer that is written in decimal is read back, unless it has more digits than are read. A
negative one looks like one.
-/

namespace Chip8

namespace Numeral

/-- The decimal digits of a number are numbers below ten, and these make up the number. -/
theorem exists_digits_eq (n : Nat) :
    ∃ ds : List Nat, digits 10 n = ds.map digit ∧ (∀ d ∈ ds, d < 10) ∧ Integer.ofDigits ds = n := by
  induction n using Nat.strongRecOn with
  | ind n ih =>
      by_cases h : n < 10
      · exact ⟨[n], digits_of_lt h, by simpa using h, by simp [Integer.ofDigits]⟩
      · obtain ⟨ds, written, small, value⟩ := ih (n / 10) (Nat.div_lt_self (by omega) (by decide))
        refine ⟨ds ++ [n % 10], ?_, ?_, ?_⟩
        · rw [digits_of_le (by decide) (Nat.le_of_not_lt h), written, List.map_append]
          rfl
        · intro d member
          obtain member | last := List.mem_append.1 member
          · exact small d member
          · rw [List.mem_singleton.1 last]
            exact Nat.mod_lt n (by decide)
        · rw [Integer.ofDigits, List.foldl_append, ← Integer.ofDigits, value]
          simp only [List.foldl_cons, List.foldl_nil]
          omega

theorem decimal_ne_nil (n : Nat) : (decimal n).toList ≠ [] := by
  rw [toList_decimal]
  exact digits_ne_nil 10 n

theorem value?_digit {d : Nat} (small : d < 10) : DecimalDigit.value? (digit d) = some d := by
  revert d
  decide

theorem isBlank_digit {d : Nat} (small : d < 10) : Integer.isBlank (digit d) = false := by
  revert d
  decide

theorem digit_ne_underscore {d : Nat} (small : d < 10) : digit d ≠ '_' := by
  revert d
  decide

end Numeral

namespace Integer

/-- Text without blanks is kept. -/
theorem trim_of_not_blank {cs : List Char} (solid : ∀ c ∈ cs, isBlank c = false) :
    trim cs = cs := by
  have kept {ds : List Char} (solid : ∀ c ∈ ds, isBlank c = false) : ds.dropWhile isBlank = ds := by
    cases ds with
    | nil => rfl
    | cons c ds => exact List.dropWhile_cons_of_neg (by simp [solid c])
  rw [trim, kept solid, kept fun c member => solid c (List.mem_reverse.1 member),
    List.reverse_reverse]

/-- Digits in a row are read one by one. -/
theorem digitValues?_map_digit {ds : List Nat} (nonempty : ds ≠ []) (small : ∀ d ∈ ds, d < 10) :
    digitValues? (ds.map Numeral.digit) = some ds := by
  induction ds with
  | nil => contradiction
  | cons d ds ih =>
      have value := Numeral.value?_digit (small d List.mem_cons_self)
      cases ds with
      | nil => simp [digitValues?, value]
      | cons e ds =>
          have rest := ih (by simp) fun f member => small f (List.mem_cons_of_mem d member)
          have next := Numeral.digit_ne_underscore (small e (by simp))
          rw [List.map_cons, List.map_cons, digitValues?]
          · rw [← List.map_cons, rest, value]
          · simp
          · intro _ begins
            exact next (List.cons.inj begins).1

/-- Written digits are read back, unless there are more than are read. -/
theorem readNat?_digits {n : Nat} (short : (Numeral.digits 10 n).length ≤ maxDigits) :
    readNat? (Numeral.digits 10 n) = some n := by
  obtain ⟨ds, written, small, value⟩ := Numeral.exists_digits_eq n
  have nonempty : ds ≠ [] := by
    rintro rfl
    exact Numeral.digits_ne_nil 10 n written
  rw [written, List.length_map] at short
  rw [written, readNat?, digitValues?_map_digit nonempty small]
  simp [short, value]

/-- A number without a sign is read as it is. -/
theorem readSigned?_of_not_mem {cs : List Char} (minus : '-' ∉ cs) (plus : '+' ∉ cs) :
    readSigned? cs = (readNat? cs).map fun n => (n : Int) := by
  unfold readSigned?
  split
  · exact absurd List.mem_cons_self minus
  · exact absurd List.mem_cons_self plus
  · rfl

/-- A written number holds no blanks. -/
theorem isBlank_of_mem_decimal {n : Nat} {c : Char} (member : c ∈ (Numeral.decimal n).toList) :
    isBlank c = false := by
  rw [Numeral.toList_decimal] at member
  obtain ⟨d, small, rfl⟩ := Numeral.exists_digit_of_mem_digits (by decide) member
  exact Numeral.isBlank_digit small

/-- A written integer is read back, unless it has more digits than are read. -/
theorem read?_signedDecimal {z : Int}
    (short : (Numeral.decimal z.natAbs).toList.length ≤ maxDigits) :
    read? (Numeral.signedDecimal z) = some z := by
  rw [Numeral.toList_decimal] at short
  cases z with
  | ofNat n =>
      rw [read?, Numeral.signedDecimal, trim_of_not_blank fun _ => isBlank_of_mem_decimal,
        readSigned?_of_not_mem (Numeral.not_mem_decimal rfl n) (Numeral.not_mem_decimal rfl n),
        Numeral.toList_decimal, readNat?_digits (n := n) short]
      rfl
  | negSucc n =>
      have solid : ∀ c ∈ '-' :: (Numeral.decimal (n + 1)).toList, isBlank c = false := by
        intro c member
        obtain rfl | member := List.mem_cons.1 member
        · rfl
        · exact isBlank_of_mem_decimal member
      rw [read?, Numeral.signedDecimal, String.toList_append]
      change readSigned? (trim ('-' :: (Numeral.decimal (n + 1)).toList)) = _
      rw [trim_of_not_blank solid, readSigned?, Numeral.toList_decimal,
        readNat?_digits (n := n + 1) short]
      rfl

/-- A negative integer looks like one. -/
theorem looksNegative_decimal (n : Nat) :
    looksNegative ('-' :: (Numeral.decimal n).toList) = true := by
  have digits : ∀ c ∈ (Numeral.decimal n).toList, DecimalDigit.isDigit c = true := by
    intro c member
    rw [Numeral.toList_decimal] at member
    obtain ⟨d, small, rfl⟩ := Numeral.exists_digit_of_mem_digits (by decide) member
    rw [DecimalDigit.isDigit, Numeral.value?_digit small]
    rfl
  have unbroken : dropFinalBreak (Numeral.decimal n).toList = (Numeral.decimal n).toList := by
    apply if_neg
    intro last
    exact Numeral.not_mem_decimal rfl n (List.mem_of_getLast? last)
  have passed : (Numeral.decimal n).toList.dropWhile DecimalDigit.isDigit = [] := by
    rw [← List.append_nil (Numeral.decimal n).toList, List.dropWhile_append_of_pos digits]
    rfl
  have nonempty := List.isEmpty_eq_false_iff.2 (Numeral.decimal_ne_nil n)
  simp only [looksNegative, unbroken, passed, nonempty]
  rfl

end Integer

end Chip8
