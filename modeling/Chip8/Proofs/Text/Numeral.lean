import Chip8.Text.Numeral
import Chip8.Word

/-!
# Reading numerals back

A numeral is read digit by digit, the highest first. Written numbers are read back, whatever the
width they were filled up to, so no two numbers are written alike. A numeral holds nothing but
digits, which is how a reader finds its end.
-/

namespace Chip8.Numeral

/-- The value of a digit: `0` to `9`, then `A` to `F`. -/
def digitValue? (c : Char) : Option Nat :=
  if 48 ≤ c.toNat ∧ c.toNat ≤ 57 then some (c.toNat - 48)
  else if 65 ≤ c.toNat ∧ c.toNat ≤ 70 then some (c.toNat - 55)
  else none

/-- Reads digits in base `b`, the highest first. -/
def read? (b : Nat) (cs : List Char) : Option Nat :=
  cs.foldlM (fun n c => (digitValue? c).map fun d => b * n + d) 0

/-- Digits are read back. -/
theorem digitValue?_digit {d : Nat} (h : d < 16) : digitValue? (digit d) = some d := by
  have each : ∀ d : Fin 16, digitValue? (digit d.val) = some d.val := by decide
  exact each ⟨d, h⟩

theorem read?_append_singleton (b : Nat) (cs : List Char) (c : Char) :
    read? b (cs ++ [c]) = (read? b cs).bind fun n => (digitValue? c).map fun d => b * n + d := by
  simp [read?, List.foldlM_append]

/-- Zeros in front do not count. -/
theorem read?_replicate_zero_append (b k : Nat) (cs : List Char) :
    read? b (List.replicate k '0' ++ cs) = read? b cs := by
  induction k with
  | zero => rfl
  | succ k ih =>
      have zero : digitValue? '0' = some 0 := rfl
      rw [List.replicate_succ, List.cons_append, ← ih]
      simp [read?, zero]

/-- Written digits are read back. -/
theorem read?_digits {b : Nat} (hb : 2 ≤ b) (small : b ≤ 16) (n : Nat) :
    read? b (digits b n) = some n := by
  induction n using Nat.strongRecOn with
  | ind n ih =>
      by_cases h : n < b
      · rw [digits_of_lt h]
        simp [read?, digitValue?_digit (Nat.lt_of_lt_of_le h small)]
      · have le : b ≤ n := Nat.le_of_not_lt h
        have shorter : n / b < n := Nat.div_lt_self (by omega) hb
        have last : n % b < 16 := Nat.lt_of_lt_of_le (Nat.mod_lt n (by omega)) small
        rw [digits_of_le hb le, read?_append_singleton, ih _ shorter, digitValue?_digit last]
        simp [Nat.div_add_mod]

/-- Written hexadecimal numbers are read back, whatever their width. -/
theorem read?_hex (width n : Nat) : read? 16 (hex width n).toList = some n := by
  rw [toList_hex, List.leftpad, read?_replicate_zero_append,
    read?_digits (by omega) (Nat.le_refl 16)]

/-- Written decimal numbers are read back. -/
theorem read?_decimal (n : Nat) : read? 10 (decimal n).toList = some n := by
  rw [toList_decimal, read?_digits (by omega) (by omega)]

/-- Written digits are digits of the base. -/
theorem exists_digit_of_mem_digits {b : Nat} (hb : 2 ≤ b) {n : Nat} {c : Char}
    (member : c ∈ digits b n) : ∃ d < b, c = digit d := by
  induction n using Nat.strongRecOn with
  | ind n ih =>
      by_cases h : n < b
      · rw [digits_of_lt h, List.mem_singleton] at member
        exact ⟨n, h, member⟩
      · have le : b ≤ n := Nat.le_of_not_lt h
        rw [digits_of_le hb le, List.mem_append, List.mem_singleton] at member
        obtain member | last := member
        · exact ih _ (Nat.div_lt_self (by omega) hb) member
        · exact ⟨n % b, Nat.mod_lt n (by omega), last⟩

/-- Written digits are read one by one. -/
theorem isSome_digitValue?_of_mem_digits {b : Nat} (hb : 2 ≤ b) (small : b ≤ 16) {n : Nat}
    {c : Char} (member : c ∈ digits b n) : (digitValue? c).isSome = true := by
  obtain ⟨d, below, rfl⟩ := exists_digit_of_mem_digits hb member
  rw [digitValue?_digit (Nat.lt_of_lt_of_le below small)]
  rfl

/-- A character that is no digit does not stand in a hexadecimal number. -/
theorem not_mem_hex {c : Char} (other : digitValue? c = none) (width n : Nat) :
    c ∉ (hex width n).toList := by
  intro member
  rw [toList_hex, List.leftpad, List.mem_append] at member
  have digit : (digitValue? c).isSome = true := by
    obtain filler | member := member
    · rw [List.eq_of_mem_replicate filler]
      rfl
    · exact isSome_digitValue?_of_mem_digits (by omega) (Nat.le_refl 16) member
  simp [other] at digit

/-- A character that is no digit does not stand in a decimal number. -/
theorem not_mem_decimal {c : Char} (other : digitValue? c = none) (n : Nat) :
    c ∉ (decimal n).toList := by
  intro member
  rw [toList_decimal] at member
  have digit := isSome_digitValue?_of_mem_digits (by omega) (by omega) member
  simp [other] at digit

/-- A character that is neither a digit nor a sign does not stand in a signed number. -/
theorem not_mem_signedHex {c : Char} (other : digitValue? c = none) (sign : c ≠ '-')
    (width : Nat) (z : Int) : c ∉ (signedHex width z).toList := by
  cases z with
  | ofNat n => exact not_mem_hex other width n
  | negSucc n => simp [signedHex, sign, not_mem_hex other, -toList_hex]

theorem not_mem_signedDecimal {c : Char} (other : digitValue? c = none) (sign : c ≠ '-')
    (z : Int) : c ∉ (signedDecimal z).toList := by
  cases z with
  | ofNat n => exact not_mem_decimal other n
  | negSucc n => simp [signedDecimal, sign, not_mem_decimal other, -toList_decimal]

/-- Reads digits in base `b` with an optional sign in front. -/
def readSigned? (b : Nat) : List Char → Option Int
  | '-' :: cs => (read? b cs).map fun n => -(n : Int)
  | cs => (read? b cs).map fun n => (n : Int)

/-- Without a sign a number is read as it is. -/
theorem readSigned?_of_not_mem {b : Nat} {cs : List Char} (free : '-' ∉ cs) :
    readSigned? b cs = (read? b cs).map fun n => (n : Int) := by
  unfold readSigned?
  split
  · exact absurd List.mem_cons_self free
  · rfl

/-- Behind a sign a number is read and negated. -/
theorem readSigned?_minus (b : Nat) (text : String) :
    readSigned? b ("-" ++ text).toList = (read? b text.toList).map fun n => -(n : Int) := by
  simp [readSigned?]

/-- Written signed numbers are read back, whatever their width. -/
theorem readSigned?_signedHex (width : Nat) (z : Int) :
    readSigned? 16 (signedHex width z).toList = some z := by
  cases z with
  | ofNat n =>
      rw [signedHex, readSigned?_of_not_mem (not_mem_hex rfl width n), read?_hex]
      rfl
  | negSucc n =>
      rw [signedHex, readSigned?_minus, read?_hex]
      rfl

theorem readSigned?_signedDecimal (z : Int) : readSigned? 10 (signedDecimal z).toList = some z := by
  cases z with
  | ofNat n =>
      rw [signedDecimal, readSigned?_of_not_mem (not_mem_decimal rfl n), read?_decimal]
      rfl
  | negSucc n =>
      rw [signedDecimal, readSigned?_minus, read?_decimal]
      rfl

/-- A decimal number holds nothing but decimal digits. -/
theorem isDigit_of_mem_decimal {n : Nat} {c : Char} (member : c ∈ (decimal n).toList) :
    c.isDigit = true := by
  have each : ∀ d : Fin 10, (digit d.val).isDigit = true := by decide
  rw [toList_decimal] at member
  obtain ⟨d, small, rfl⟩ := exists_digit_of_mem_digits (by omega) member
  exact each ⟨d, small⟩

/-- The last digit of a number that is filled up stands behind the number before it. -/
theorem leftpad_digits_succ {b : Nat} (hb : 2 ≤ b) {k : Nat} (hk : 0 < k) (n : Nat) :
    (digits b n).leftpad (k + 1) '0' =
      (digits b (n / b)).leftpad k '0' ++ [digit (n % b)] := by
  by_cases h : n < b
  · obtain ⟨k, rfl⟩ : ∃ j, k = j + 1 := ⟨k - 1, by omega⟩
    have zero : digit 0 = '0' := rfl
    rw [digits_of_lt h, Nat.div_eq_of_lt h, Nat.mod_eq_of_lt h, digits_of_lt (by omega), zero]
    simp [List.leftpad, List.replicate_succ']
  · rw [digits_of_le hb (Nat.le_of_not_lt h)]
    simp [List.leftpad]

/-- A word in four digits shows its nibbles. -/
theorem toList_hex_word (w : Word) :
    (hex 4 w.toNat).toList = w.nibbles.map fun d => digit d.val := by
  have bound := w.toNat_lt
  have first : w.toNat / 16 / 16 / 16 < 16 := by omega
  rw [toList_hex, leftpad_digits_succ (by omega) (by omega),
    leftpad_digits_succ (by omega) (by omega), leftpad_digits_succ (by omega) (by omega),
    digits_of_lt first]
  simp [List.leftpad, Word.nibbles, Word.family, Word.x, Word.y, Word.nibble,
    Nat.div_div_eq_div_mul]

end Chip8.Numeral
