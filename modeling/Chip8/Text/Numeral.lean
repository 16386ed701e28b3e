/-!
# Positional numerals

A natural number is written most significant digit first and without leading
zeros; a width fills it up with zeros on the left. A sign counts as part of the
width.
-/

namespace Chip8.Numeral

/-- The character of one digit: `0` to `9`, then `A` to `F`. -/
def digit (d : Nat) : Char :=
  Char.ofNat (if d < 10 then 48 + d else 55 + d)

/-- The digits of `n` in base `b`. A base below two leaves the single digit `n`. -/
def digits (b n : Nat) : List Char :=
  if 2 ≤ b ∧ b ≤ n then digits b (n / b) ++ [digit (n % b)] else [digit n]
termination_by n
decreasing_by exact Nat.div_lt_self (by omega) (by omega)

theorem digits_of_lt {b n : Nat} (h : n < b) : digits b n = [digit n] := by
  rw [digits, if_neg (by omega)]

theorem digits_of_le {b n : Nat} (hb : 2 ≤ b) (h : b ≤ n) :
    digits b n = digits b (n / b) ++ [digit (n % b)] := by
  rw [digits, if_pos ⟨hb, h⟩]

theorem digits_ne_nil (b n : Nat) : digits b n ≠ [] := by
  rw [digits]
  split <;> simp

/-- Decimal digits. -/
def decimal (n : Nat) : String :=
  String.ofList (digits 10 n)

/-- Decimal digits of an integer. -/
def signedDecimal : Int → String
  | .ofNat n => decimal n
  | .negSucc n => "-" ++ decimal (n + 1)

/-- Hexadecimal digits, at least `width` of them. -/
def hex (width n : Nat) : String :=
  String.ofList ((digits 16 n).leftpad width '0')

/-- Hexadecimal digits of an integer; a minus sign takes one place of the width. -/
def signedHex (width : Nat) : Int → String
  | .ofNat n => hex width n
  | .negSucc n => "-" ++ hex (width - 1) (n + 1)

@[simp] theorem toList_decimal (n : Nat) : (decimal n).toList = digits 10 n :=
  String.toList_ofList

@[simp] theorem toList_hex (width n : Nat) :
    (hex width n).toList = (digits 16 n).leftpad width '0' :=
  String.toList_ofList

end Chip8.Numeral
