import Chip8.Text.DecimalDigit

/-!
# Reading integers

An integer is written in decimal digits of any script, with an optional sign in front
and blanks around it. Single underscores may separate digits. More than 4300 digits
are refused.
-/

namespace Chip8.Integer

/-- Characters that may surround an integer. -/
def isBlank (c : Char) : Bool :=
  let n := c.toNat
  (0x09 ≤ n && n ≤ 0x0D) || n = 0x20 || n = 0x85 || n = 0xA0 || n = 0x1680 ||
    (0x2000 ≤ n && n ≤ 0x200A) || n = 0x2028 || n = 0x2029 || n = 0x202F || n = 0x205F ||
    n = 0x3000

/-- Text without the blanks around it. -/
def trim (cs : List Char) : List Char :=
  ((cs.dropWhile isBlank).reverse.dropWhile isBlank).reverse

/-- The values of digits, some of which are separated by single underscores. -/
def digitValues? : List Char → Option (List Nat)
  | [] => none
  | [c] => (DecimalDigit.value? c).map fun d => [d]
  | c :: '_' :: rest =>
      match DecimalDigit.value? c, digitValues? rest with
      | some d, some ds => some (d :: ds)
      | _, _ => none
  | c :: rest =>
      match DecimalDigit.value? c, digitValues? rest with
      | some d, some ds => some (d :: ds)
      | _, _ => none

/-- The most digits that are read. -/
def maxDigits : Nat := 4300

/-- The number with given decimal digits, the highest first. -/
def ofDigits (ds : List Nat) : Nat :=
  ds.foldl (fun n d => 10 * n + d) 0

/-- Reads a number without a sign. -/
def readNat? (cs : List Char) : Option Nat :=
  match digitValues? cs with
  | some ds => if ds.length ≤ maxDigits then some (ofDigits ds) else none
  | none => none

/-- Reads a number with an optional sign. -/
def readSigned? : List Char → Option Int
  | '-' :: rest => (readNat? rest).map fun n => -(n : Int)
  | '+' :: rest => (readNat? rest).map fun n => (n : Int)
  | cs => (readNat? cs).map fun n => (n : Int)

/-- Reads an integer. -/
def read? (s : String) : Option Int :=
  readSigned? (trim s.toList)

/-- Drops one line break at the end. -/
def dropFinalBreak (cs : List Char) : List Char :=
  if cs.getLast? = some '\n' then cs.dropLast else cs

/-- Whether text looks like a negative number: a minus sign and digits, with at most
one point among them and at least one digit at the end. -/
def looksNegative : List Char → Bool
  | '-' :: rest =>
      let body := dropFinalBreak rest
      match body.dropWhile DecimalDigit.isDigit with
      | [] => !body.isEmpty
      | '.' :: fraction => !fraction.isEmpty && fraction.all DecimalDigit.isDigit
      | _ => false
  | _ => false

end Chip8.Integer
