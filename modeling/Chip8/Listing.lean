import Chip8.Instruction.Encoding
import Chip8.Instruction.Mnemonic

/-!
# Program listings

A program is listed one word a line: address, word, assembly text. The last byte of
a program of odd length is listed as the high byte of a word that ends in zero.
-/

namespace Chip8

/-- One line of a listing. -/
structure ListingLine where
  /-- Where the word stands; a listing may start at any integer. -/
  address : Int
  word : Word
deriving DecidableEq, Repr

namespace ListingLine

/-- The assembly text of the line's word. -/
def mnemonic (l : ListingLine) : String :=
  (Instruction.decode l.word).mnemonic

/-- The printed line. -/
def text (l : ListingLine) : String :=
  "0x" ++ Numeral.signedHex 3 l.address ++ ": " ++ Numeral.hex 4 l.word.toNat ++ "  " ++
    l.mnemonic

end ListingLine

namespace Listing

/-- Where programs are loaded, and where a listing starts unless told otherwise. -/
def defaultOrigin : Int := 0x200

/-- The lines of a program that starts at `origin`. -/
def lines : List UInt8 → Int → List ListingLine
  | [], _ => []
  | [high], origin => [⟨origin, .ofBytes high 0⟩]
  | high :: low :: rest, origin => ⟨origin, .ofBytes high low⟩ :: lines rest (origin + 2)

/-- The printed listing, lines separated by line breaks. -/
def text (program : List UInt8) (origin : Int) : String :=
  "\n".intercalate ((lines program origin).map ListingLine.text)

@[simp] theorem lines_nil (origin : Int) : lines [] origin = [] := rfl

theorem lines_pair (high low : UInt8) (rest : List UInt8) (origin : Int) :
    lines (high :: low :: rest) origin =
      ⟨origin, .ofBytes high low⟩ :: lines rest (origin + 2) := rfl

/-- Line `n` shows the bytes `2 * n` and `2 * n + 1`, if there are any. -/
theorem getElem?_lines (p : List UInt8) (origin : Int) (n : Nat) :
    (lines p origin)[n]? =
      (p[2 * n]?).map fun high => ⟨origin + 2 * n, .ofBytes high (p.getD (2 * n + 1) 0)⟩ := by
  induction p, origin using lines.induct generalizing n with
  | case1 => simp
  | case2 origin high =>
      cases n with
      | zero => simp [lines]
      | succ n => simp [lines]
  | case3 high low rest origin ih =>
      cases n with
      | zero => simp [lines_pair]
      | succ n =>
          have place : 2 * (n + 1) = 2 * n + 1 + 1 := by omega
          have address : origin + 2 + 2 * (n : Int) = origin + 2 * ((n + 1 : Nat) : Int) := by
            omega
          rw [lines_pair, List.getElem?_cons_succ, ih, place, List.getElem?_cons_succ,
            List.getElem?_cons_succ, address]
          rfl

/-- An odd last byte is padded with a zero byte. -/
theorem lines_append_zero (p : List UInt8) (origin : Int) (h : p.length % 2 = 1) :
    lines (p ++ [0]) origin = lines p origin := by
  induction p, origin using lines.induct with
  | case1 => simp at h
  | case2 => rfl
  | case3 high low rest origin ih =>
      simp only [List.length_cons] at h
      simp only [List.cons_append, lines_pair]
      rw [ih (by omega)]

end Listing

end Chip8
