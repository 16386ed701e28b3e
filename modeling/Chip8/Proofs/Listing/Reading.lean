import Chip8.Listing
import Chip8.Proofs.Instruction.Line

/-!
# Reading listings back

A printed listing is cut at its line breaks, and in each line the word stands behind the first
colon that a blank follows. No line holds a line break and no address holds a colon, so both are
found again, and the words give back the program, up to the byte that fills up an odd length.
-/

namespace Chip8

namespace Word

/-- The two bytes of a word, the high one first. -/
def bytes (w : Word) : List UInt8 :=
  [UInt8.ofNat (w.toNat / 256), UInt8.ofNat (w.toNat % 256)]

theorem bytes_ofBytes (high low : UInt8) : (ofBytes high low).bytes = [high, low] := by
  have small := low.toNat_lt
  have first : (high.toNat * 256 + low.toNat) / 256 = high.toNat := by omega
  have second : (high.toNat * 256 + low.toNat) % 256 = low.toNat := by omega
  rw [bytes, toNat_ofBytes, first, second, UInt8.ofNat_toNat, UInt8.ofNat_toNat]

end Word

namespace ListingLine

/-- What stands in front of the word of a line. -/
def place (l : ListingLine) : String :=
  "0x" ++ Numeral.signedHex 3 l.address

/-- A line starts with its place, and the word follows a colon and a blank. -/
theorem text_eq (l : ListingLine) :
    l.text = l.place ++ (": " ++ (Numeral.hex 4 l.word.toNat ++ ("  " ++ l.mnemonic))) := by
  simp only [text, place, String.append_assoc]

theorem colon_not_mem_place (l : ListingLine) : ':' ∉ l.place.toList := by
  have address := Numeral.not_mem_signedHex (c := ':') rfl (by decide) 3 l.address
  simp [place, address]

/-- No line holds a line break. -/
theorem break_not_mem_text (l : ListingLine) : '\n' ∉ l.text.toList := by
  have address := Numeral.not_mem_signedHex (c := '\n') rfl (by decide) 3 l.address
  have word := Numeral.not_mem_hex (c := '\n') rfl 4 l.word.toNat
  have assembly := Instruction.break_not_mem_line (Instruction.decode l.word).numbers
  simp only [text, mnemonic, Instruction.mnemonic, String.toList_append, List.mem_append, not_or]
  exact ⟨⟨⟨⟨⟨by decide, address⟩, by decide⟩, word⟩, by decide⟩, assembly⟩

end ListingLine

namespace Listing

/-- The lines of a text; the empty text has none. -/
def textLines (text : String) : List String :=
  if text = "" then [] else (text.split '\n').toList.map String.Slice.copy

/-- What follows the first colon with a blank behind it. -/
def afterColon : List Char → List Char
  | ':' :: ' ' :: rest => rest
  | _ :: rest => afterColon rest
  | [] => []

/-- The two bytes of the four digits behind the first colon of a line, the high one first. -/
def bytesOf? (line : String) : Option (List UInt8) :=
  (Numeral.read? 16 ((afterColon line.toList).take 4)).map fun n =>
    [UInt8.ofNat (n / 256), UInt8.ofNat (n % 256)]

/-- The bytes that the lines of a printed listing show. -/
def bytes? (text : String) : Option (List UInt8) :=
  ((textLines text).mapM bytesOf?).map List.flatten

/-- A program of whole words: a zero byte follows an odd one. -/
def padded (p : List UInt8) : List UInt8 :=
  if p.length % 2 = 1 then p ++ [0] else p

theorem afterColon_append {cs : List Char} (free : ':' ∉ cs) (rest : List Char) :
    afterColon (cs ++ ':' :: ' ' :: rest) = rest := by
  induction cs with
  | nil => rfl
  | cons c cs ih =>
      simp only [List.mem_cons, not_or] at free
      rw [List.cons_append, afterColon, ih free.2]
      rintro _ rfl
      exact absurd rfl free.1

/-- The bytes of a word are read back from its line. -/
theorem bytesOf?_text (l : ListingLine) : bytesOf? l.text = some l.word.bytes := by
  have free := l.colon_not_mem_place
  have four : (Numeral.hex 4 l.word.toNat).toList.length = 4 := by
    rw [Numeral.toList_hex_word, List.length_map]
    rfl
  have found : afterColon l.text.toList =
      (Numeral.hex 4 l.word.toNat).toList ++ ("  " ++ l.mnemonic).toList := by
    rw [l.text_eq, String.toList_append, String.toList_append, String.toList_append]
    exact afterColon_append free _
  rw [bytesOf?, found, List.take_left' four, Numeral.read?_hex]
  rfl

/-- Cut at its line breaks, a printed listing falls into its lines. -/
theorem textLines_text (p : List UInt8) (origin : Int) :
    textLines (text p origin) = (lines p origin).map ListingLine.text := by
  have cut := String.toList_split_intercalate (c := '\n')
    (l := (lines p origin).map ListingLine.text) (by simpa using fun l _ => l.break_not_mem_text)
  rw [textLines, text]
  cases made : lines p origin with
  | nil => rfl
  | cons l ls =>
      rw [made] at cut
      rw [if_neg ?_]
      · exact cut.trans (if_neg (List.cons_ne_nil _ _))
      · -- A line is never empty itself, so a listing with one line has a text.
        intro empty
        have nothing := congrArg String.toList empty
        cases ls <;> simp [ListingLine.text] at nothing

/-- The words of the lines are the program, filled up to whole words. -/
theorem flatMap_lines (p : List UInt8) (origin : Int) :
    (lines p origin).flatMap (fun l => l.word.bytes) = padded p := by
  induction p, origin using lines.induct with
  | case1 => rfl
  | case2 high _ => exact Word.bytes_ofBytes high 0
  | case3 high low rest origin ih =>
      have parity : (high :: low :: rest).length % 2 = rest.length % 2 := by
        simp only [List.length_cons]
        omega
      rw [lines_pair, List.flatMap_cons, ih, Word.bytes_ofBytes, padded, padded, parity]
      split <;> rfl

/-- A printed listing shows its program, filled up to whole words. -/
theorem bytes?_text (p : List UInt8) (origin : Int) : bytes? (text p origin) = some (padded p) := by
  have read : ((lines p origin).map ListingLine.text).mapM bytesOf? =
      some ((lines p origin).map fun l => l.word.bytes) := by
    simp only [List.mapM_map, Function.comp_def, bytesOf?_text]
    exact List.mapM_pure ..
  rw [bytes?, textLines_text, read, Option.map_some, ← List.flatMap_def, flatMap_lines]

/-- A byte that fills up an odd length makes no difference. -/
theorem text_padded (p : List UInt8) (origin : Int) : text (padded p) origin = text p origin := by
  rw [padded]
  split
  · rename_i odd
    rw [text, text, lines_append_zero p origin odd]
  · rfl

theorem length_lines (p : List UInt8) (origin : Int) :
    (lines p origin).length = (p.length + 1) / 2 := by
  induction p, origin using lines.induct with
  | case1 => rfl
  | case2 => simp only [lines, List.length_singleton, Nat.reduceAdd, Nat.reduceDiv]
  | case3 high low rest origin ih =>
      rw [lines_pair, List.length_cons, ih, List.length_cons, List.length_cons]
      omega

/-- Behind a program of whole words the listing goes on where the program ends. -/
theorem lines_append {p : List UInt8} (whole : p.length % 2 = 0) (q : List UInt8)
    (origin : Int) : lines (p ++ q) origin = lines p origin ++ lines q (origin + p.length) := by
  induction p, origin using lines.induct with
  | case1 => simp
  | case2 => simp at whole
  | case3 high low rest origin ih =>
      simp only [List.length_cons] at whole
      have place : origin + 2 + (rest.length : Int) =
          origin + ((high :: low :: rest).length : Int) := by
        simp only [List.length_cons]
        omega
      rw [List.cons_append, List.cons_append, lines_pair, lines_pair, ih (by omega), place,
        List.cons_append]

/-- Listings lose nothing. Cut at its line breaks, a printed listing has one line for every two
bytes, and one for a last single byte. Each line starts with the place of its word, and the words
give back the program, with a zero byte behind an odd one. So two programs have the same listing
from the same place on exactly if they are equal up to such a byte, and the listing of a program
of whole words that another program follows is the one listing followed by the other. -/
theorem listing_lossless (p : List UInt8) (origin : Int) :
    (p = [] → text p origin = "") ∧
      (textLines (text p origin)).length = (p.length + 1) / 2 ∧
      (∀ (k : Nat) line, (textLines (text p origin))[k]? = some line →
        ∃ rest, line = "0x" ++ Numeral.signedHex 3 (origin + 2 * k) ++ ": " ++ rest) ∧
      bytes? (text p origin) = some (padded p) ∧
      (∀ q, text p origin = text q origin ↔ padded p = padded q) ∧
      ∀ q, p.length % 2 = 0 →
        lines (p ++ q) origin = lines p origin ++ lines q (origin + p.length) := by
  refine ⟨?_, ?_, ?_, bytes?_text p origin, ?_, fun q whole => lines_append whole q origin⟩
  · rintro rfl
    rfl
  · rw [textLines_text, List.length_map, length_lines]
  · intro k line known
    rw [textLines_text, List.getElem?_map, getElem?_lines] at known
    obtain ⟨l, there, rfl⟩ := Option.map_eq_some_iff.1 known
    obtain ⟨high, -, rfl⟩ := Option.map_eq_some_iff.1 there
    exact ⟨_, (ListingLine.text_eq _).trans (String.append_assoc ..).symm⟩
  · intro q
    constructor
    · intro same
      have read := bytes?_text p origin
      rw [same, bytes?_text] at read
      exact (Option.some.inj read).symm
    · intro same
      rw [← text_padded p, same, text_padded]

end Listing

end Chip8
