import Chip8.Instruction.Mnemonic
import Chip8.Proofs.Instruction.Table
import Chip8.Proofs.Text.Joined
import Chip8.Proofs.Text.Numeral

/-!
# Reading assembly lines back

A line is cut at its first blank and then at its commas. Each operand tells what it is by how it
is written; only addresses and bytes look alike, and the instruction tells them apart. So a line
is read back to the instruction it was written for, and no two instructions have the same line.
-/

namespace Chip8

namespace Operand

/-- An operand as far as its text tells: a byte might be an address. -/
def plain : Operand → Operand
  | byte n => address n
  | o => o

/-- Reads an operand. -/
def read? (cs : List Char) : Option Operand :=
  if cs.all Char.isDigit then (Numeral.read? 10 cs).map count
  else
    match cs with
    | 'V' :: ds => (Numeral.read? 16 ds).map register
    | '0' :: 'x' :: ds => (Numeral.read? 16 ds).map address
    | ['I'] => some index
    | ['[', 'I', ']'] => some indirect
    | ['D', 'T'] => some delay
    | ['S', 'T'] => some sound
    | ['K'] => some key
    | ['F'] => some glyph
    | ['B'] => some digits
    | _ => none

/-- Operands are read back, as far as their texts tell. -/
theorem read?_text (o : Operand) : read? o.text.toList = some o.plain := by
  cases o with
  | count n =>
      have digits : (Numeral.decimal n).toList.all Char.isDigit = true :=
        List.all_eq_true.2 fun _ => Numeral.isDigit_of_mem_decimal
      unfold read?
      rw [text, if_pos digits, Numeral.read?_decimal]
      rfl
  | register n | address n | byte n =>
      simp [text, read?, plain, Char.isDigit, Numeral.read?_hex, -Numeral.toList_hex]
  | _ => rfl

/-- No operand holds a character that is no hexadecimal digit, apart from a few. -/
theorem not_mem_text {c : Char} (other : Numeral.digitValue? c = none)
    (unused : c ∉ ['V', 'x', 'I', '[', ']', 'T', 'S', 'K']) (o : Operand) : c ∉ o.text.toList := by
  simp only [List.mem_cons, List.not_mem_nil, or_false, not_or] at unused
  have notDigit (d : Char) (digit : (Numeral.digitValue? d).isSome = true) : c ≠ d := by
    rintro rfl
    simp [other] at digit
  have zero := notDigit '0' rfl
  cases o with
  | register n | address n | byte n =>
      simp [text, unused, zero, Numeral.not_mem_hex other, -Numeral.toList_hex]
  | count n => exact Numeral.not_mem_decimal other n
  | _ => simp [text, unused, notDigit 'D' rfl, notDigit 'F' rfl, notDigit 'B' rfl]

end Operand

namespace Instruction

/-- The instruction with a head word and operands, bytes being given as addresses. -/
def ofParts? : String → List Operand → Option (Instruction Nat Nat Nat Nat)
  | "NOOP", [] => some noop
  | "CLS", [] => some clear
  | "RET", [] => some ret
  | "JP", [.address addr] => some (jump addr)
  | "CALL", [.address addr] => some (call addr)
  | "JP", [.register 0, .address addr] => some (jumpV0 addr)
  | "SE", [.register x, .address byte] => some (skipEqByte x byte)
  | "SNE", [.register x, .address byte] => some (skipNeByte x byte)
  | "SE", [.register x, .register y] => some (skipEqReg x y)
  | "SNE", [.register x, .register y] => some (skipNeReg x y)
  | "SKP", [.register x] => some (skipKey x)
  | "SKNP", [.register x] => some (skipNoKey x)
  | "LD", [.register x, .address byte] => some (loadByte x byte)
  | "ADD", [.register x, .address byte] => some (addByte x byte)
  | "RND", [.register x, .address byte] => some (random x byte)
  | "LD", [.register x, .register y] => some (move x y)
  | "OR", [.register x, .register y] => some (or x y)
  | "AND", [.register x, .register y] => some (and x y)
  | "XOR", [.register x, .register y] => some (xor x y)
  | "ADD", [.register x, .register y] => some (add x y)
  | "SUB", [.register x, .register y] => some (sub x y)
  | "SHR", [.register x, .register y] => some (shiftRight x y)
  | "SUBN", [.register x, .register y] => some (subFrom x y)
  | "SHL", [.register x, .register y] => some (shiftLeft x y)
  | "LD", [.index, .address addr] => some (loadIndex addr)
  | "DRW", [.register x, .register y, .count rows] => some (draw x y rows)
  | "LD", [.register x, .delay] => some (readDelay x)
  | "LD", [.register x, .key] => some (waitKey x)
  | "LD", [.delay, .register x] => some (setDelay x)
  | "LD", [.sound, .register x] => some (setSound x)
  | "ADD", [.index, .register x] => some (addIndex x)
  | "LD", [.glyph, .register x] => some (glyph x)
  | "LD", [.digits, .register x] => some (storeDigits x)
  | "LD", [.indirect, .register x] => some (store x)
  | "LD", [.register x, .indirect] => some (load x)
  | _, _ => none

/-- The head word and the operands tell the instruction, even if addresses and bytes look alike. -/
theorem ofParts?_parts (i : Instruction Nat Nat Nat Nat) :
    ofParts? i.parts.1 (i.parts.2.map Operand.plain) = some i := by
  cases i <;> rfl

/-- Reads an assembly line: the head word ends at the first blank, and each operand follows a
blank. -/
def ofLine? (line : String) : Option (Instruction Nat Nat Nat Nat) :=
  let head := line.toList.takeWhile (· ≠ ' ')
  let rest := line.toList.dropWhile (· ≠ ' ')
  let fields := if rest = [] then [] else rest.splitOn ','
  (fields.mapM fun field => Operand.read? field.tail).bind (ofParts? (String.ofList head))

/-- The operands of a line, each behind a blank. -/
def fields (i : Instruction Nat Nat Nat Nat) : List (List Char) :=
  i.parts.2.map fun o => ' ' :: o.text.toList

/-- A line is its head word and its operands, each behind a blank, with commas between them. -/
theorem toList_line (i : Instruction Nat Nat Nat Nat) :
    i.line.toList = i.parts.1.toList ++ [','].intercalate i.fields := by
  unfold line fields
  generalize i.parts = parts
  obtain ⟨head, operands⟩ := parts
  cases operands with
  | nil => simp
  | cons o os =>
      have joined := blank_cons_intercalate o.text.toList (os.map fun o => o.text.toList)
      simp only [List.map_cons, List.map_map, Function.comp_def] at joined
      simp only [String.toList_append, String.toList_intercalate, List.map_cons, List.map_map,
        Function.comp_def, List.append_assoc, ← joined]
      rfl

/-- Head words hold nothing but capital letters. -/
theorem isUpper_head (i : Instruction Nat Nat Nat Nat) :
    ∀ c ∈ i.parts.1.toList, c.isUpper = true := by
  rw [← List.all_eq_true]
  cases i <;> simp only [parts] <;> rfl

/-- The operands of a line are read back. -/
theorem mapM_read?_fields (i : Instruction Nat Nat Nat Nat) :
    i.fields.mapM (fun field => Operand.read? field.tail) = some (i.parts.2.map Operand.plain) := by
  simp only [fields, List.mapM_map, Function.comp_def, List.tail_cons, Operand.read?_text]
  exact List.mapM_pure ..

/-- The operands of a line hold blanks and what the texts of operands hold. -/
theorem not_mem_fields {c : Char} (free : ∀ o : Operand, c ∉ o.text.toList) (blank : c ≠ ' ')
    (i : Instruction Nat Nat Nat Nat) : ∀ field ∈ i.fields, c ∉ field := by
  simp only [fields, List.mem_map]
  rintro _ ⟨o, -, rfl⟩
  simp [blank, free o]

/-- No line holds a line break. -/
theorem break_not_mem_line (i : Instruction Nat Nat Nat Nat) : '\n' ∉ i.line.toList := by
  have head : '\n' ∉ i.parts.1.toList := fun member =>
    absurd (i.isUpper_head '\n' member) (by decide)
  have operands : ∀ field ∈ i.fields, '\n' ∉ field :=
    i.not_mem_fields (fun o => o.not_mem_text rfl (by decide)) (by decide)
  rw [toList_line, List.mem_append, not_or]
  exact ⟨head, not_mem_intercalate (by decide) operands⟩

/-- What follows the head word of a line is nothing or begins with a blank. -/
theorem intercalate_fields_cases (i : Instruction Nat Nat Nat Nat) :
    i.fields = [] ∨ i.fields ≠ [] ∧ ∃ rest, [','].intercalate i.fields = ' ' :: rest := by
  rw [fields]
  cases i.parts.2 with
  | nil => exact .inl rfl
  | cons o os =>
      refine .inr ⟨by simp, ?_⟩
      cases os <;> simp

/-- Lines are read back. -/
theorem ofLine?_line (i : Instruction Nat Nat Nat Nat) : ofLine? i.line = some i := by
  have upper : ∀ c ∈ i.parts.1.toList, decide (c ≠ ' ') = true := by
    intro c member
    rw [decide_eq_true_eq]
    rintro rfl
    exact absurd (i.isUpper_head ' ' member) (by decide)
  have whole := ofParts?_parts i
  simp only [ofLine?, toList_line, List.takeWhile_append_of_pos upper,
    List.dropWhile_append_of_pos upper]
  -- The blank of the first operand ends the head word, so without operands there is no rest.
  obtain bare | ⟨more, rest, begins⟩ := i.intercalate_fields_cases
  · have operands : i.parts.2 = [] := List.map_eq_nil_iff.1 bare
    rw [operands] at whole
    simpa [bare] using whole
  · have commas : ∀ field ∈ i.fields, ',' ∉ field :=
      i.not_mem_fields (fun o => o.not_mem_text rfl (by decide)) (by decide)
    have cut := List.splitOn_intercalate ',' commas more
    rw [begins] at cut ⊢
    simp [cut, mapM_read?_fields, whole]

/-- Different instructions have different lines. -/
theorem line_injective {i j : Instruction Nat Nat Nat Nat} (same : i.line = j.line) : i = j := by
  have read := ofLine?_line i
  rw [same, ofLine?_line j] at read
  exact (Option.some.inj read).symm

/-- Assembly lines are unambiguous. Two instructions with the same line are the same instruction
with the same operands, however large these are. So the line of a word tells its instruction,
and it tells the word itself, up to its low sixteen bits, unless the word does nothing. -/
theorem line_unambiguous :
    (∀ i j : Instruction Nat Nat Nat Nat, i.line = j.line → i = j) ∧
      ∀ z z' : Int, (decode (.ofInt z)).mnemonic = (decode (.ofInt z')).mnemonic →
        decode (.ofInt z) = decode (.ofInt z') ∧
          (z % 65536 = z' % 65536 ∨
            decode (.ofInt z) = .noop ∧ decode (.ofInt z') = .noop) := by
  refine ⟨fun i j => line_injective, ?_⟩
  intro z z' same
  have instruction : decode (.ofInt z) = decode (.ofInt z') :=
    numbers_injective (line_injective same)
  refine ⟨instruction, ?_⟩
  by_cases means : decode (.ofInt z) = .noop
  · exact .inr ⟨means, instruction ▸ means⟩
  · exact .inl (Word.ofInt_eq_iff.1 (eq_of_decode_eq instruction means))

end Instruction

end Chip8
