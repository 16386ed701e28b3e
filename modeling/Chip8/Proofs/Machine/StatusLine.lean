import Chip8.Machine.Status
import Chip8.Proofs.Text.Joined
import Chip8.Proofs.Text.Numeral

/-!
# Reading status lines

A status line gives each part of a machine that it shows behind a label. A value ends where the
next label starts, with a comma or with the bracket that closes a list, for no value holds that
character. So the line tells the values, however long the numbers are and however deep the stack is.
-/

namespace Chip8

namespace Numeral

theorem hex_inj {width m n : Nat} (same : hex width m = hex width n) : m = n := by
  have read := read?_hex width m
  rw [same, read?_hex] at read
  exact (Option.some.inj read).symm

theorem signedHex_inj {width : Nat} {y z : Int} (same : signedHex width y = signedHex width z) :
    y = z := by
  have read := readSigned?_signedHex width y
  rw [same, readSigned?_signedHex] at read
  exact (Option.some.inj read).symm

theorem signedDecimal_inj {y z : Int} (same : signedDecimal y = signedDecimal z) : y = z := by
  have read := readSigned?_signedDecimal y
  rw [same, readSigned?_signedDecimal] at read
  exact (Option.some.inj read).symm

theorem hex_ne_nil (width n : Nat) : (hex width n).toList ≠ [] := by
  intro empty
  rw [toList_hex, List.leftpad, List.append_eq_nil_iff] at empty
  exact digits_ne_nil 16 n empty.2

theorem signedHex_ne_nil (width : Nat) (z : Int) : (signedHex width z).toList ≠ [] := by
  cases z with
  | ofNat n => exact hex_ne_nil width n
  | negSucc n => simp [signedHex]

end Numeral

namespace Machine

variable {T : Type}

/-- The registers as the status line shows them. -/
def registerTexts (m : Machine T) : List String :=
  m.registers.toList.map fun v => Numeral.hex 2 v.toNat

/-- The return addresses as the status line shows them, the earliest first. -/
def stackTexts (m : Machine T) : List String :=
  m.stack.reverse.map (Numeral.signedHex 3)

/-- A label, the value behind it, and the rest of a line. -/
def field (label value : String) (rest : List Char) : List Char :=
  label.toList ++ (value.toList ++ rest)

/-- A value ends where the rest of the line starts with a character that the value does not hold. -/
theorem field_inj {label v w : String} {r s : List Char} {c : Char}
    (same : field label v r = field label w s) (left : r.head? = some c) (right : s.head? = some c)
    (first : c ∉ v.toList) (second : c ∉ w.toList) : v = w ∧ r = s := by
  obtain ⟨r, rfl⟩ := List.head?_eq_some_iff.1 left
  obtain ⟨s, rfl⟩ := List.head?_eq_some_iff.1 right
  obtain ⟨value, rest⟩ := append_cons_inj first second (List.append_cancel_left same)
  exact ⟨String.toList_inj.1 value, congrArg (c :: ·) rest⟩

theorem toList_status (m : Machine T) :
    m.status.toList =
      field "Machine(v=[" (", ".intercalate m.registerTexts)
        (field "], i=" (Numeral.signedHex 3 m.index)
          (field ", delay_timer=" (Numeral.signedDecimal m.delay)
            (field ", sound_timer=" (Numeral.signedDecimal m.sound)
              (field ", pc=" (Numeral.signedHex 3 m.pc)
                (field ", sp=" (Numeral.decimal m.stack.length)
                  (field ", stack=[" (", ".intercalate m.stackTexts) "])".toList)))))) := by
  unfold status field registerTexts stackTexts
  simp only [String.toList_append, List.append_assoc]

/-- What can stand in a list: text that is not empty and holds neither a comma nor the bracket that
closes the list. -/
structure IsItem (t : String) : Prop where
  comma : ',' ∉ t.toList
  bracket : ']' ∉ t.toList
  nonempty : t.toList ≠ []

theorem isItem_registerTexts (m : Machine T) : ∀ t ∈ m.registerTexts, IsItem t := by
  intro t member
  obtain ⟨v, -, rfl⟩ := List.mem_map.1 member
  exact ⟨Numeral.not_mem_hex rfl 2 _, Numeral.not_mem_hex rfl 2 _, Numeral.hex_ne_nil 2 _⟩

theorem isItem_stackTexts (m : Machine T) : ∀ t ∈ m.stackTexts, IsItem t := by
  intro t member
  obtain ⟨a, -, rfl⟩ := List.mem_map.1 member
  exact ⟨Numeral.not_mem_signedHex rfl (by decide) 3 a,
    Numeral.not_mem_signedHex rfl (by decide) 3 a, Numeral.signedHex_ne_nil 3 a⟩

/-- A list ends with its bracket, and its commas tell the items. -/
theorem list_field_inj {label : String} {ts us : List String} {r s : List Char}
    (same : field label (", ".intercalate ts) r = field label (", ".intercalate us) s)
    (left : r.head? = some ']') (right : s.head? = some ']') (first : ∀ t ∈ ts, IsItem t)
    (second : ∀ u ∈ us, IsItem u) : ts = us ∧ r = s := by
  have closed {texts : List String} (items : ∀ t ∈ texts, IsItem t) :
      ']' ∉ (", ".intercalate texts).toList := by
    rw [String.toList_intercalate]
    exact not_mem_intercalate (by decide)
      (List.forall_mem_map.2 fun t member => (items t member).bracket)
  obtain ⟨lists, rest⟩ := field_inj same left right (closed first) (closed second)
  refine ⟨intercalate_inj ?_ ?_ lists, rest⟩
  · exact fun t member => ⟨(first t member).comma, (first t member).nonempty⟩
  · exact fun u member => ⟨(second u member).comma, (second u member).nonempty⟩

/-- The texts of the registers tell them. -/
theorem registerTexts_inj {m m' : Machine T} (same : m.registerTexts = m'.registerTexts) :
    m.registers = m'.registers := by
  have byte {v w : UInt8} (alike : Numeral.hex 2 v.toNat = Numeral.hex 2 w.toNat) : v = w :=
    UInt8.toNat_inj.1 (Numeral.hex_inj alike)
  exact Vector.toList_inj.1 ((List.map_inj_right fun _ _ => byte).1 same)

theorem stackTexts_inj {m m' : Machine T} (same : m.stackTexts = m'.stackTexts) :
    m.stack = m'.stack :=
  List.reverse_inj.1 ((List.map_inj_right fun _ _ => Numeral.signedHex_inj).1 same)

/-- The status line of a machine tells what it shows and nothing else: two machines have the same
line exactly if they have the same registers, index register, timers, program counter and stack. -/
theorem status_eq_iff (m m' : Machine T) :
    m.status = m'.status ↔
      m.registers = m'.registers ∧ m.index = m'.index ∧ m.delay = m'.delay ∧
        m.sound = m'.sound ∧ m.pc = m'.pc ∧ m.stack = m'.stack := by
  have noComma : Numeral.digitValue? ',' = none := rfl
  have noSign : ',' ≠ '-' := by decide
  constructor
  · intro same
    have line := congrArg String.toList same
    rw [toList_status, toList_status] at line
    obtain ⟨registers, line⟩ := list_field_inj line rfl rfl m.isItem_registerTexts
      m'.isItem_registerTexts
    obtain ⟨index, line⟩ := field_inj line rfl rfl (Numeral.not_mem_signedHex noComma noSign 3 _)
      (Numeral.not_mem_signedHex noComma noSign 3 _)
    obtain ⟨delay, line⟩ := field_inj line rfl rfl (Numeral.not_mem_signedDecimal noComma noSign _)
      (Numeral.not_mem_signedDecimal noComma noSign _)
    obtain ⟨sound, line⟩ := field_inj line rfl rfl (Numeral.not_mem_signedDecimal noComma noSign _)
      (Numeral.not_mem_signedDecimal noComma noSign _)
    obtain ⟨pc, line⟩ := field_inj line rfl rfl (Numeral.not_mem_signedHex noComma noSign 3 _)
      (Numeral.not_mem_signedHex noComma noSign 3 _)
    obtain ⟨-, line⟩ := field_inj line rfl rfl (Numeral.not_mem_decimal noComma _)
      (Numeral.not_mem_decimal noComma _)
    obtain ⟨stack, -⟩ := list_field_inj line rfl rfl m.isItem_stackTexts m'.isItem_stackTexts
    exact ⟨registerTexts_inj registers, Numeral.signedHex_inj index,
      Numeral.signedDecimal_inj delay, Numeral.signedDecimal_inj sound, Numeral.signedHex_inj pc,
      stackTexts_inj stack⟩
  · rintro ⟨registers, index, delay, sound, pc, stack⟩
    unfold status
    rw [registers, index, delay, sound, pc, stack]

end Machine

end Chip8
