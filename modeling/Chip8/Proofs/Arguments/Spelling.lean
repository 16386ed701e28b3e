import Chip8.Arguments.Token
import Chip8.Proofs.Text.Integer

/-!
# Shortened options

An option may be shortened to any beginning of its name, for no two names start with the same
letter. A value that is attached behind an equals sign does not change that, and a negative number
is no option.
-/

namespace Chip8

namespace Switch

/-- The name of an option behind its two dashes. -/
def name : Switch → String
  | help => "help"
  | scale => "scale"
  | clock => "clock"
  | tone => "tone"
  | disassemble => "disassemble"
  | verbose => "verbose"

/-- An option by the first letter of its name and as many `more` letters as there are. -/
def shortened (s : Switch) (more : Nat) : String :=
  "--" ++ String.ofList (s.name.toList.take (more + 1))

theorem toList_shortened (s : Switch) (more : Nat) :
    (s.shortened more).toList = '-' :: '-' :: s.name.toList.take (more + 1) := by
  simp [shortened]

theorem equals_not_mem_shortened (s : Switch) (more : Nat) : '=' ∉ (s.shortened more).toList := by
  have name : '=' ∉ s.name.toList := by cases s <;> decide
  have kept : '=' ∉ s.name.toList.take (more + 1) := fun member =>
    name (List.mem_of_mem_take member)
  simpa [toList_shortened] using kept

/-- A spelling stands in the table with its option. -/
theorem mem_table {text : String} {s : Switch} (known : ofSpelling? text = some s) :
    (text, s) ∈ table := by
  obtain ⟨e, found, rfl⟩ := Option.map_eq_some_iff.1 known
  have same : e.1 = text := by simpa using List.find?_some found
  exact same ▸ List.mem_of_find?_eq_some found

/-- Text that no spelling is like is no spelling. -/
theorem ofSpelling?_eq_none {text : String} (other : ∀ e ∈ table, e.1 ≠ text) :
    ofSpelling? text = none := by
  rw [ofSpelling?, Option.map_eq_none_iff, List.find?_eq_none]
  simpa using other

/-- No spelling has a digit behind its first dash. -/
theorem ofSpelling?_of_isDigit {text : String} {c : Char} {rest : List Char}
    (number : text.toList = '-' :: c :: rest) (digit : c.isDigit = true) :
    ofSpelling? text = none := by
  have letters : ∀ e ∈ table, (e.1.toList.drop 1).head?.all (fun c => !c.isDigit) = true := by
    decide
  apply ofSpelling?_eq_none
  rintro e member rfl
  have letter := letters e member
  rw [number] at letter
  simp [digit] at letter

end Switch

namespace Token

/-- A shortened option can be completed in one way. -/
theorem completions_shortened (s : Switch) (more : Nat) :
    completions (s.shortened more).toList = [("--" ++ s.name, s)] := by
  rw [Switch.toList_shortened]
  cases s <;> simp [completions, Switch.table, Switch.all, Switch.spellings, Switch.name,
    List.take_prefix]

theorem isShort_shortened (s : Switch) (more : Nat) :
    isShort (s.shortened more).toList = false := by
  rw [Switch.toList_shortened]
  rfl

/-- A shortened option that is a spelling itself is one of the same option. -/
theorem eq_of_ofSpelling?_shortened {s t : Switch} {more : Nat}
    (known : Switch.ofSpelling? (s.shortened more) = some t) : t = s := by
  have completed : (s.shortened more, t) ∈ completions (s.shortened more).toList :=
    List.mem_filter.2 ⟨Switch.mem_table known, by simp⟩
  rw [completions_shortened, List.mem_singleton] at completed
  exact congrArg Prod.snd completed

theorem splitValue_of_not_mem {cs : List Char} (free : '=' ∉ cs) : splitValue cs = (cs, none) := by
  induction cs with
  | nil => rfl
  | cons c cs ih =>
      simp only [List.mem_cons, not_or] at free
      rw [splitValue, ih free.2]
      rintro rfl
      exact free.1 rfl

theorem splitValue_append {cs : List Char} (free : '=' ∉ cs) (value : List Char) :
    splitValue (cs ++ '=' :: value) = (cs, some value) := by
  induction cs with
  | nil => rfl
  | cons c cs ih =>
      simp only [List.mem_cons, not_or] at free
      rw [List.cons_append, splitValue, ih free.2]
      rintro rfl
      exact free.1 rfl

/-- Text that does not begin with a dash is plain. -/
theorem ofText_of_not_dash {text : String} (plain : text.toList.head? ≠ some '-') :
    ofText text = .ok (.plain text) := by
  unfold ofText
  split
  · rename_i dash
    rw [dash] at plain
    exact absurd rfl plain
  · rfl

/-- How text that begins with a dash is classified. -/
theorem ofText_dash {text : String} {second : Char} {rest : List Char}
    (dash : text.toList = '-' :: second :: rest) :
    ofText text =
      match Switch.ofSpelling? text, ofAttached? text with
      | some s, _ => .ok (.switch s (isShort text.toList) none)
      | none, some token => .ok token
      | none, none => if second = '-' then ofLong text else .ok (ofShort text) := by
  unfold ofText
  rw [dash]
  cases Switch.ofSpelling? text with
  | some s => rfl
  | none => cases ofAttached? text <;> rfl

/-- A shortened option is the option. -/
theorem ofText_shortened (s : Switch) (more : Nat) :
    ofText (s.shortened more) = .ok (.switch s false none) := by
  rw [ofText_dash (s.toList_shortened more)]
  have parts := splitValue_of_not_mem (s.equals_not_mem_shortened more)
  have bare : ofAttached? (s.shortened more) = none := by rw [ofAttached?, parts]
  cases known : Switch.ofSpelling? (s.shortened more) with
  | some t =>
      rw [eq_of_ofSpelling?_shortened known, isShort_shortened]
  | none =>
      simp only [bare, if_true, ofLong, parts, completions_shortened]
      rfl

/-- A value may be attached to a shortened option. -/
theorem ofText_attached (s : Switch) (more : Nat) (value : String) :
    ofText (s.shortened more ++ "=" ++ value) = .ok (.switch s false (some value)) := by
  have characters : (s.shortened more ++ "=" ++ value).toList =
      (s.shortened more).toList ++ '=' :: value.toList := by
    simp
  have dash := characters
  rw [s.toList_shortened more, List.cons_append, List.cons_append] at dash
  have noSpelling : Switch.ofSpelling? (s.shortened more ++ "=" ++ value) = none := by
    apply Switch.ofSpelling?_eq_none
    intro e member same
    have free : ∀ e ∈ Switch.table, '=' ∉ e.1.toList := by decide
    apply free e member
    rw [same, characters]
    simp
  have parts := splitValue_append (s.equals_not_mem_shortened more) value.toList
  rw [← characters] at parts
  rw [ofText_dash dash, noSpelling]
  cases known : Switch.ofSpelling? (s.shortened more) with
  | some t =>
      have attached : ofAttached? (s.shortened more ++ "=" ++ value) =
          some (.switch s false (some value)) := by
        rw [ofAttached?, parts]
        simp [known, eq_of_ofSpelling?_shortened known, isShort_shortened]
      rw [attached]
  | none =>
      have attached : ofAttached? (s.shortened more ++ "=" ++ value) = none := by
        rw [ofAttached?, parts]
        simp [known]
      simp only [attached, if_true, ofLong, parts, completions_shortened]
      simp

/-- Text that looks like a negative number is plain. -/
theorem ofText_number {text : String} {c : Char} {rest : List Char}
    (number : text.toList = '-' :: c :: rest) (digit : c.isDigit = true) (free : '=' ∉ text.toList)
    (negative : Integer.looksNegative text.toList = true) : ofText text = .ok (.plain text) := by
  have bare : ofAttached? text = none := by rw [ofAttached?, splitValue_of_not_mem free]
  have begins : (String.ofList (text.toList.take 2)).toList = ['-', c] := by
    rw [number]
    simp
  have notDash : c ≠ '-' := by
    rintro rfl
    contradiction
  rw [ofText_dash number, Switch.ofSpelling?_of_isDigit number digit, bare]
  simp [notDash, ofShort, Switch.ofSpelling?_of_isDigit begins digit, ofOther, negative]

/-- A written integer is plain, even if it is negative. -/
theorem ofText_signedDecimal (z : Int) :
    ofText (Numeral.signedDecimal z) = .ok (.plain (Numeral.signedDecimal z)) := by
  cases z with
  | ofNat n =>
      apply ofText_of_not_dash
      intro first
      exact Numeral.not_mem_decimal rfl n (List.mem_of_head? first)
  | negSucc n =>
      have characters : (Numeral.signedDecimal (.negSucc n)).toList =
          '-' :: (Numeral.decimal (n + 1)).toList := by
        simp [Numeral.signedDecimal, -Numeral.toList_decimal]
      have negative := Integer.looksNegative_decimal (n + 1)
      rw [← characters] at negative
      obtain ⟨c, rest, digits⟩ := List.exists_cons_of_ne_nil (Numeral.decimal_ne_nil (n + 1))
      have digit : c.isDigit = true :=
        Numeral.isDigit_of_mem_decimal (digits ▸ List.mem_cons_self)
      rw [digits] at characters
      have free := Numeral.not_mem_signedDecimal (c := '=') rfl (by decide) (.negSucc n)
      exact ofText_number characters digit free negative

end Token

end Chip8
