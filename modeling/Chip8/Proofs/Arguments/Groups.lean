import Chip8.Proofs.Arguments.Spelling
import Chip8.Proofs.Arguments.Values

/-!
# Groups of arguments

A command line with one program file is a row of groups with the file somewhere among them: each
group is an option with its value or a flag. The groups are read one after the other. What remains
of them is the last value of each option and whether each flag occurs, wherever the file stands.
-/

namespace Chip8

/-- Arguments that belong together. An option is named by the first letter of its name and as many
`more` letters as there are. -/
inductive Group where
  /-- An option with an integer, attached to it or in an argument of its own. -/
  | value (s : Switch) (takes : s.takesValue = true) (more : Nat) (attached : Bool) (z : Int)
      (short : (Numeral.decimal z.natAbs).toList.length ≤ Integer.maxDigits)
  /-- A flag by its name. -/
  | flag (s : Switch) (sets : s = .disassemble ∨ s = .verbose) (more : Nat)
  /-- The flag with a spelling of one letter. -/
  | letter

namespace Group

/-- The arguments of a group. -/
def words : Group → List String
  | value s _ more true z _ => [s.shortened more ++ "=" ++ Numeral.signedDecimal z]
  | value s _ more false z _ => [s.shortened more, Numeral.signedDecimal z]
  | flag s _ more => [s.shortened more]
  | letter => ["-v"]

/-- The forms of the arguments of a group. -/
def tokens : Group → List Token
  | value s _ _ true z _ => [.switch s false (some (Numeral.signedDecimal z))]
  | value s _ _ false z _ => [.switch s false none, .plain (Numeral.signedDecimal z)]
  | flag s _ _ => [.switch s false none]
  | letter => [.switch .verbose true none]

/-- The value that a group gives to an option. -/
def value? (s : Switch) : Group → Option Int
  | value t _ _ _ z _ => if t = s then some z else none
  | flag _ _ _ | letter => none

/-- Whether a group sets a flag. -/
def sets (s : Switch) : Group → Bool
  | flag t _ _ => t = s
  | letter => s = .verbose
  | value _ _ _ _ _ _ => false

/-- The last value that is given to an option, if there is one. -/
def lastValue? (s : Switch) (groups : List Group) : Option Int :=
  (groups.filterMap (value? s)).getLast?

theorem lastValue?_append (s : Switch) (before after : List Group) :
    lastValue? s (before ++ after) = (lastValue? s after).or (lastValue? s before) := by
  rw [lastValue?, List.filterMap_append, List.getLast?_append]
  rfl

end Group

namespace Options

/-- Whether a flag is set. -/
def isSet (o : Options) : Switch → Bool
  | .disassemble => o.disassemble
  | .verbose => o.verbose
  | .help | .scale | .clock | .tone => false

end Options

namespace Token

/-- The bare separator is not classified by its text. -/
theorem ne_separator_of_ofText {text : String} {token : Token}
    (classified : ofText text = .ok token) : text ≠ "--" := by
  have ambiguous : (ofText "--").toOption = none := by decide
  rintro rfl
  rw [classified] at ambiguous
  contradiction

theorem ofArguments_cons {text : String} {rest : List String} {token : Token} {tokens : List Token}
    (classified : ofText text = .ok token) (others : ofArguments rest = .ok tokens) :
    ofArguments (text :: rest) = .ok (token :: tokens) := by
  rw [ofArguments, classified, others]
  exact ne_separator_of_ofText classified

/-- The arguments of a group have the forms of a group. -/
theorem ofArguments_words (g : Group) {rest : List String} {others : List Token}
    (classified : ofArguments rest = .ok others) :
    ofArguments (g.words ++ rest) = .ok (g.tokens ++ others) := by
  cases g with
  | value s takes more attached z short =>
      cases attached with
      | true => exact ofArguments_cons (ofText_attached s more _) classified
      | false =>
          exact ofArguments_cons (ofText_shortened s more)
            (ofArguments_cons (ofText_signedDecimal z) classified)
  | flag s sets more => exact ofArguments_cons (ofText_shortened s more) classified
  | letter => exact ofArguments_cons rfl classified

theorem ofArguments_groups (groups : List Group) {rest : List String} {others : List Token}
    (classified : ofArguments rest = .ok others) :
    ofArguments (groups.flatMap Group.words ++ rest) =
      .ok (groups.flatMap Group.tokens ++ others) := by
  induction groups with
  | nil => exact classified
  | cons g groups ih =>
      rw [List.flatMap_cons, List.flatMap_cons, List.append_assoc, List.append_assoc]
      exact ofArguments_words g ih

end Token

namespace Parsing

/-- Sets a flag. -/
def setFlag (p : Parsing) : Switch → Parsing
  | .disassemble => { p with options := { p.options with disassemble := true } }
  | .verbose => { p with options := { p.options with verbose := true } }
  | .help | .scale | .clock | .tone => p

/-- Takes a group. -/
def takeGroup (p : Parsing) : Group → Parsing
  | .value s _ _ _ z _ => p.setValue s (some z)
  | .flag s _ _ => p.setFlag s
  | .letter => p.setFlag .verbose

theorem takeFlag_eq {s : Switch} (sets : s = .disassemble ∨ s = .verbose) (p : Parsing) :
    p.takeFlag s = .ok (p.setFlag s) := by
  obtain rfl | rfl := sets <;> rfl

/-- A flag is set whatever follows it. -/
theorem takeAll_flag {s : Switch} (sets : s = .disassemble ∨ s = .verbose) (short : Bool)
    (p : Parsing) (rest : List Token) :
    p.takeAll (.switch s short none :: rest) = (p.setFlag s).takeAll rest := by
  have noValue : s.takesValue = false := by obtain rfl | rfl := sets <;> rfl
  cases rest with
  | nil => simp [takeAll, noValue, takeFlag_eq sets]
  | cons token rest => cases token <;> simp [takeAll, noValue, takeFlag_eq sets]

/-- The text of an integer is taken as the value of an option. -/
theorem takeValue_signedDecimal (p : Parsing) (s : Switch) {z : Int}
    (short : (Numeral.decimal z.natAbs).toList.length ≤ Integer.maxDigits) :
    p.takeValue s (Numeral.signedDecimal z) = .ok (p.setValue s (some z)) := by
  have notSeparator := Token.ne_separator_of_ofText (Token.ofText_signedDecimal z)
  rw [takeValue, if_neg notSeparator, Integer.read?_signedDecimal short]

/-- The forms of a group are taken as the group, whatever follows them. -/
theorem takeAll_tokens (p : Parsing) (g : Group) (rest : List Token) :
    p.takeAll (g.tokens ++ rest) = (p.takeGroup g).takeAll rest := by
  cases g with
  | value s takes more attached z short =>
      have value := p.takeValue_signedDecimal s short
      cases attached with
      | true =>
          rw [Group.tokens, List.singleton_append, takeAll, if_pos takes, value]
          rfl
      | false =>
          change takeAll p (.switch s false none :: .plain (Numeral.signedDecimal z) :: rest) = _
          rw [takeAll, if_pos takes, value]
          rfl
  | flag s sets more => exact takeAll_flag sets false p rest
  | letter => exact takeAll_flag (.inr rfl) true p rest

theorem takeAll_groups (p : Parsing) (groups : List Group) (rest : List Token) :
    p.takeAll (groups.flatMap Group.tokens ++ rest) = (groups.foldl takeGroup p).takeAll rest := by
  induction groups generalizing p with
  | nil => rfl
  | cons g groups ih =>
      rw [List.flatMap_cons, List.append_assoc, takeAll_tokens, ih]
      rfl

/-- The program file is taken where no separator follows it. -/
theorem takeAll_plain (p : Parsing) (text : String) (groups : List Group) :
    p.takeAll (.plain text :: groups.flatMap Group.tokens) =
      (p.takePlain text).takeAll (groups.flatMap Group.tokens) := by
  cases groups with
  | nil => rfl
  | cons g groups =>
      cases g with
      | value s takes more attached z short => cases attached <;> rfl
      | flag s sets more => rfl
      | letter => rfl

/-- Groups leave the program file and what nothing took alone. -/
theorem takeGroup_eq (p : Parsing) (g : Group) :
    p.takeGroup g = { p with options := (p.takeGroup g).options } := by
  cases g with
  | value s takes more attached z short => cases s <;> rfl
  | flag s sets more => cases s <;> rfl
  | letter => rfl

theorem foldl_takeGroup_eq (p : Parsing) (groups : List Group) :
    groups.foldl takeGroup p = { p with options := (groups.foldl takeGroup p).options } := by
  induction groups generalizing p with
  | nil => rfl
  | cons g groups ih =>
      rw [List.foldl_cons, ih, takeGroup_eq p g]

/-- A group gives its value to its option. -/
theorem valueOf_takeGroup (p : Parsing) (g : Group) (s : Switch) :
    (p.takeGroup g).options.valueOf s = (g.value? s).or (p.options.valueOf s) := by
  cases g with
  | value t takes more attached z short =>
      cases t with
      | scale | clock | tone => cases s <;> rfl
      | help | disassemble | verbose => contradiction
  | flag t sets more => obtain rfl | rfl := sets <;> cases s <;> rfl
  | letter => cases s <;> rfl

/-- A group sets its flag. -/
theorem isSet_takeGroup (p : Parsing) (g : Group) (s : Switch) :
    (p.takeGroup g).options.isSet s = (g.sets s || p.options.isSet s) := by
  cases g with
  | value t takes more attached z short => cases t <;> cases s <;> rfl
  | flag t sets more => obtain rfl | rfl := sets <;> cases s <;> rfl
  | letter => cases s <;> rfl

/-- Of the values that are given to an option, the last one counts. -/
theorem valueOf_foldl_takeGroup (p : Parsing) (groups : List Group) (s : Switch) :
    (groups.foldl takeGroup p).options.valueOf s =
      (Group.lastValue? s groups).or (p.options.valueOf s) := by
  induction groups generalizing p with
  | nil => rfl
  | cons g groups ih =>
      rw [List.foldl_cons, ih, valueOf_takeGroup, Group.lastValue?, Group.lastValue?,
        List.filterMap_cons]
      cases g.value? s with
      | none => rfl
      | some z => simp [List.getLast?_cons, Option.or_some]

/-- A flag is set if some group sets it. -/
theorem isSet_foldl_takeGroup (p : Parsing) (groups : List Group) (s : Switch) :
    (groups.foldl takeGroup p).options.isSet s =
      (groups.any (Group.sets s) || p.options.isSet s) := by
  induction groups generalizing p with
  | nil => rfl
  | cons g groups ih =>
      rw [List.foldl_cons, ih, isSet_takeGroup, List.any_cons]
      simp only [Bool.or_assoc, Bool.or_left_comm]

/-- What groups with a program file among them amount to. -/
def gathered (rom : String) (before after : List Group) : Parsing :=
  after.foldl takeGroup { before.foldl takeGroup {} with rom := some rom }

theorem takeAll_gathered (rom : String) (before after : List Group) :
    takeAll {} (before.flatMap Group.tokens ++ .plain rom :: after.flatMap Group.tokens) =
      .ok (gathered rom before after) := by
  have first : (before.foldl takeGroup {}).takePlain rom =
      { before.foldl takeGroup {} with rom := some rom } := by
    rw [foldl_takeGroup_eq]
    rfl
  have rest := takeAll_groups { before.foldl takeGroup {} with rom := some rom } after []
  rw [List.append_nil] at rest
  rw [takeAll_groups, takeAll_plain, first, rest]
  rfl

theorem finish_gathered (rom : String) (before after : List Group) :
    (gathered rom before after).finish =
      .ok { (gathered rom before after).options with rom := rom } := by
  rw [gathered, foldl_takeGroup_eq, foldl_takeGroup_eq {} before]
  rfl

theorem valueOf_gathered (rom : String) (before after : List Group) (s : Switch) :
    (gathered rom before after).options.valueOf s =
      (Group.lastValue? s (before ++ after)).or (({} : Parsing).options.valueOf s) := by
  rw [gathered, valueOf_foldl_takeGroup, valueOf_foldl_takeGroup, Group.lastValue?_append,
    Option.or_assoc]

theorem isSet_gathered (rom : String) (before after : List Group) (s : Switch) :
    (gathered rom before after).options.isSet s =
      ((before ++ after).any (Group.sets s) || ({} : Parsing).options.isSet s) := by
  rw [gathered, isSet_foldl_takeGroup, isSet_foldl_takeGroup, List.any_append, ← Bool.or_assoc,
    Bool.or_comm (after.any _)]

end Parsing

namespace Options

/-- Groups of arguments may stand in any order, and the program file anywhere among them. Each
option has the last value that it is given, and 15, 1200 and 440 are the scale, the clock rate and
the tone if none is given; a flag is set if it occurs. -/
theorem parse_groups {rom : String} (plain : rom.toList.head? ≠ some '-')
    (before after : List Group) :
    parse (before.flatMap Group.words ++ rom :: after.flatMap Group.words) =
      .ok
        { rom := rom
          scale := some ((Group.lastValue? .scale (before ++ after)).getD 15)
          clock := some ((Group.lastValue? .clock (before ++ after)).getD 1200)
          tone := some ((Group.lastValue? .tone (before ++ after)).getD 440)
          disassemble := (before ++ after).any (Group.sets .disassemble)
          verbose := (before ++ after).any (Group.sets .verbose) } := by
  have behind := Token.ofArguments_groups after (show Token.ofArguments [] = .ok [] from rfl)
  rw [List.append_nil, List.append_nil] at behind
  have classified := Token.ofArguments_groups before
    (Token.ofArguments_cons (Token.ofText_of_not_dash plain) behind)
  have scale := (Parsing.valueOf_gathered rom before after .scale).trans Option.or_some
  have clock := (Parsing.valueOf_gathered rom before after .clock).trans Option.or_some
  have tone := (Parsing.valueOf_gathered rom before after .tone).trans Option.or_some
  have disassemble := (Parsing.isSet_gathered rom before after .disassemble).trans (Bool.or_false _)
  have verbose := (Parsing.isSet_gathered rom before after .verbose).trans (Bool.or_false _)
  rw [parse, classified]
  simp only [Parsing.takeAll_gathered, Parsing.finish_gathered]
  simp only [valueOf, isSet] at scale clock tone disassemble verbose
  rw [scale, clock, tone, disassemble, verbose]

/-- A scale that is given twice, once attached and negative, with a negative clock rate and
shortened names on both sides of the program file. -/
theorem parse_groups_mixed :
    "g-".toList.head? ≠ some '-' ∧
      parse ["--sc=-5", "-v", "g-", "--clock", "-7", "--s", "3", "--d"] =
        .ok { rom := "g-", scale := some 3, clock := some (-7), tone := some 440,
              disassemble := true, verbose := true } := by
  have plain : "g-".toList.head? ≠ some '-' := by decide
  let before : List Group := [.value .scale rfl 1 true (-5) (by decide +kernel), .letter]
  let after : List Group :=
    [.value .clock rfl 4 false (-7) (by decide +kernel),
      .value .scale rfl 0 false 3 (by decide +kernel), .flag .disassemble (.inl rfl) 0]
  have words : before.flatMap Group.words ++ "g-" :: after.flatMap Group.words =
      ["--sc=-5", "-v", "g-", "--clock", "-7", "--s", "3", "--d"] := by decide +kernel
  refine ⟨plain, ?_⟩
  rw [← words, parse_groups plain before after]
  rfl

end Options

end Chip8
