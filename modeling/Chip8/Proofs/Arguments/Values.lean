import Chip8.Arguments.Parse

/-!
# The values of options

An option holds the integer that its last value reads as. A value that is no integer is refused,
with one exception: the bare separator is taken and leaves the option without a number, unless
another value follows. So an option lacks a number exactly if its last value is the bare separator.
-/

namespace Chip8

namespace Options

/-- The value of an option. -/
def valueOf (o : Options) : Switch → Option Int
  | .scale => o.scale
  | .clock => o.clock
  | .tone => o.tone
  | .help | .disassemble | .verbose => none

/-- What is taken as a value: an integer or the bare separator. -/
def IsValue (text : String) : Prop :=
  text = "--" ∨ (Integer.read? text).isSome = true

/-- Values are given to an option that held `before`, and it holds `after`: what the last one reads
as. -/
structure Given (texts : List String) (before after : Option Int) : Prop where
  values : ∀ text ∈ texts, IsValue text
  last : after = texts.foldl (fun _ text => Integer.read? text) before

namespace Given

variable {texts : List String} {before after : Option Int}

theorem nil (v : Option Int) : Given [] v v :=
  ⟨nofun, rfl⟩

theorem cons {text : String} (value : IsValue text)
    (later : Given texts (Integer.read? text) after) : Given (text :: texts) before after :=
  ⟨List.forall_mem_cons.2 ⟨value, later.values⟩, later.last⟩

/-- If an option that held a number lacks one, its last value is the bare separator. -/
theorem eq_none_iff {z : Int} (given : Given texts (some z) after) :
    after = none ↔ texts.getLast? = some "--" := by
  have separator : Integer.read? "--" = none := by decide
  rw [given.last]
  obtain rfl | ⟨others, text, rfl⟩ := List.eq_nil_or_concat texts
  · simp
  · rw [List.concat_eq_append] at given ⊢
    have value := given.values text (by simp)
    rw [List.foldl_append, List.getLast?_concat, Option.some_inj, List.foldl_cons, List.foldl_nil]
    constructor
    · intro unread
      simpa [IsValue, unread] using value
    · rintro rfl
      exact separator

end Given

end Options

theorem Switch.ne_of_takesValue {s t : Switch} (flag : ¬t.takesValue = true)
    (takes : s.takesValue = true) : t ≠ s := by
  rintro rfl
  exact flag takes

namespace Token

/-- The texts that are given to an option as its values, attached to it or behind it. -/
def valuesFor (s : Switch) : List Token → List String
  | [] => []
  | .switch t _ (some text) :: rest => if t = s then text :: valuesFor s rest else valuesFor s rest
  | .switch t _ none :: .plain text :: rest =>
      if t = s then text :: valuesFor s rest else valuesFor s rest
  | _ :: rest => valuesFor s rest

end Token

namespace Parsing

variable {s t : Switch} {p q : Parsing}

theorem options_takePlain (p : Parsing) (text : String) :
    (p.takePlain text).options = p.options := by
  unfold takePlain
  split <;> rfl

theorem options_takeBeside (p : Parsing) (text : String) (both : List String) :
    (p.takeBeside text both).options = p.options := by
  unfold takeBeside
  split <;> rfl

/-- Flags leave the values of options alone. -/
theorem valueOf_takeFlag (taken : p.takeFlag t = .ok q) (s : Switch) :
    q.options.valueOf s = p.options.valueOf s := by
  cases t with
  | help => contradiction
  | scale | clock | tone =>
      obtain rfl := Except.ok.inj taken
      rfl
  | disassemble | verbose =>
      obtain rfl := Except.ok.inj taken
      cases s <;> rfl

theorem valueOf_takeFlags {flags : List Switch} (taken : p.takeFlags flags = .ok q) (s : Switch) :
    q.options.valueOf s = p.options.valueOf s := by
  induction flags generalizing p with
  | nil =>
      obtain rfl := Except.ok.inj taken
      rfl
  | cons t rest ih =>
      rw [takeFlags] at taken
      split at taken
      · contradiction
      · rename_i next first
        rw [ih taken, valueOf_takeFlag first]

theorem valueOf_takeJoined {short : Bool} {text : String}
    (taken : p.takeJoined t short text = .ok q) (s : Switch) :
    q.options.valueOf s = p.options.valueOf s := by
  unfold takeJoined at taken
  split at taken
  · contradiction
  · exact valueOf_takeFlags taken s

theorem valueOf_setValue (takes : t.takesValue = true) (p : Parsing) (v : Option Int) (s : Switch) :
    (p.setValue t v).options.valueOf s = if t = s then v else p.options.valueOf s := by
  cases t with
  | scale | clock | tone => cases s <;> rfl
  | help | disassemble | verbose => contradiction

/-- An option that takes a value holds what it reads as. -/
theorem takeValue_eq_ok {text : String} (taken : p.takeValue t text = .ok q) :
    Options.IsValue text ∧ q = p.setValue t (Integer.read? text) := by
  unfold takeValue at taken
  split at taken
  · rename_i bare
    obtain rfl := Except.ok.inj taken
    subst bare
    exact ⟨.inl rfl, rfl⟩
  · split at taken
    · rename_i z read
      obtain rfl := Except.ok.inj taken
      simp [Options.IsValue, read]
    · contradiction

/-- A value is given to its option and to no other. -/
theorem given_takeValue (takes : t.takesValue = true) {text : String} {next : Parsing}
    (taken : p.takeValue t text = .ok next) {texts : List String}
    (later : Options.Given texts (next.options.valueOf s) (q.options.valueOf s)) :
    Options.Given (if t = s then text :: texts else texts) (p.options.valueOf s)
      (q.options.valueOf s) := by
  obtain ⟨value, rfl⟩ := takeValue_eq_ok taken
  rw [valueOf_setValue takes] at later
  split
  · rename_i same
    rw [if_pos same] at later
    exact .cons value later
  · rename_i other
    rwa [if_neg other] at later

/-- What is taken from left to right gives an option its values. -/
theorem given_takeAll (takes : s.takesValue = true) {tokens : List Token}
    (taken : p.takeAll tokens = .ok q) :
    Options.Given (Token.valuesFor s tokens) (p.options.valueOf s) (q.options.valueOf s) := by
  -- A value may be attached to its option (`case8`) or stand behind it (`case10`). All other
  -- arguments leave the values alone.
  fun_induction takeAll p tokens with
  | case1 p =>
      obtain rfl := Except.ok.inj taken
      exact .nil _
  | case2 p text rest ih => simpa only [Token.valuesFor, options_takeBeside] using ih taken
  | case3 p text rest _ ih => simpa only [Token.valuesFor, options_takePlain] using ih taken
  | case4 p text rest ih => simpa only [Token.valuesFor, options_takeBeside] using ih taken
  | case5 p rest _ ih => exact ih taken
  | case6 p text rest ih => exact ih taken
  | case7 => contradiction
  | case8 p t short text rest next attached ih =>
      rw [Token.valuesFor]
      split at attached
      · rename_i value
        exact given_takeValue value attached (ih taken)
      · rename_i flag
        rw [if_neg (Switch.ne_of_takesValue flag takes), ← valueOf_takeJoined attached s]
        exact ih taken
  | case9 => contradiction
  | case10 p t short text rest value next behind ih =>
      rw [Token.valuesFor]
      exact given_takeValue value behind (ih taken)
  | case11 => contradiction
  | case12 p t short text rest flag next set ih =>
      rw [Token.valuesFor, if_neg (Switch.ne_of_takesValue flag takes), ← valueOf_takeFlag set s]
      exact ih taken
  | case13 => contradiction
  | case14 => contradiction
  | case15 p t short rest last flag next set ih =>
      rw [Token.valuesFor, ← valueOf_takeFlag set s]
      · exact ih taken
      · nofun
      · intro _ _ text others _ behind
        exact last text others behind

theorem valueOf_finish {o : Options} (finished : p.finish = .ok o) (s : Switch) :
    o.valueOf s = p.options.valueOf s := by
  unfold finish at finished
  split at finished
  · contradiction
  · split at finished
    · obtain rfl := Except.ok.inj finished
      cases s <;> rfl
    · contradiction

end Parsing

namespace Options

/-- The last text that is given to an option as its value, if there is one. -/
def lastText? (s : Switch) (arguments : List String) : Option String :=
  match Token.ofArguments arguments with
  | .error _ => none
  | .ok tokens => (Token.valuesFor s tokens).getLast?

/-- An option that takes an integer lacks one exactly if its last value is the bare separator. -/
theorem valueOf_eq_none_iff {arguments : List String} {o : Options}
    (parsed : parse arguments = .ok o) {s : Switch} (takes : s.takesValue = true) :
    o.valueOf s = none ↔ lastText? s arguments = some "--" := by
  unfold parse at parsed
  unfold lastText?
  cases classified : Token.ofArguments arguments with
  | error e =>
      rw [classified] at parsed
      contradiction
  | ok tokens =>
      cases taken : Parsing.takeAll {} tokens with
      | error e =>
          simp only [classified, taken] at parsed
          contradiction
      | ok p =>
          simp only [classified, taken] at parsed
          have given := Parsing.given_takeAll takes taken
          rw [Parsing.valueOf_finish parsed]
          cases s with
          | scale | clock | tone => exact given.eq_none_iff
          | help | disassemble | verbose => contradiction

/-- A shortened name and an earlier number make no difference. -/
example : lastText? .clock ["g", "--clock=5", "--c=--"] = some "--" := by decide

end Options

end Chip8
