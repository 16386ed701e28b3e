import Chip8.Text.Integer
import Chip8.Text.Quoted

/-!
# Options

The command line takes a program file and six options: three flags and three options
with an integer value.
-/

namespace Chip8

/-- The options of the command line. -/
inductive Switch where
  | help
  /-- The side of a block in pixels. -/
  | scale
  /-- The instruction rate in hertz. -/
  | clock
  /-- The tone in hertz. -/
  | tone
  /-- Prints a listing instead of running. -/
  | disassemble
  /-- Logs every executed instruction. -/
  | verbose
deriving DecidableEq, Repr

namespace Switch

/-- The spellings of an option. -/
def spellings : Switch → List String
  | help => ["-h", "--help"]
  | scale => ["--scale"]
  | clock => ["--clock"]
  | tone => ["--tone"]
  | disassemble => ["--disassemble"]
  | verbose => ["-v", "--verbose"]

/-- All options in the order they are explained. -/
def all : List Switch :=
  [help, scale, clock, tone, disassemble, verbose]

/-- Every spelling with its option. -/
def table : List (String × Switch) :=
  all.flatMap fun s => s.spellings.map fun name => (name, s)

/-- The option with a spelling. -/
def ofSpelling? (name : String) : Option Switch :=
  (table.find? fun e => e.1 = name).map Prod.snd

/-- Whether an option takes a value. -/
def takesValue : Switch → Bool
  | scale | clock | tone => true
  | help | disassemble | verbose => false

/-- An option as messages name it. -/
def title (s : Switch) : String :=
  "/".intercalate s.spellings

end Switch

/-- What the command line asks for. An option that was given the bare separator as its
value holds no number. -/
structure Options where
  rom : String
  /-- The side of a block in pixels. -/
  scale : Option Int := some 15
  /-- The instruction rate in hertz. -/
  clock : Option Int := some 1200
  /-- The tone in hertz. -/
  tone : Option Int := some 440
  /-- Whether to print a listing instead of running. -/
  disassemble : Bool := false
  /-- Whether to log every executed instruction. -/
  verbose : Bool := false
deriving DecidableEq, Repr

/-- What is wrong with a command line. -/
inductive ArgumentError where
  /-- A shortened option could be several. -/
  | ambiguous (given : String) (candidates : List String)
  /-- A flag was given a value. -/
  | ignoredValue (switch : Switch) (value : String)
  /-- An option lacks its value. -/
  | missingValue (switch : Switch)
  /-- The value of an option is no integer. -/
  | invalidInteger (switch : Switch) (value : String)
  /-- There is no program file. -/
  | missingRom
  /-- There are arguments that nothing takes. -/
  | unrecognized (arguments : List String)
deriving DecidableEq, Repr

namespace ArgumentError

/-- The text about an argument of an option. -/
def about (s : Switch) (text : String) : String :=
  "argument " ++ s.title ++ ": " ++ text

/-- The text of an error. -/
def message : ArgumentError → String
  | ambiguous given candidates =>
      "ambiguous option: " ++ given ++ " could match " ++ ", ".intercalate candidates
  | ignoredValue s value => about s ("ignored explicit argument " ++ Quoted.text value)
  | missingValue s => about s "expected one argument"
  | invalidInteger s value => about s ("invalid int value: " ++ Quoted.text value)
  | missingRom => "the following arguments are required: rom"
  | unrecognized arguments => "unrecognized arguments: " ++ " ".intercalate arguments

end ArgumentError

end Chip8
