import Chip8.Arguments.Token

/-!
# Reading the command line

The arguments are taken from left to right. The first plain argument is the program
file; the value of an option follows it or is attached to it, and the last value of an
option counts. What nothing takes is collected and refused at the end.
-/

namespace Chip8

/-- Why the arguments are not turned into options. -/
inductive Stop where
  | help
  | error (e : ArgumentError)
deriving DecidableEq, Repr

/-- What the arguments taken so far amount to. -/
structure Parsing where
  rom : Option String := none
  /-- The options, with a program file that does not count. -/
  options : Options := { rom := "" }
  /-- The arguments that nothing took. -/
  extras : List String := []
deriving DecidableEq, Repr

namespace Parsing

/-- Sets an option that takes a value. -/
def setValue (p : Parsing) (s : Switch) (v : Option Int) : Parsing :=
  match s with
  | .scale => { p with options := { p.options with scale := v } }
  | .clock => { p with options := { p.options with clock := v } }
  | .tone => { p with options := { p.options with tone := v } }
  | .help | .disassemble | .verbose => p

/-- Reads and sets the value of an option; an attached separator is no number. -/
def takeValue (p : Parsing) (s : Switch) (text : String) : Except Stop Parsing :=
  if text = "--" then .ok (p.setValue s none)
  else
    match Integer.read? text with
    | some z => .ok (p.setValue s (some z))
    | none => .error (.error (.invalidInteger s text))

/-- Sets a flag. -/
def takeFlag (p : Parsing) (s : Switch) : Except Stop Parsing :=
  match s with
  | .help => .error .help
  | .disassemble => .ok { p with options := { p.options with disassemble := true } }
  | .verbose => .ok { p with options := { p.options with verbose := true } }
  | .scale | .clock | .tone => .ok p

/-- Sets flags in order. -/
def takeFlags (p : Parsing) : List Switch → Except Stop Parsing
  | [] => .ok p
  | s :: rest =>
      match p.takeFlag s with
      | .error e => .error e
      | .ok next => next.takeFlags rest

/-- The flags that letters joined to a flag stand for; a letter that is no flag makes
all letters from there on a value of the flag before it. -/
def joinedFlags (s : Switch) : List Char → Except ArgumentError (List Switch)
  | [] => .ok [s]
  | c :: rest =>
      match Switch.ofSpelling? (String.ofList ['-', c]) with
      | none => .error (.ignoredValue s (String.ofList (c :: rest)))
      | some next =>
          match joinedFlags next rest with
          | .error e => .error e
          | .ok flags => .ok (s :: flags)

/-- The flags of a flag with something attached. Only a flag with a single dash may have
more flags joined to it. -/
def flagsOf (s : Switch) (short : Bool) (text : String) :
    Except ArgumentError (List Switch) :=
  if short && text ≠ "" then joinedFlags s text.toList
  else .error (.ignoredValue s text)

/-- Adds an argument that nothing takes. -/
def addExtra (p : Parsing) (text : String) : Parsing :=
  { p with extras := p.extras ++ [text] }

/-- Takes a plain argument: it is the program file if there is none yet. -/
def takePlain (p : Parsing) (text : String) : Parsing :=
  match p.rom with
  | none => { p with rom := some text }
  | some _ => p.addExtra text

/-- Takes a plain argument with the separator next to it, which belongs to it if it is
the program file; `both` are the two as they were given. -/
def takeBeside (p : Parsing) (text : String) (both : List String) : Parsing :=
  match p.rom with
  | none => { p with rom := some text }
  | some _ => { p with extras := p.extras ++ both }

/-- Takes a flag with something attached. -/
def takeJoined (p : Parsing) (s : Switch) (short : Bool) (text : String) :
    Except Stop Parsing :=
  match flagsOf s short text with
  | .error e => .error (.error e)
  | .ok flags => p.takeFlags flags

/-- Takes tokens from left to right. -/
def takeAll (p : Parsing) : List Token → Except Stop Parsing
  | [] => .ok p
  | .plain text :: .separator :: rest => (p.takeBeside text [text, "--"]).takeAll rest
  | .plain text :: rest => (p.takePlain text).takeAll rest
  | .separator :: .plain text :: rest => (p.takeBeside text ["--", text]).takeAll rest
  | .separator :: rest => (p.addExtra "--").takeAll rest
  | .stray text :: rest => (p.addExtra text).takeAll rest
  | .switch s short (some text) :: rest =>
      match if s.takesValue then p.takeValue s text else p.takeJoined s short text with
      | .error e => .error e
      | .ok next => next.takeAll rest
  | .switch s _ none :: .plain text :: rest =>
      if s.takesValue then
        match p.takeValue s text with
        | .error e => .error e
        | .ok next => next.takeAll rest
      else
        match p.takeFlag s with
        | .error e => .error e
        | .ok next => next.takeAll (.plain text :: rest)
  | .switch s _ none :: rest =>
      if s.takesValue then .error (.error (.missingValue s))
      else
        match p.takeFlag s with
        | .error e => .error e
        | .ok next => next.takeAll rest

/-- The options, if there is a program file and nothing is left over. -/
def finish (p : Parsing) : Except Stop Options :=
  match p.rom with
  | none => .error (.error .missingRom)
  | some rom =>
      if p.extras.isEmpty then .ok { p.options with rom := rom }
      else .error (.error (.unrecognized p.extras))

end Parsing

namespace Options

/-- Reads the arguments of the command line. -/
def parse (arguments : List String) : Except Stop Options :=
  match Token.ofArguments arguments with
  | .error e => .error (.error e)
  | .ok tokens =>
      match Parsing.takeAll {} tokens with
      | .error e => .error e
      | .ok p => p.finish

end Options

namespace Stop

/-- The form of the command line. -/
def usage : String :=
  "usage: chipvm [-h] [--scale SCALE] [--clock CLOCK] [--tone TONE]\n" ++
  "              [--disassemble] [-v]\n" ++
  "              rom\n"

/-- The explanation of the command line. -/
def explanation : String :=
  usage ++
  "\n" ++
  "CHIP-8 virtual machine\n" ++
  "\n" ++
  "positional arguments:\n" ++
  "  rom            Path to CHIP-8 ROM\n" ++
  "\n" ++
  "options:\n" ++
  "  -h, --help     show this help message and exit\n" ++
  "  --scale SCALE  Pixel scale factor (default 15)\n" ++
  "  --clock CLOCK  CPU clock in Hz (default 1200)\n" ++
  "  --tone TONE    Beep tone frequency in Hz\n" ++
  "  --disassemble  Print a listing of the ROM and exit\n" ++
  "  -v, --verbose  Log every executed instruction\n"

/-- The exit code. -/
def code : Stop → Nat
  | help => 0
  | error _ => 2

/-- What is printed. -/
def output : Stop → String
  | help => explanation
  | error _ => ""

/-- What is printed as an error. -/
def complaint : Stop → String
  | help => ""
  | error e => usage ++ "chipvm: error: " ++ e.message ++ "\n"

end Stop

end Chip8
