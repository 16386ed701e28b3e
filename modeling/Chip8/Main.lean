import Chip8.Command

/-!
# The program

The command on the files of the system. Standard input is the script of a run: every
line is one poll, a sixtieth of a second after the one before, and the characters of a
line are the keys that are held. The display is printed whenever it is redrawn.
-/

namespace Chip8.Terminal

/-- The events between two lines: the keys of the first go up, those of the second down. -/
def events (before now : String) : List KeyEvent :=
  (before.toList.map fun c => .up c.toNat) ++ now.toList.map fun c => .down c.toNat

/-- The script of a run, a line a poll. -/
def script (before : String) : List String → List (Happening Replay)
  | [] => []
  | now :: rest => .events (Replay.pass (1.0 / 60.0)) (events before now) :: script now rest

/-- What a terminal shows of a run. -/
def pictures {σ T : Type} (actions : List (Action σ T)) : List String :=
  actions.filterMap fun
    | .shown f _ _ => if f.snapshot.changed then some (f.snapshot.display.picture "#" " ") else none
    | _ => none

/-- The failure behind a system error. A directory is opened like a file and then fails to be
read, without naming the path. -/
def fileError (path : Path) : IO.Error → FileError
  | .inappropriateType none _ _ => .isDirectory path
  | .inappropriateType (some _) _ _ => .notDirectory path
  | .invalidArgument _ _ _ => .nameTooLong path
  | _ => .missing path

/-- The result of reading the file at a path. -/
def readFile (path : Path) : IO (Except FileError (List UInt8)) := do
  try
    return .ok (← IO.FS.readBinFile path.text).toList
  catch e =>
    return .error (fileError path e)

/-- Reads the program file that the arguments name, if they name one. -/
def disk (arguments : List String) : IO Disk := do
  match Options.parse arguments with
  | .error _ => return fun path => .error (.missing path)
  | .ok o =>
      let result ← readFile (Path.ofText o.rom)
      return fun _ => result

/-- The lines of standard input. -/
partial def readLines (input : IO.FS.Stream) (lines : Array String) : IO (Array String) := do
  let line ← input.getLine
  if line.isEmpty then return lines else readLines input (lines.push line)

/-- Two hundred and fifty-six random bytes. -/
def randomBytes : IO (Array UInt8) :=
  (Array.range 256).mapM fun _ => do return UInt8.ofNat (← IO.rand 0 255)

/-- Whether the arguments ask for a run, which needs a script. -/
def runs (arguments : List String) : Bool :=
  match Options.parse arguments with
  | .ok o => !o.disassemble
  | .error _ => false

end Chip8.Terminal

open Chip8 in
/-- Runs the command and hands its exit code to the system. -/
def main (arguments : List String) : IO UInt32 := do
  let disk ← Terminal.disk arguments
  let lines ←
    if Terminal.runs arguments then Terminal.readLines (← IO.getStdin) #[] else pure #[]
  let host : Replay := ⟨0, 0, ← Terminal.randomBytes, 0⟩
  let mixer := Mixer.missing "no sound output"
  match Command.run disk mixer host (Terminal.script "" lines.toList) arguments with
  | .ok report =>
      for picture in Terminal.pictures report.actions do
        IO.println picture
      IO.print report.output
      IO.eprint report.complaint
      return UInt32.ofNat report.code
  | .error (.file cause) =>
      IO.eprintln cause.message
      return 1
  | .error (.emptyOption s) =>
      IO.eprintln (ArgumentError.missingValue s).message
      return 1
  | .error (.console _) =>
      IO.eprintln "The scale or the tone is too large."
      return 1
