import Chip8.Arguments.Parse
import Chip8.Console.Basic
import Chip8.Listing
import Chip8.Rom
import Chip8.Session

/-!
# The command

The command reads its arguments and the program file. It then prints a listing, or
opens a console and runs a session on it. A missing or oversized program file is
reported; other failures to read it are left to the caller.
-/

namespace Chip8

/-- What happens at one poll of the window. -/
inductive Happening (σ : Type) where
  /-- Events since the last poll; something may happen to the host beforehand. -/
  | events (pass : σ → σ) (events : List KeyEvent)
  | interrupt

namespace Keypad

variable {σ : Type}

/-- The visits of a session whose polls go through a keypad. -/
def visits (p : Keypad) : List (Happening σ) → List (Visit σ)
  | [] => []
  | .interrupt :: rest => .interrupt :: p.visits rest
  | .events pass events :: rest =>
      let polled := p.poll events
      .poll pass ⟨polled.input, polled.running⟩ :: polled.pad.visits rest

end Keypad

/-- What becomes of the console during a run. -/
inductive Action (σ T : Type) where
  /-- It is opened, with requests to the mixer. -/
  | opened (calls : List MixerCall)
  /-- It shows a frame. -/
  | shown (frame : Frame σ T) (window : Window) (calls : List MixerCall)
  | closed

/-- What a run of the command leaves behind. -/
structure Report (σ T : Type) where
  code : Nat
  /-- What was printed. -/
  output : String
  /-- What was printed as errors and log. -/
  complaint : String
  /-- What became of the console. -/
  actions : List (Action σ T)

/-- Why a run of the command broke off. -/
inductive Failure where
  /-- The program file could not be read. -/
  | file (cause : FileError)
  /-- An option that is needed holds no number. -/
  | emptyOption (s : Switch)
  /-- The console cannot be made. -/
  | console (cause : ConsoleError)
deriving DecidableEq, Repr

namespace Command

variable {σ T : Type}

/-- What is printed when a run is interrupted. -/
def farewell : Ending → String
  | .quit => ""
  | .interrupted => "\nExiting.\n"

/-- The lowest level that is logged. -/
def threshold (o : Options) : Level :=
  if o.verbose then .debug else .info

/-- The frames of a session as a console shows them. -/
def showAll (c : Console) (frames : List (Frame σ T)) : List (Action σ T) :=
  (frames.zip (c.followAll (frames.map fun f => f.snapshot))).map fun p =>
    .shown p.1 p.2.1.window p.2.2

variable [Instant T] [Host σ T]

/-- Runs a program on a console that was just created. -/
def play (mixer : Mixer) (host : σ) (script : List (Happening σ)) (o : Options)
    (bytes : List UInt8) (console : Console × List MixerCall) (rate : Int) : Report σ T :=
  let booted := Machine.boot bytes host
  let session := Session.runAt rate booted.1 booted.2 (Keypad.released.visits script)
  let notices := session.frames.flatMap fun f => f.notices
  { code := 0
    output := farewell session.ending
    complaint :=
      LogEntry.report (threshold o)
        (Rom.loadedEntry bytes :: Console.mixerLog mixer ++ notices.map Notice.entry)
    actions := .opened console.2 :: showAll console.1 session.frames ++ [.closed] }

/-- The tone of a run; without a mixer an empty option does not matter. -/
def toneFor (mixer : Mixer) (o : Options) : Option Int :=
  match o.tone, mixer with
  | some tone, _ => some tone
  | none, .missing _ => some 0
  | none, .ready _ => none

/-- The console for the options. The scale is needed before the tone. -/
def console (mixer : Mixer) (o : Options) :
    Except Failure (Console × List MixerCall) :=
  match o.scale, toneFor mixer o with
  | none, _ => .error (.emptyOption .scale)
  | some scale, some tone =>
      (Console.create? mixer (.whole scale) tone).mapError .console
  | some scale, none =>
      match Window.create? (.whole scale) with
      | .error e => .error (.console (.window e))
      | .ok _ => .error (.emptyOption .tone)

/-- Runs a program if there is a console for the options and they hold an instruction
rate. -/
def launch (mixer : Mixer) (host : σ) (script : List (Happening σ)) (o : Options)
    (bytes : List UInt8) : Except Failure (Report σ T) :=
  match console mixer o, o.clock with
  | .error e, _ => .error e
  | .ok _, none => .error (.emptyOption .clock)
  | .ok c, some rate => .ok (play mixer host script o bytes c rate)

/-- The report on a program file that was refused. -/
def refuse (o : Options) (e : RomError) : Report σ T :=
  { code := 1
    output := ""
    complaint :=
      LogEntry.report (threshold o) [⟨.error, .command, "Cannot load ROM: " ++ e.message⟩]
    actions := [] }

/-- The report on a listing. -/
def list (o : Options) (bytes : List UInt8) : Report σ T :=
  { code := 0
    output := Listing.text bytes Listing.defaultOrigin ++ "\n"
    complaint := LogEntry.report (threshold o) [Rom.loadedEntry bytes]
    actions := [] }

/-- Does what the options ask for. -/
def obey (disk : Disk) (mixer : Mixer) (host : σ) (script : List (Happening σ))
    (o : Options) : Except Failure (Report σ T) :=
  match Rom.read disk (Path.ofText o.rom) with
  | .error (.unreadable (.missing path)) => .ok (refuse o (.unreadable (.missing path)))
  | .error (.tooLarge size) => .ok (refuse o (.tooLarge size))
  | .error (.unreadable cause) => .error (.file cause)
  | .ok bytes =>
      if o.disassemble then .ok (list o bytes) else launch mixer host script o bytes

/-- Runs the command. -/
def run (disk : Disk) (mixer : Mixer) (host : σ) (script : List (Happening σ))
    (arguments : List String) : Except Failure (Report σ T) :=
  match Options.parse arguments with
  | .error stop => .ok ⟨stop.code, stop.output, stop.complaint, []⟩
  | .ok o => obey disk mixer host script o

end Command

end Chip8
