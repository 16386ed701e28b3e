import Chip8.Command

/-!
# The course of a run

The command as a program with effects and failures: what it does is recorded in order, a failure
ends everything up to the place where it is caught, and the console is closed on every way out.
The report on a run is read off its record.
-/

namespace Chip8

/-- One thing that a run of the command does. -/
inductive Deed (σ T : Type) where
  | logged (entry : LogEntry)
  | printed (text : String)
  /-- A console is opened, with requests to the mixer. -/
  | opened (calls : List MixerCall)
  /-- A machine is started. -/
  | booted
  /-- The console is asked for its events. -/
  | polled
  /-- The console shows a frame. -/
  | shown (frame : Frame σ T) (window : Window) (calls : List MixerCall)
  /-- The console waits for the time of the next frame. -/
  | paused
  | closed

/-- Why a run goes no further. -/
inductive Cause (σ T : Type) where
  | interrupted
  /-- The program file has too many bytes. -/
  | tooLarge (size : Nat)
  | frame (error : FrameError σ T)
  | failure (failure : Failure)

namespace Deed

variable {σ T : Type}

/-- Whether a deed is an entry in the log. -/
def isLogged : Deed σ T → Bool
  | logged _ => true
  | _ => false

/-- Whether a frame is shown. -/
def isShown : Deed σ T → Bool
  | shown _ _ _ => true
  | _ => false

def entry? : Deed σ T → Option LogEntry
  | logged entry => some entry
  | _ => none

def text? : Deed σ T → Option String
  | printed text => some text
  | _ => none

/-- What a deed means for the console. -/
def action? : Deed σ T → Option (Action σ T)
  | opened calls => some (.opened calls)
  | shown frame window calls => some (.shown frame window calls)
  | closed => some .closed
  | _ => none

end Deed

/-- A computation that records what it does and may fail. -/
structure Course (σ T α : Type) where
  outcome : Except (Cause σ T) α
  deeds : List (Deed σ T)

namespace Course

variable {σ T α β : Type}

/-- After a failure nothing more is done. -/
instance : Monad (Course σ T) where
  pure a := ⟨.ok a, []⟩
  bind c f :=
    match c.outcome with
    | .error cause => ⟨.error cause, c.deeds⟩
    | .ok a => ⟨(f a).outcome, c.deeds ++ (f a).deeds⟩

theorem pure_def (a : α) : (pure a : Course σ T α) = ⟨.ok a, []⟩ := rfl

theorem ok_bind (a : α) (deeds : List (Deed σ T)) (f : α → Course σ T β) :
    (⟨.ok a, deeds⟩ : Course σ T α) >>= f = ⟨(f a).outcome, deeds ++ (f a).deeds⟩ := rfl

/-- Does some things. -/
def perform (deeds : List (Deed σ T)) : Course σ T Unit :=
  ⟨.ok (), deeds⟩

def fail (cause : Cause σ T) : Course σ T α :=
  ⟨.error cause, []⟩

/-- Goes on after a failure as a handler tells. -/
def rescue (c : Course σ T α) (handler : Cause σ T → Course σ T α) : Course σ T α :=
  match c.outcome with
  | .ok _ => c
  | .error cause => ⟨(handler cause).outcome, c.deeds ++ (handler cause).deeds⟩

/-- Does some last things, whether or not there was a failure. -/
def ensuring (c : Course σ T α) (last : List (Deed σ T)) : Course σ T α :=
  ⟨c.outcome, c.deeds ++ last⟩

/-- What was printed. -/
def output (c : Course σ T α) : String :=
  String.join (c.deeds.filterMap Deed.text?)

/-- What was done, the log aside. -/
def unlogged (c : Course σ T α) : List (Deed σ T) :=
  c.deeds.filter fun d => !d.isLogged

/-- How a run ends that does not fail: its exit code, its output, and what it did apart from
writing its log. -/
def EndsWith (c : Course σ T Nat) (code : Nat) (output : String) (deeds : List (Deed σ T)) :
    Prop :=
  c.outcome = .ok code ∧ c.output = output ∧ c.unlogged = deeds

/-- The report on a run that ends with an exit code. -/
def report (c : Course σ T Nat) (threshold : Level) : Except (Cause σ T) (Report σ T) :=
  c.outcome.map fun code =>
    { code := code
      output := c.output
      complaint := LogEntry.report threshold (c.deeds.filterMap Deed.entry?)
      actions := c.deeds.filterMap Deed.action? }

end Course

namespace Command

variable {σ T : Type}

/-- Reads the program file and logs its size. -/
def loadProgram (disk : Disk) (o : Options) : Course σ T (Option (List UInt8)) :=
  match Rom.read disk (Path.ofText o.rom) with
  | .error (.unreadable cause) => .fail (.failure (.file cause))
  | .error (.tooLarge size) => .fail (.tooLarge size)
  | .ok bytes => do
      .perform [.logged (Rom.loadedEntry bytes)]
      return some bytes

/-- Logs why there is no program. -/
def logRefusal (e : RomError) : Course σ T (Option (List UInt8)) := do
  .perform [.logged ⟨.error, .command, "Cannot load ROM: " ++ e.message⟩]
  return none

/-- What is done if there is no program: a missing and an oversized file are reported. -/
def onRefusal : Cause σ T → Course σ T (Option (List UInt8))
  | .failure (.file (.missing path)) => logRefusal (.unreadable (.missing path))
  | .tooLarge size => logRefusal (.tooLarge size)
  | cause => .fail cause

/-- What is done if the frames end by a failure: an interrupt is taken for a wish to leave. -/
def onLeaving : Cause σ T → Course σ T Unit
  | .interrupted => .perform [.printed "\nExiting.\n"]
  | cause => .fail cause

/-- Opens the console for the options. -/
def openConsole (mixer : Mixer) (o : Options) : Course σ T Console :=
  match console mixer o with
  | .error e => .fail (.failure e)
  | .ok opened => do
      .perform ((Console.mixerLog mixer).map .logged)
      .perform [.opened opened.2]
      return opened.1

variable [Instant T] [Host σ T]

/-- A frame, whose steps are logged. -/
def makeFrame (m : Machine T) (host : σ) (input : Input) (cycles : Int) :
    Course σ T (Frame σ T) :=
  match m.frame? host input cycles with
  | .error e => .fail (.frame e)
  | .ok f => do
      .perform ((f.notices.map Notice.entry).map .logged)
      return f

/-- Polls, makes a frame and shows it, until a poll asks to stop or is interrupted. A poll that
the script has nothing for asks to stop. -/
def frameLoop (cycles : Int) (m : Machine T) (host : σ) (pad : Keypad) (c : Console) :
    List (Happening σ) → Course σ T Unit
  | [] => .perform [.polled]
  | .interrupt :: _ => do
      .perform [.polled]
      .fail .interrupted
  | .events pass events :: rest => do
      .perform [.polled]
      let poll := pad.poll events
      if poll.running then
        let f ← makeFrame m (pass host) poll.input cycles
        let next := c.follow f.snapshot
        .perform [.shown f next.1.window next.2, .paused]
        frameLoop cycles f.machine f.host poll.pad next.1 rest
      else return ()

/-- Makes frames at the instruction rate of the options, which has to be a number. -/
def drive (clock : Option Int) (m : Machine T) (host : σ) (c : Console)
    (script : List (Happening σ)) : Course σ T Unit :=
  match clock with
  | none => .fail (.failure (.emptyOption .clock))
  | some rate => frameLoop (max 1 (rate / 60)) m host .released c script

/-- Runs a program on a console, which is closed in any case. -/
def runProgram (mixer : Mixer) (host : σ) (script : List (Happening σ)) (o : Options)
    (bytes : List UInt8) : Course σ T Nat := do
  let c ← openConsole mixer o
  let booted := Machine.boot bytes host
  .perform [.booted]
  ((drive o.clock booted.1 booted.2 c script).rescue onLeaving).ensuring [.closed]
  return 0

/-- Does what the options ask for and returns the exit code. -/
def course (disk : Disk) (mixer : Mixer) (host : σ) (script : List (Happening σ))
    (o : Options) : Course σ T Nat := do
  let program ← (loadProgram disk o).rescue onRefusal
  match program with
  | none => return 1
  | some bytes =>
      if o.disassemble then
        .perform [.printed (Listing.text bytes Listing.defaultOrigin ++ "\n")]
        return 0
      else runProgram mixer host script o bytes

end Command

end Chip8
