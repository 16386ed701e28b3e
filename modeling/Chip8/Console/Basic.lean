import Chip8.Console.Keypad
import Chip8.Console.Speaker
import Chip8.Console.Window
import Chip8.Log

/-!
# The console

A console is a window with a speaker. It follows the snapshots of a machine.
-/

namespace Chip8

/-- A window with a speaker. -/
structure Console where
  window : Window
  speaker : Speaker
deriving DecidableEq, Repr

/-- Why a console cannot be made. -/
inductive ConsoleError where
  /-- Its window cannot be opened. -/
  | window (cause : WindowError)
  /-- Its sound cannot be made. -/
  | wave (cause : WaveError)
deriving DecidableEq, Repr

namespace Console

/-- A console at a scale, for a tone; the second part holds the requests made. -/
def create (mixer : Mixer) (scale tone : Int) : Console × List MixerCall :=
  let speaker := Speaker.create mixer tone
  (⟨Window.create scale, speaker.1⟩, speaker.2)

/-- A console, unless its window or its sound cannot be made. -/
def create? (mixer : Mixer) (scale : Number) (tone : Int) :
    Except ConsoleError (Console × List MixerCall) :=
  match Window.create? scale with
  | .error e => .error (.window e)
  | .ok window =>
      match Speaker.create? mixer tone with
      | .error e => .error (.wave e)
      | .ok speaker => .ok (⟨window, speaker.1⟩, speaker.2)

/-- What there is to log about a mixer: that it is missing. -/
def mixerLog : Mixer → List LogEntry
  | .missing reason => [⟨.info, .console, "Audio disabled: " ++ reason⟩]
  | .ready _ => []

/-- Takes in a snapshot; the second part holds the requests made. -/
def follow (c : Console) (s : Snapshot) : Console × List MixerCall :=
  let speaker := c.speaker.follow s.sound
  (⟨c.window.follow s, speaker.1⟩, speaker.2)

/-- The console and its requests after each of a list of snapshots. -/
def followAll (c : Console) : List Snapshot → List (Console × List MixerCall)
  | [] => []
  | s :: rest =>
      let next := c.follow s
      next :: next.1.followAll rest

end Console

end Chip8
