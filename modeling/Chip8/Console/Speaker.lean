import Chip8.Console.Wave

/-!
# The speaker

The speaker plays one looped tone. It asks a mixer for its services; the requests are
kept in order. Without a mixer it stays silent. The tone is started and stopped only
when its state changes.
-/

namespace Chip8

/-- The sound output that is at hand. -/
inductive Mixer where
  /-- There is none, for a reason. -/
  | missing (reason : String)
  /-- A mixer with a number of output channels. -/
  | ready (channels : Nat)
deriving DecidableEq, Repr

/-- A sound: the samples of a channel, and how many channels play them. -/
structure Sound where
  channels : Nat
  /-- The samples, the same for every channel. -/
  samples : List Int
deriving DecidableEq, Repr

namespace Sound

/-- Whether the samples are laid out by channel, as they are for more than one. -/
def layered (s : Sound) : Bool :=
  1 < s.channels

/-- The places at which a sample differs from the one before. -/
def edges (s : Sound) : List Nat :=
  ((s.samples.zip (s.samples.drop 1)).zipIdx 1).filterMap fun p =>
    if p.1.1 ≠ p.1.2 then some p.2 else none

end Sound

/-- A request to the mixer. -/
inductive MixerCall where
  /-- Asks for a rate, a sample format, channels and a buffer size. -/
  | configure (rate format channels buffer : Int)
  | start
  | load (sound : Sound)
  /-- Sets the volume in tenths. -/
  | volume (tenths : Nat)
  /-- Plays the sound in a loop. -/
  | play
  | stop
deriving DecidableEq, Repr

/-- A speaker with its sound, if it has one. -/
structure Speaker where
  sound : Option Sound
  playing : Bool
deriving DecidableEq, Repr

namespace Speaker

/-- Sets a speaker up for a tone; the second part holds the requests made. -/
def create (mixer : Mixer) (tone : Int) : Speaker × List MixerCall :=
  let configure := MixerCall.configure Wave.defaultRate (-16) 1 256
  match mixer with
  | .missing _ => (⟨none, false⟩, [configure])
  | .ready channels =>
      let sound : Sound := ⟨channels, Wave.samples tone Wave.defaultRate Wave.defaultCount⟩
      (⟨some sound, false⟩, [configure, .start, .load sound, .volume 2])

/-- Sets a speaker up, unless there is no sound to be made. Layered samples take two bytes
each. -/
def create? (mixer : Mixer) (tone : Int) : Except WaveError (Speaker × List MixerCall) :=
  match mixer with
  | .missing _ => .ok (create mixer tone)
  | .ready channels =>
      if !(Width.fits64 tone && Width.fits64 channels) then .error .tooWide
      else
        match Wave.allocate [Wave.defaultCount, channels] 2 with
        | .error e => .error e
        | .ok _ => .ok (create mixer tone)

/-- Plays or stops the tone if that is a change. -/
def follow (s : Speaker) (on : Bool) : Speaker × List MixerCall :=
  if s.sound.isNone || on == s.playing then (s, [])
  else ({ s with playing := on }, [if on then .play else .stop])

end Speaker

end Chip8
