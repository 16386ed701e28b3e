import Chip8.Keyboard

/-!
# The keypad

The sixteen keys of the machine lie on a block of sixteen keys of the keyboard, known
by their key codes. A poll goes through the events since the last one: it keeps track
of the held keys, remembers the last key that went down, and notices the wish to stop.
-/

namespace Chip8

/-- What a keyboard or a window reports. -/
inductive KeyEvent where
  | down (code : Int)
  | up (code : Int)
  | quit
  | other
deriving DecidableEq, Repr

/-- Which of the sixteen keys are held. -/
structure Keypad where
  /-- The state of the keys 0 to 15. -/
  held : Vector Bool 16
deriving DecidableEq, Repr

namespace Keypad

/-- The characters on the keys 0 to 15. -/
def characters : Vector Char 16 :=
  #v['x', '1', '2', '3', 'q', 'w', 'e', 'a', 's', 'd', 'z', 'c', '4', 'r', 'f', 'v']

/-- The code of a key: that of its character. -/
def code (key : Fin 16) : Int :=
  (characters[key]).toNat

/-- The code of the key that stops the program. -/
def escapeCode : Int := 27

/-- The key with a code. -/
def keyFor (c : Int) : Option (Fin 16) :=
  (List.finRange 16).find? fun key => code key = c

/-- No key is held. -/
def released : Keypad :=
  ⟨Vector.replicate 16 false⟩

/-- Whether a key is held. -/
def isHeld (p : Keypad) (key : Fin 16) : Bool :=
  p.held[key]

/-- Holds or releases a key. -/
def set (p : Keypad) (key : Fin 16) (down : Bool) : Keypad :=
  ⟨p.held.set key down⟩

/-- The held keys in increasing order. -/
def heldKeys (p : Keypad) : List (Fin 16) :=
  (List.finRange 16).filter p.isHeld

/-- The keypad as a keyboard, on which all other keys are released. -/
def keyboard (p : Keypad) : Keyboard :=
  fun j => if h : 0 ≤ j ∧ j < 16 then p.isHeld ⟨j.toNat, by omega⟩ else false

theorem isHeld_set (p : Keypad) (k j : Fin 16) (down : Bool) :
    (p.set k down).isHeld j = if k = j then down else p.isHeld j := by
  simp [isHeld, set, Vector.getElem_set, Fin.ext_iff]

/-- Different keys have different codes. -/
theorem code_injective (j k : Fin 16) (h : code j = code k) : j = k := by
  revert j k
  decide

theorem keyFor_code (k : Fin 16) : keyFor (code k) = some k := by
  revert k
  decide

theorem keyFor_eq_some_iff {c : Int} {k : Fin 16} : keyFor c = some k ↔ code k = c := by
  constructor
  · intro h
    simpa using List.find?_some h
  · rintro rfl
    exact keyFor_code k

end Keypad

/-- The state of a poll while it goes through its events. -/
structure KeyPoll where
  pad : Keypad
  /-- The last key that went down in this poll. -/
  press : Option (Fin 16)
  /-- Whether nothing has asked to stop. -/
  running : Bool
deriving DecidableEq, Repr

namespace KeyPoll

/-- Takes in one event. The key that stops the program does so going down or up. -/
def take (p : KeyPoll) : KeyEvent → KeyPoll
  | .quit => { p with running := false }
  | .other => p
  | .down c =>
      if c = Keypad.escapeCode then { p with running := false }
      else
        match Keypad.keyFor c with
        | none => p
        | some k => { p with pad := p.pad.set k true, press := some k }
  | .up c =>
      if c = Keypad.escapeCode then { p with running := false }
      else
        match Keypad.keyFor c with
        | none => p
        | some k => { p with pad := p.pad.set k false }

end KeyPoll

namespace Keypad

/-- Polls: takes in the events since the last poll. -/
def poll (p : Keypad) (events : List KeyEvent) : KeyPoll :=
  events.foldl KeyPoll.take ⟨p, none, true⟩

end Keypad

namespace KeyPoll

/-- The input that a poll gives to a frame. -/
def input (p : KeyPoll) : Input :=
  { keys := p.pad.keyboard
    press := p.press.map fun k => (k.val : Int) }

end KeyPoll

end Chip8
