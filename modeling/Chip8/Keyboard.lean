/-!
# Key states

A keyboard tells of every key number whether the key is held. Only the numbers 0 to
15 belong to keys of the machine; a key that nothing is said about is released.
-/

namespace Chip8

/-- Whether each key is held. -/
abbrev Keyboard := Int → Bool

namespace Keyboard

/-- No key is held. -/
def released : Keyboard :=
  fun _ => false

/-- The keyboard with the state of one key replaced. -/
def set (k : Keyboard) (key : Int) (held : Bool) : Keyboard :=
  fun j => if j = key then held else k j

/-- The keyboard described by a list of key states, of which later ones win. -/
def ofPairs (states : List (Int × Bool)) : Keyboard :=
  states.foldl (fun k s => set k s.1 s.2) released

end Keyboard

/-- What a step is given: the held keys, and the key that was just pressed, if any. -/
structure Input where
  keys : Keyboard := Keyboard.released
  /-- The key that was just pressed; only its low four bits count. -/
  press : Option Int := none

end Chip8
