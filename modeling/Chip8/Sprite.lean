import Chip8.Display

/-!
# Sprites

A sprite is a list of bytes, one for each row of eight pixels, leftmost bit first.
Drawing toggles the cells under its lit pixels one after another and reports whether
one of them was lit before it was toggled.
-/

namespace Chip8

/-- The rows of a sprite, from the top. -/
abbrev Sprite := List UInt8

namespace Sprite

/-- Whether column `c` of a row is lit; there are eight columns. -/
def pixel (row : UInt8) (c : Nat) : Bool :=
  row.toNat.testBit (7 - c)

/-- The cells under the lit pixels of a row drawn at column `x` of row `y`. -/
def rowCells (row : UInt8) (x y : Nat) : List (Nat × Nat) :=
  ((List.range 8).filter (pixel row)).map fun c => (x + c, y)

/-- The cells under the lit pixels of a sprite whose top left corner is at `x`, `y`. -/
def cells (x : Nat) : Nat → Sprite → List (Nat × Nat)
  | _, [] => []
  | y, row :: rest => rowCells row x y ++ cells x (y + 1) rest

end Sprite

namespace Display

/-- Toggles cells in order; the flag tells whether one was lit when its turn came. -/
def toggleAll (d : Display) : List (Nat × Nat) → Display × Bool
  | [] => (d, false)
  | (x, y) :: rest =>
      let hit := d.lit x y
      let drawn := (d.toggle x y).toggleAll rest
      (drawn.1, hit || drawn.2)

/-- Draws a sprite with its top left corner at `x`, `y`. -/
def draw (d : Display) (s : Sprite) (x y : Nat) : Display × Bool :=
  d.toggleAll (s.cells x y)

@[simp] theorem toggleAll_nil (d : Display) : d.toggleAll [] = (d, false) := rfl

theorem toggleAll_cons (d : Display) (x y : Nat) (rest : List (Nat × Nat)) :
    d.toggleAll ((x, y) :: rest) =
      (((d.toggle x y).toggleAll rest).1, d.lit x y || ((d.toggle x y).toggleAll rest).2) :=
  rfl

/-- A cell ends up changed once for each time it is listed. -/
theorem lit_toggleAll (d : Display) (cs : List (Nat × Nat)) (u v : Nat) :
    (d.toggleAll cs).1.lit u v =
      (d.lit u v ^^
        decide (cs.countP (fun c => c.1 % 64 = u % 64 ∧ c.2 % 32 = v % 32) % 2 = 1)) := by
  induction cs generalizing d with
  | nil => simp
  | cons c rest ih =>
      obtain ⟨x, y⟩ := c
      rw [toggleAll_cons, ih, lit_toggle, List.countP_cons]
      by_cases h : x % 64 = u % 64 ∧ y % 32 = v % 32
      · simp only [h, and_self, decide_true, ite_true, Bool.xor_true, Bool.not_xor]
        rw [← Bool.xor_not]
        congr 1
        grind
      · simp [h]

end Display

end Chip8
