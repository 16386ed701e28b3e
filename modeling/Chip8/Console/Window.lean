import Chip8.Console.Canvas
import Chip8.Number
import Chip8.Snapshot
import Chip8.Width

/-!
# The window

The window shows each display cell as a square block of pixels. It is redrawn as a
whole, on black, with one white block for each lit cell.

The size of a window is cut to numbers of 32 bits when it is opened. A window that lost
something by that has another size than its blocks need.
-/

namespace Chip8

/-- Why a window cannot be opened. -/
inductive WindowError where
  /-- The scale is no whole number. -/
  | number (cause : NumberError)
  /-- Its size needs more than 64 bits. -/
  | notNumbers
  | negative
  /-- A side is longer than a window may be. -/
  | tooLarge
deriving DecidableEq, Repr

/-- A window and what it shows. -/
structure Window where
  /-- The side of a block in pixels. -/
  scale : Nat
  canvas : Canvas
deriving DecidableEq, Repr

namespace Window

/-- The title of the window. -/
def caption : String := "chipvm"

/-- The scale unless told otherwise. -/
def defaultScale : Number := .whole 10

/-- The black canvas of a window. -/
def ground (scale : Nat) : Canvas :=
  .black (Display.width * scale) (Display.height * scale)

/-- The side of a block: a scale below one counts as one. -/
def side (scale : Int) : Nat :=
  (max 1 scale).toNat

/-- A black window. -/
def create (scale : Int) : Window :=
  ⟨side scale, ground (side scale)⟩

/-- The longest side of a window. -/
def maxSide : Int := 16384

/-- The columns and rows of the screen, which a window without pixels fills. -/
def screen : Nat × Nat := (1024, 768)

/-- The columns and rows of a window of a size, which is cut to signed numbers of 32 bits. -/
def sizeOf (columns rows : Nat) : Except WindowError (Nat × Nat) :=
  let w := Width.signed32 columns
  let h := Width.signed32 rows
  if !(Width.fits64 columns && Width.fits64 rows) then .error .notNumbers
  else if w < 0 ∨ h < 0 then .error .negative
  else if maxSide < w ∨ maxSide < h then .error .tooLarge
  else if w = 0 ∧ h = 0 then .ok screen
  else .ok (w.toNat, h.toNat)

/-- A black window with blocks of a side, unless it cannot be opened. -/
def ofSide? (side : Nat) : Except WindowError Window :=
  (sizeOf (Display.width * side) (Display.height * side)).map fun size =>
    ⟨side, .black size.1 size.2⟩

/-- A black window, unless it cannot be opened. -/
def create? (scale : Number) : Except WindowError Window :=
  match scale.toInt with
  | .error e => .error (.number e)
  | .ok z => ofSide? (side z)

theorem sizeOf_eq {columns rows : Nat} (hc : 0 < columns ∧ columns ≤ 16384)
    (hr : 0 < rows ∧ rows ≤ 16384) : sizeOf columns rows = .ok (columns, rows) := by
  have keep (n : Nat) (hn : n ≤ 16384) :
      Width.signed32 n = n ∧ Width.fits64 n = true :=
    ⟨Width.signed32_eq_self (by omega), Width.fits64_iff.2 (by omega)⟩
  simp only [sizeOf, (keep columns hc.2).1, (keep columns hc.2).2, (keep rows hr.2).1,
    (keep rows hr.2).2, maxSide]
  rw [if_neg (by simp), if_neg (by omega), if_neg (by omega), if_neg (by omega)]
  rfl

theorem ofSide?_of_le {side : Nat} (low : 1 ≤ side) (high : side ≤ 256) :
    ofSide? side = .ok ⟨side, ground side⟩ := by
  have size : sizeOf (Display.width * side) (Display.height * side) =
      .ok (Display.width * side, Display.height * side) := by
    apply sizeOf_eq <;> simp only [Display.width, Display.height] <;> omega
  rw [ofSide?, size]
  rfl

/-- The square of column `x` and row `y` in a grid of squares. -/
def tile (side x y : Nat) : Rect :=
  ⟨x * side, y * side, side, side⟩

/-- The square of a cell with all numbers cut to signed numbers of 32 bits. -/
def cutTile (side x y : Nat) : Rect :=
  .visible (Width.signed32 (x * side : Nat)) (Width.signed32 (y * side : Nat))
    (Width.signed32 side) (Width.signed32 side)

/-- Whether the canvas is as wide as the blocks of a row. -/
def isFull (w : Window) : Bool :=
  w.canvas.width = Display.width * w.scale

/-- The block of the cell at column `x` and row `y`. On a window that got another size than
it was to have, the blocks are cut as its size was. -/
def block (w : Window) (x y : Nat) : Rect :=
  if w.isFull then tile w.scale x y else cutTile w.scale x y

/-- The places of the lit cells of a display, row by row. -/
def litCells (d : Display) : List (Nat × Nat) :=
  (List.range Display.height).flatMap fun y =>
    ((List.range Display.width).filter fun x => d.lit x y).map fun x => (x, y)

/-- Draws a display. -/
def redraw (w : Window) (d : Display) : Window :=
  { w with
    canvas := w.canvas.clear.paintAll ((litCells d).map fun c => w.block c.1 c.2) }

/-- Takes in a snapshot: redraws if it was redrawn. -/
def follow (w : Window) (s : Snapshot) : Window :=
  if s.changed then w.redraw s.display else w

/-- Whether all pixels of a rectangle that lie on a canvas are white. -/
def wholeWhite (c : Canvas) (r : Rect) : Bool :=
  let mask := r.mask c.width
  ((c.rows.drop r.y).take r.height).all fun row => row &&& mask == mask

/-- The squares that are wholly white, as a display, if the width of the canvas is divided
among the columns. -/
def whiteBlocks (w : Window) : Display :=
  let side := w.canvas.width / Display.width
  .ofFn fun x y => wholeWhite w.canvas (tile side x y)

end Window

end Chip8
