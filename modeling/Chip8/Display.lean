import Chip8.Position

/-!
# The display

The display is 64 columns by 32 rows of cells that are lit or dark. Coordinates wrap
around both edges. A sprite toggles the cells under its lit bits.
-/

namespace Chip8

/-- 64 by 32 cells, row by row. -/
structure Display where
  /-- The cells; column `x` of row `y` is cell `64 * y + x`. -/
  cells : Vector Bool 2048
deriving DecidableEq

namespace Display

/-- Columns of the display. -/
def width : Nat := 64

/-- Rows of the display. -/
def height : Nat := 32

/-- All cells dark. -/
def blank : Display :=
  ⟨Vector.replicate 2048 false⟩

/-- The place of the cell at column `x` and row `y`, both wrapped. -/
def index (x y : Nat) : Fin 2048 :=
  ⟨y % 32 * 64 + x % 64, by omega⟩

/-- Whether the cell at column `x` and row `y` is lit. -/
def lit (d : Display) (x y : Nat) : Bool :=
  d.cells[index x y]

/-- Lights the cell at column `x` and row `y`. -/
def light (d : Display) (x y : Nat) : Display :=
  ⟨d.cells.set (index x y) true⟩

/-- Lights the cell at column `x` and row `y` without wrapping at the edges: a column may
run on into other rows, and places below zero count back from the end. -/
def light? (d : Display) (x y : Int) : Except PositionError Display :=
  (Position.resolve 2048 (64 * y + x)).map fun k => d.light (k.val % 64) (k.val / 64)

/-- Changes the cell at column `x` and row `y`. -/
def toggle (d : Display) (x y : Nat) : Display :=
  ⟨d.cells.set (index x y) (!d.lit x y)⟩

/-- The display whose lit cells are given by a function of column and row. -/
def ofFn (f : Nat → Nat → Bool) : Display :=
  ⟨Vector.ofFn fun k => f (k.val % 64) (k.val / 64)⟩

/-- The cells of row `y`, from the left. -/
def row (d : Display) (y : Nat) : List Bool :=
  (List.range width).map fun x => d.lit x y

/-- All rows, from the top. -/
def rows (d : Display) : List (List Bool) :=
  (List.range height).map d.row

/-- Displays with the same lit cells are the same. -/
theorem ext_lit {d e : Display} (h : ∀ x y, d.lit x y = e.lit x y) : d = e := by
  cases d with
  | mk u => cases e with
    | mk v =>
        congr 1
        apply Vector.ext
        intro i hi
        have hk : (index (i % 64) (i / 64)).val = i := by
          simp only [index]
          omega
        simpa [lit, hk] using h (i % 64) (i / 64)

theorem index_inj {x y u v : Nat} :
    index x y = index u v ↔ x % 64 = u % 64 ∧ y % 32 = v % 32 := by
  simp only [index, Fin.mk.injEq]
  omega

/-- Only the column modulo 64 and the row modulo 32 matter. -/
theorem lit_mod (d : Display) (x y : Nat) : d.lit (x % 64) (y % 32) = d.lit x y := by
  have same : index (x % 64) (y % 32) = index x y := index_inj.2 (by omega)
  simp only [lit, same]

@[simp] theorem lit_blank (x y : Nat) : blank.lit x y = false := by
  simp [lit, blank]

theorem lit_toggle (d : Display) (x y u v : Nat) :
    (d.toggle x y).lit u v =
      (d.lit u v ^^ decide (x % 64 = u % 64 ∧ y % 32 = v % 32)) := by
  by_cases h : x % 64 = u % 64 ∧ y % 32 = v % 32
  · have hk : index x y = index u v := index_inj.2 h
    simp [toggle, lit, h, hk]
  · have hk : (index x y).val ≠ (index u v).val := fun e => h (index_inj.1 (Fin.ext e))
    simp [toggle, lit, h, hk]

theorem lit_light (d : Display) (x y u v : Nat) :
    (d.light x y).lit u v =
      (d.lit u v || decide (x % 64 = u % 64 ∧ y % 32 = v % 32)) := by
  by_cases h : x % 64 = u % 64 ∧ y % 32 = v % 32
  · have hk : index x y = index u v := index_inj.2 h
    simp [light, lit, h, hk]
  · have hk : (index x y).val ≠ (index u v).val := fun e => h (index_inj.1 (Fin.ext e))
    simp [light, lit, h, hk]

end Display

end Chip8
