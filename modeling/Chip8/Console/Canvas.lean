/-!
# Canvases

A canvas is a rectangle of pixels that are black or white. It starts black; painting
a rectangle turns exactly the pixels of that rectangle white.
-/

namespace Chip8

/-- A rectangle of pixels. -/
structure Rect where
  x : Nat
  y : Nat
  width : Nat
  height : Nat
deriving DecidableEq, Repr

namespace Rect

/-- The part of a rectangle that lies on or after the first column and row; it is empty if
a side is negative. -/
def visible (left top width height : Int) : Rect :=
  ⟨left.toNat, top.toNat, (left + width).toNat - left.toNat,
    (top + height).toNat - top.toNat⟩

/-- Whether a pixel lies in a rectangle. -/
def contains (r : Rect) (px py : Nat) : Bool :=
  r.x ≤ px && px < r.x + r.width && r.y ≤ py && py < r.y + r.height

/-- The columns of a rectangle as the bits of a number, as far as they lie among the first
`limit` ones. -/
def mask (r : Rect) (limit : Nat) : Nat :=
  (1 <<< min r.width (limit - r.x) - 1) <<< min r.x limit

theorem testBit_mask (r : Rect) (limit px : Nat) :
    (r.mask limit).testBit px =
      (decide (r.x ≤ px) && decide (px < r.x + r.width) && decide (px < limit)) := by
  simp only [mask, Nat.one_shiftLeft, Nat.testBit_shiftLeft, Nat.testBit_two_pow_sub_one]
  rw [Bool.eq_iff_iff]
  simp only [Bool.and_eq_true, decide_eq_true_eq]
  omega

end Rect

/-- Black and white pixels; row `y` is white where its number has a one bit. -/
structure Canvas where
  width : Nat
  /-- The rows from the top. -/
  rows : List Nat
deriving DecidableEq, Repr

namespace Canvas

/-- A black canvas. -/
def black (width height : Nat) : Canvas :=
  ⟨width, List.replicate height 0⟩

/-- A black canvas of the same size. -/
def clear (c : Canvas) : Canvas :=
  black c.width c.rows.length

/-- The number of rows. -/
def height (c : Canvas) : Nat :=
  c.rows.length

/-- Whether a pixel is white. -/
def isWhite (c : Canvas) (px py : Nat) : Bool :=
  (c.rows.getD py 0).testBit px

/-- Paints a rectangle white, as far as it lies on the canvas. -/
def paint (c : Canvas) (r : Rect) : Canvas :=
  let mask := r.mask c.width
  { c with
    rows := c.rows.mapIdx fun y row =>
      if r.y ≤ y ∧ y < r.y + r.height then row ||| mask else row }

/-- Paints rectangles in order. -/
def paintAll (c : Canvas) (rs : List Rect) : Canvas :=
  rs.foldl paint c

/-- The number of one bits. -/
def bitCount (n : Nat) : Nat :=
  if n = 0 then 0 else n % 2 + bitCount (n / 2)
termination_by n
decreasing_by omega

/-- The number of one bits in a list of numbers. Next to an equal number a number is not
counted anew: `last` and `count` are the latest number and its count. -/
def bitCountAll (last count : Nat) : List Nat → Nat
  | [] => 0
  | n :: rest =>
      if n = last then count + bitCountAll last count rest
      else bitCount n + bitCountAll n (bitCount n) rest

/-- The number of white pixels. -/
def whiteCount (c : Canvas) : Nat :=
  bitCountAll 0 0 c.rows

@[simp] theorem height_black (width height : Nat) : (black width height).height = height := by
  simp [Canvas.height, black]

@[simp] theorem height_paint (c : Canvas) (r : Rect) : (c.paint r).height = c.height := by
  simp [Canvas.height, paint]

@[simp] theorem isWhite_black (width height px py : Nat) :
    (black width height).isWhite px py = false := by
  simp only [isWhite, black, List.getD_eq_getElem?_getD, List.getElem?_replicate]
  by_cases h : py < height <;> simp [h]

/-- Painting turns exactly the pixels of the rectangle white. -/
theorem isWhite_paint (c : Canvas) (r : Rect) (px py : Nat) :
    (c.paint r).isWhite px py =
      (c.isWhite px py ||
        (r.contains px py && decide (px < c.width) && decide (py < c.height))) := by
  simp only [isWhite, paint, List.getD_eq_getElem?_getD, List.getElem?_mapIdx, height]
  by_cases h : py < c.rows.length
  · simp only [List.getElem?_eq_getElem h, Option.map_some, Option.getD_some]
    by_cases hr : r.y ≤ py ∧ py < r.y + r.height
    · simp [hr, h, Nat.testBit_or, Rect.testBit_mask, Rect.contains]
    · simp only [hr, ite_false, h, decide_true, Bool.and_true]
      have : r.contains px py = false := by
        simp only [Rect.contains, Bool.and_eq_false_iff, decide_eq_false_iff_not]
        omega
      simp [this]
  · simp [h]

end Canvas

end Chip8
