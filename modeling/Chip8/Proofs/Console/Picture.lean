import Chip8.Console.Window

/-!
# What a redrawn window shows

Painting squares side by side tiles the window: a pixel lies in the square of exactly one
cell, the one found by dividing its coordinates by the side. So a redrawn window is white
exactly where the display is lit.
-/

namespace Chip8

namespace Canvas

@[simp] theorem width_paint (c : Canvas) (r : Rect) : (c.paint r).width = c.width := rfl

theorem size_paintAll (c : Canvas) (rs : List Rect) :
    (c.paintAll rs).width = c.width ∧ (c.paintAll rs).height = c.height := by
  induction rs generalizing c with
  | nil => exact ⟨rfl, rfl⟩
  | cons r rest ih =>
      have later := ih (c.paint r)
      rw [width_paint, height_paint] at later
      exact later

/-- A pixel of a canvas is white after painting if it was, or if a rectangle covers it. -/
theorem isWhite_paintAll (c : Canvas) (rs : List Rect) (px py : Nat) (hx : px < c.width)
    (hy : py < c.height) :
    (c.paintAll rs).isWhite px py = (c.isWhite px py || rs.any fun r => r.contains px py) := by
  induction rs generalizing c with
  | nil => simp [paintAll]
  | cons r rest ih =>
      have later := ih (c.paint r) (by simpa using hx) (by simpa using hy)
      rw [isWhite_paint, decide_eq_true hx, decide_eq_true hy, Bool.and_true, Bool.and_true,
        Bool.or_assoc] at later
      exact later

/-- Whether a canvas shows a display with squares of a side. -/
def Shows (c : Canvas) (side : Nat) (d : Display) : Prop :=
  ∀ px py, px < Display.width * side → py < Display.height * side →
    c.isWhite px py = d.lit (px / side) (py / side)

end Canvas

namespace Window

/-- The squares of a grid tile the plane. -/
theorem contains_tile {side : Nat} (h : 0 < side) (x y px py : Nat) :
    (tile side x y).contains px py = (decide (px / side = x) && decide (py / side = y)) := by
  have column := Nat.div_eq_iff (x := px) (y := x) h
  have row := Nat.div_eq_iff (x := py) (y := y) h
  rw [Bool.eq_iff_iff]
  simp only [Rect.contains, Bool.and_eq_true, decide_eq_true_eq, column, row]
  simp only [tile]
  omega

theorem mem_litCells {d : Display} {x y : Nat} :
    (x, y) ∈ litCells d ↔ x < Display.width ∧ y < Display.height ∧ d.lit x y = true := by
  simp only [litCells, List.mem_flatMap, List.mem_range, List.mem_map, List.mem_filter,
    Prod.mk.injEq]
  constructor
  · rintro ⟨v, hv, u, ⟨hu, lit⟩, rfl, rfl⟩
    exact ⟨hu, hv, lit⟩
  · rintro ⟨hx, hy, lit⟩
    exact ⟨y, hy, x, ⟨hx, lit⟩, rfl, rfl⟩

/-- Whether a window has room for all squares of its side. -/
structure Fits (w : Window) : Prop where
  side : 0 < w.scale
  width : w.canvas.width = Display.width * w.scale
  height : w.canvas.height = Display.height * w.scale

theorem fits_create (scale : Int) : (create scale).Fits where
  side := by
    simp only [create, side]
    omega
  width := rfl
  height := Canvas.height_black _ _

theorem shows_create (scale : Int) :
    (create scale).canvas.Shows (side scale) Display.blank := by
  intro px py _ _
  rw [Display.lit_blank]
  exact Canvas.isWhite_black _ _ px py

/-- A window that is opened as wide as its squares need is the window of the full size. -/
theorem ofSide?_of_isFull {side : Nat} {w : Window} (positive : 0 < side)
    (h : ofSide? side = .ok w) (full : w.isFull = true) : w = ⟨side, ground side⟩ := by
  suffices small : side ≤ 256 by
    rw [ofSide?_of_le positive small] at h
    exact (Except.ok.inj h).symm
  obtain ⟨size, opened, rfl⟩ : ∃ size, sizeOf (Display.width * side) (Display.height * side) =
      .ok size ∧ ⟨side, .black size.1 size.2⟩ = w := by
    rw [ofSide?] at h
    cases hs : sizeOf (Display.width * side) (Display.height * side) with
    | error e => rw [hs] at h; cases h
    | ok size => rw [hs] at h; exact ⟨size, rfl, Except.ok.inj h⟩
  have wide : size.1 = 64 * side := of_decide_eq_true full
  simp only [sizeOf] at opened
  split at opened
  · cases opened
  split at opened
  · cases opened
  split at opened
  · cases opened
  rename_i bounded
  split at opened
  · -- the screen is 1024 columns wide, which squares of side 16 need
    have screen : size.1 = 1024 := by rw [← Except.ok.inj opened]; rfl
    omega
  · have columns : size.1 = (Width.signed32 (Display.width * side : Nat)).toNat := by
      rw [← Except.ok.inj opened]
    simp only [maxSide] at bounded
    omega

/-- What is opened for a number at its full size is the window of that scale. -/
theorem create?_of_isFull {scale : Number} {w : Window} (h : create? scale = .ok w)
    (full : w.isFull = true) : ∃ z, scale.toInt = .ok z ∧ w = create z := by
  unfold create? at h
  cases hz : scale.toInt with
  | error e => rw [hz] at h; cases h
  | ok z =>
      rw [hz] at h
      exact ⟨z, rfl, ofSide?_of_isFull (by simp only [side]; omega) h full⟩

theorem Fits.redraw {w : Window} (h : w.Fits) (d : Display) : (w.redraw d).Fits := by
  have size := Canvas.size_paintAll w.canvas.clear
    ((litCells d).map fun c => w.block c.1 c.2)
  refine ⟨h.side, ?_, ?_⟩
  · exact size.1.trans h.width
  · calc
      (w.redraw d).canvas.height = w.canvas.clear.height := size.2
      _ = w.canvas.height := Canvas.height_black _ _
      _ = Display.height * w.scale := h.height

/-- A redrawn window shows the display. -/
theorem Fits.shows_redraw {w : Window} (h : w.Fits) (d : Display) :
    (w.redraw d).canvas.Shows w.scale d := by
  intro px py hx hy
  have column : px / w.scale < Display.width := Nat.div_lt_of_lt_mul (by rwa [Nat.mul_comm])
  have row : py / w.scale < Display.height := Nat.div_lt_of_lt_mul (by rwa [Nat.mul_comm])
  have full : w.isFull = true := decide_eq_true h.width
  have black : w.canvas.clear.isWhite px py = false := Canvas.isWhite_black _ _ px py
  have painted := Canvas.isWhite_paintAll w.canvas.clear
    ((litCells d).map fun c => w.block c.1 c.2) px py
    (by rw [← h.width] at hx; exact hx)
    (by rw [← h.height] at hy; exact Nat.lt_of_lt_of_eq hy (Canvas.height_black _ _).symm)
  rw [black, Bool.false_or, List.any_map] at painted
  rw [Window.redraw, painted, Bool.eq_iff_iff, List.any_eq_true]
  constructor
  · rintro ⟨⟨x, y⟩, listed, covers⟩
    simp only [Function.comp_apply, block, full, if_true, contains_tile h.side,
      Bool.and_eq_true, decide_eq_true_eq] at covers
    rw [covers.1, covers.2]
    exact (mem_litCells.1 listed).2.2
  · intro lit
    refine ⟨(px / w.scale, py / w.scale), mem_litCells.2 ⟨column, row, lit⟩, ?_⟩
    simp [block, full, contains_tile h.side]

end Window

end Chip8
