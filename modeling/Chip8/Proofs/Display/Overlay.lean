import Chip8.Sprite
import Mathlib.Data.List.Nodup

/-!
# What drawing a sprite changes

A sprite has eight columns and, here, at most as many rows as the display. So no two of its
pixels lie on one cell, wherever it is drawn and however it wraps at the edges. Drawing it
toggles the cells under its lit pixels once each, and the flag tells whether one of them was
lit before.
-/

namespace Chip8

namespace Display

/-- The place of a cell that is given by column and row. -/
def place (c : Nat × Nat) : Fin 2048 :=
  index c.1 c.2

theorem place_inj {c e : Nat × Nat} :
    place c = place e ↔ c.1 % 64 = e.1 % 64 ∧ c.2 % 32 = e.2 % 32 :=
  index_inj

/-- Toggling a cell leaves the cells at other places alone. -/
theorem lit_toggle_of_ne (d : Display) {x y : Nat} {c : Nat × Nat} (h : place (x, y) ≠ place c) :
    (d.toggle x y).lit c.1 c.2 = d.lit c.1 c.2 := by
  rw [lit_toggle, decide_eq_false (fun same => h (place_inj.2 same)), Bool.xor_false]

/-- Cells at different places are toggled once each. -/
theorem lit_toggleAll_of_nodup (d : Display) {cs : List (Nat × Nat)}
    (apart : (cs.map place).Nodup) (u v : Nat) :
    (d.toggleAll cs).1.lit u v = (d.lit u v ^^ (cs.map place).contains (place (u, v))) := by
  have times : (cs.countP fun c => c.1 % 64 = u % 64 ∧ c.2 % 32 = v % 32) =
      (cs.map place).count (place (u, v)) := by
    rw [List.count, List.countP_map]
    apply List.countP_congr
    intro c _
    simp [place_inj]
  rw [lit_toggleAll, times, apart.count]
  by_cases listed : place (u, v) ∈ cs.map place <;> simp [listed]

/-- The flag for cells at different places tells whether one of them was lit at the start. -/
theorem toggleAll_flag_of_nodup (d : Display) {cs : List (Nat × Nat)}
    (apart : (cs.map place).Nodup) :
    (d.toggleAll cs).2 = true ↔ ∃ c ∈ cs, d.lit c.1 c.2 = true := by
  induction cs generalizing d with
  | nil => simp
  | cons c rest ih =>
      obtain ⟨x, y⟩ := c
      rw [List.map_cons, List.nodup_cons] at apart
      -- the cells that are still to come have not been touched yet
      have later : (∃ c ∈ rest, (d.toggle x y).lit c.1 c.2 = true) ↔
          ∃ c ∈ rest, d.lit c.1 c.2 = true := by
        apply exists_congr
        intro c
        apply and_congr_right
        intro listed
        have other : place (x, y) ≠ place c := by
          intro same
          exact apart.1 (same ▸ List.mem_map_of_mem listed)
        rw [lit_toggle_of_ne d other]
      rw [toggleAll_cons, Bool.or_eq_true, ih _ apart.2, later, List.exists_mem_cons_iff]

end Display

namespace Sprite

/-- Whether a sprite has a lit pixel at a row and a column. -/
def pixelAt (s : Sprite) (row column : Nat) : Bool :=
  decide (column < 8) && s[row]?.any fun bits => pixel bits column

/-- Whether a sprite with its top left corner at column `x` and row `y` has a lit pixel over the
cell at column `u` and row `v`, counted from the corner to the right and down, around the
edges. -/
def covers (s : Sprite) (x y u v : Nat) : Bool :=
  s.pixelAt (((v : Int) - y) % 32).toNat (((u : Int) - x) % 64).toNat

theorem mem_rowCells {row : UInt8} {x y : Nat} {cell : Nat × Nat} :
    cell ∈ rowCells row x y ↔ ∃ c < 8, pixel row c = true ∧ cell = (x + c, y) := by
  simp only [rowCells, List.mem_map, List.mem_filter, List.mem_range, and_assoc, eq_comm]

/-- The listed cells are those under the lit pixels. -/
theorem mem_cells {s : Sprite} {x y : Nat} {cell : Nat × Nat} :
    cell ∈ s.cells x y ↔ ∃ r c, s.pixelAt r c = true ∧ cell = (x + c, y + r) := by
  induction s generalizing y with
  | nil => simp [cells, pixelAt]
  | cons row rest ih =>
      rw [cells, List.mem_append, mem_rowCells, ih]
      constructor
      · rintro (⟨c, inside, lit, rfl⟩ | ⟨r, c, lit, rfl⟩)
        · exact ⟨0, c, by simp [pixelAt, inside, lit], rfl⟩
        · exact ⟨r + 1, c, lit, by rw [Nat.add_right_comm, Nat.add_assoc]⟩
      · rintro ⟨r, c, lit, rfl⟩
        cases r with
        | zero =>
            left
            simpa [pixelAt] using lit
        | succ r => exact .inr ⟨r, c, lit, by rw [Nat.add_right_comm, Nat.add_assoc]⟩

/-- No pixel is listed twice. -/
theorem nodup_cells (s : Sprite) (x y : Nat) : (s.cells x y).Nodup := by
  induction s generalizing y with
  | nil => exact List.nodup_nil
  | cons row rest ih =>
      rw [cells, List.nodup_append]
      refine ⟨?_, ih (y + 1), ?_⟩
      · apply List.Nodup.map
        · intro c e same
          simpa using same
        · exact List.nodup_range.filter _
      · intro first here second below same
        obtain ⟨_, _, _, rfl⟩ := mem_rowCells.1 here
        obtain ⟨r, c, _, rfl⟩ := mem_cells.1 below
        simp only [Prod.mk.injEq] at same
        omega

theorem lt_of_pixelAt {s : Sprite} {r c : Nat} (h : s.pixelAt r c = true) :
    r < s.length ∧ c < 8 := by
  simp only [pixelAt, Bool.and_eq_true, decide_eq_true_eq, Option.any_eq_true] at h
  obtain ⟨inside, row, found, _⟩ := h
  exact ⟨(List.getElem?_eq_some_iff.1 found).1, inside⟩

/-- The pixels of a sprite with at most as many rows as the display lie on different cells. -/
theorem nodup_map_place_cells {s : Sprite} (short : s.length ≤ 32) (x y : Nat) :
    ((s.cells x y).map Display.place).Nodup := by
  apply List.Nodup.map_on _ (s.nodup_cells x y)
  intro c hc e he same
  obtain ⟨r, k, lit, rfl⟩ := mem_cells.1 hc
  obtain ⟨r', k', lit', rfl⟩ := mem_cells.1 he
  have inside := lt_of_pixelAt lit
  have inside' := lt_of_pixelAt lit'
  rw [Display.place_inj] at same
  rw [Prod.mk.injEq]
  omega

/-- A cell lies under a lit pixel if the pixel over it is lit. -/
theorem place_mem_cells_iff {s : Sprite} (short : s.length ≤ 32) (x y u v : Nat) :
    Display.place (u, v) ∈ (s.cells x y).map Display.place ↔ s.covers x y u v = true := by
  rw [List.mem_map]
  constructor
  · rintro ⟨c, listed, same⟩
    obtain ⟨r, k, lit, rfl⟩ := mem_cells.1 listed
    have inside := lt_of_pixelAt lit
    rw [Display.place_inj] at same
    have row : (((v : Int) - y) % 32).toNat = r := by omega
    have column : (((u : Int) - x) % 64).toNat = k := by omega
    rw [covers, row, column]
    exact lit
  · intro lit
    refine ⟨_, mem_cells.2 ⟨_, _, lit, rfl⟩, ?_⟩
    rw [Display.place_inj]
    omega

end Sprite

namespace Display

variable (d : Display) {s : Sprite} (short : s.length ≤ 32) (x y : Nat)
include short

/-- Drawing a sprite changes the cells under its lit pixels and no others. -/
theorem lit_draw (u v : Nat) : (d.draw s x y).1.lit u v = (d.lit u v ^^ s.covers x y u v) := by
  rw [draw, lit_toggleAll_of_nodup d (Sprite.nodup_map_place_cells short x y)]
  congr 1
  rw [Bool.eq_iff_iff, List.contains_iff_mem]
  exact Sprite.place_mem_cells_iff short x y u v

/-- Drawing a sprite raises the flag if a lit pixel comes over a lit cell. -/
theorem draw_flag_iff :
    (d.draw s x y).2 = true ↔
      ∃ u < width, ∃ v < height, d.lit u v = true ∧ s.covers x y u v = true := by
  rw [draw, toggleAll_flag_of_nodup d (Sprite.nodup_map_place_cells short x y)]
  constructor
  · rintro ⟨c, listed, lit⟩
    refine ⟨c.1 % 64, Nat.mod_lt _ (by decide), c.2 % 32, Nat.mod_lt _ (by decide), ?_, ?_⟩
    · rw [lit_mod]
      exact lit
    · apply (Sprite.place_mem_cells_iff short x y _ _).1
      have same : place (c.1 % 64, c.2 % 32) = place c := place_inj.2 (by simp)
      rw [same]
      exact List.mem_map_of_mem listed
  · rintro ⟨u, _, v, _, lit, covered⟩
    obtain ⟨c, listed, same⟩ := List.mem_map.1 ((Sprite.place_mem_cells_iff short x y u v).2 covered)
    refine ⟨c, listed, ?_⟩
    rw [place_inj] at same
    rw [← lit_mod, same.1, same.2, lit_mod]
    exact lit

end Display

end Chip8
