import Chip8.Proofs.Bare.Layout

/-!
# Drawing on a bare display

The loops over the rows and columns of a sprite treat every bit, also the dark ones, and
carry the collision along. On the layout of a display they toggle exactly the listed cells.
-/

namespace Chip8

namespace Display

theorem toggleAll_append (d : Display) (first rest : List (Nat × Nat)) :
    d.toggleAll (first ++ rest) =
      (((d.toggleAll first).1.toggleAll rest).1,
        (d.toggleAll first).2 || ((d.toggleAll first).1.toggleAll rest).2) := by
  induction first generalizing d with
  | nil => simp
  | cons c first ih =>
      obtain ⟨x, y⟩ := c
      simp only [List.cons_append, toggleAll_cons, ih, Bool.or_assoc]

end Display

theorem Sprite.cells_append (x y : Nat) (s : Sprite) (row : UInt8) :
    Sprite.cells x y (s ++ [row]) =
      Sprite.cells x y s ++ Sprite.rowCells row x (y + s.length) := by
  induction s generalizing y with
  | nil => simp [Sprite.cells]
  | cons first rest ih =>
      simp only [List.cons_append, Sprite.cells, ih, List.append_assoc, List.length_cons]
      congr 3
      omega

/-- Draws a sprite at a place and flags a collision. -/
def Machine.drawAt {T : Type} (m : Machine T) (x y n : Nat) : Machine T :=
  let drawn := m.display.draw (m.sprite n) x y
  { m.setReg (Fin.last 15) (if drawn.2 then 1 else 0) with display := drawn.1 }

namespace Bare

/-- One bit of a sprite's row toggles the cell under it if it is lit. -/
theorem drawBit_bare (d : Display) (hit : Bool) (x y : Nat) (row : UInt8) (column : Nat) :
    drawBit x y row.toNat (d.bare, hit.toNat) column =
      .ok (if Sprite.pixel row column then
        ((d.toggle (x + column) y).bare, (hit || d.lit (x + column) y).toNat)
      else (d.bare, hit.toNat)) := by
  have bit : (row.toNat >>> (7 - column)) % 2 = (Sprite.pixel row column).toNat := by
    rw [Sprite.pixel, Nat.toNat_testBit, Nat.shiftRight_eq_div_pow]
  have cell := Row.get_ofVector Bool.toNat d.cells (Display.index (x + column) y).isLt
  have set (c : Bool) := Row.put_ofVector Bool.toNat d.cells
    (Display.index (x + column) y).isLt (a := c) rfl (by cases c <;> decide)
  have toggled (c p : Bool) : c.toNat ^^^ p.toNat = (c ^^ p).toNat := by
    cases c <;> cases p <;> rfl
  have met (c p : Bool) : hit.toNat ||| (p.toNat &&& c.toNat) = (hit || (p && c)).toNat := by
    cases hit <;> cases c <;> cases p <;> rfl
  change _ = Except.ok (if Sprite.pixel row column then
    (Row.ofVector Bool.toNat (d.cells.set (Display.index (x + column) y) (!d.lit (x + column) y)),
      (hit || d.lit (x + column) y).toNat) else _)
  simp only [Display.index] at cell set
  simp only [drawBit, bit, Display.bare, cell, ok_bind, pure_eq_ok, toggled, met, set,
    Display.lit, Display.index]
  cases Sprite.pixel row column with
  | true => simp
  | false => simp

/-- The columns of one row. -/
theorem foldlM_drawBit_bare (d : Display) (hit : Bool) (x y : Nat) (row : UInt8)
    (columns : List Nat) :
    columns.foldlM (drawBit x y row.toNat) (d.bare, hit.toNat) =
      let cells := (columns.filter (Sprite.pixel row)).map fun c => (x + c, y)
      .ok ((d.toggleAll cells).1.bare, (hit || (d.toggleAll cells).2).toNat) := by
  induction columns generalizing d hit with
  | nil => simp
  | cons column rest ih =>
      rw [List.foldlM_cons, drawBit_bare, ok_bind]
      cases hp : Sprite.pixel row column with
      | true => simp [ih, hp, Display.toggleAll_cons, Bool.or_assoc]
      | false => simp [ih, hp]

variable {T : Type} (m : Machine T) (keys : Keyboard) (drawn : Bool)

/-- The rows of a sprite. -/
theorem foldlM_drawRow_bare (d : Display) (x y n : Nat) :
    (List.range n).foldlM ((m.bare keys drawn).drawRow x y) (d.bare, 0) =
      .ok ((d.draw (m.sprite n) x y).1.bare, (d.draw (m.sprite n) x y).2.toNat) := by
  induction n with
  | zero => rfl
  | succ n ih =>
      have more : m.sprite (n + 1) = m.sprite n ++ [m.memory.read (m.index + n)] :=
        Memory.readAll_succ m.memory m.index n
      have count : (m.sprite n).length = n := Memory.length_readAll m.memory m.index n
      have address : (m.bare keys drawn).index = m.index := rfl
      rw [List.range_succ, List.foldlM_append, ih, ok_bind, List.foldlM_cons, drawRow, address,
        Machine.peek_bare, ok_bind, foldlM_drawBit_bare]
      simp only [ok_bind, List.foldlM_nil, pure_eq_ok, Display.draw, more,
        Sprite.cells_append, Display.toggleAll_append, count]
      rfl

/-- Drawing a sprite on the layout of a machine, at any place. -/
theorem drawAt_bare (x y n : Nat) :
    (m.bare keys drawn).drawSprite x y n = .ok ((m.drawAt x y n).bare keys true) := by
  have rows := foldlM_drawRow_bare m keys drawn m.display x y n
  rw [drawSprite, Machine.drawAt]
  generalize m.display.draw (m.sprite n) x y = picture at rows ⊢
  have flag : (Machine.bare { m with display := picture.1 } keys drawn).setReg 15
      (picture.2.toNat : Nat) = .ok (Machine.bare (Machine.setReg { m with display := picture.1 }
        15 (if picture.2 then 1 else 0)) keys drawn) :=
    Machine.setReg_bare _ keys drawn 15 (by cases picture.2 <;> rfl)
  change ((List.range n).foldlM _ (m.display.bare, 0) >>= _) = _
  rw [rows, ok_bind]
  change ((Machine.bare { m with display := picture.1 } keys drawn).setReg 15
    (picture.2.toNat : Nat) >>= _) = _
  rw [flag]
  rfl

/-- Drawing a sprite on the layout of a machine, at the position in two registers. -/
theorem drawSprite_bare (x y : Fin 16) (n : Nat) :
    (m.bare keys drawn).drawSprite (m.reg x).toNat (m.reg y).toNat n =
      .ok ((m.drawSprite x y n).bare keys true) :=
  drawAt_bare m keys drawn (m.reg x).toNat (m.reg y).toNat n

end Bare

end Chip8
