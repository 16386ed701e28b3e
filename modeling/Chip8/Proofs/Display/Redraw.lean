import Chip8.Proofs.Display.Overlay
import Mathlib.Algebra.Group.Nat.Even
import Mathlib.Data.List.Count

/-!
# Drawing several sprites, and drawing one again

Drawing a sprite changes the cells under its lit pixels, whatever they were. So sprites may be
drawn in any order, and drawing one twice leaves the display as it was. Of the two flags the
first tells of the lit cells under the sprite and the second of the dark ones.
-/

namespace Chip8

section Involutions

variable {α β : Type} {f : β → α → β} (commute : ∀ b x y, f (f b x) y = f (f b y) x)
  (cancel : ∀ b x, f (f b x) x = b)

include commute in
/-- Changes that commute may be made in any order. -/
theorem foldl_eq_of_perm {xs ys : List α} (same : xs.Perm ys) (b : β) :
    xs.foldl f b = ys.foldl f b := by
  apply same.foldl_eq'
  intro x _ y _ b
  exact commute b x y

include commute cancel

/-- A change that is made twice may be left out both times. -/
theorem foldl_eq_of_pair (x : α) (before between after : List α) (b : β) :
    (before ++ x :: between ++ x :: after).foldl f b = (before ++ between ++ after).foldl f b := by
  have front : (before ++ x :: between ++ x :: after).Perm
      (x :: x :: (before ++ between ++ after)) := by
    refine List.perm_middle.trans (.cons x ?_)
    rw [List.append_assoc, List.append_assoc]
    exact List.perm_middle
  rw [foldl_eq_of_perm commute front, List.foldl_cons, List.foldl_cons, cancel]

/-- Changes of which each is made an even number of times change nothing. -/
theorem foldl_eq_of_even [DecidableEq α] {xs : List α} (even : ∀ x, Even (xs.count x)) (b : β) :
    xs.foldl f b = b := by
  induction h : xs.length using Nat.strongRecOn generalizing xs with
  | _ n shorter =>
      subst h
      cases xs with
      | nil => rfl
      | cons x rest =>
          -- the first change is made again later, so both can be left out
          have again : x ∈ rest := by
            have times := even x
            rw [List.count_cons_self, Nat.even_iff] at times
            exact List.count_pos_iff.1 (by omega)
          obtain ⟨between, after, rfl⟩ := List.append_of_mem again
          have others : ∀ y, Even ((between ++ after).count y) := by
            intro y
            have times := even y
            rw [Nat.even_iff] at times ⊢
            simp only [List.count_cons, List.count_append] at times ⊢
            split at times <;> omega
          calc (x :: (between ++ x :: after)).foldl f b
              = (between ++ after).foldl f b :=
                foldl_eq_of_pair commute cancel x [] between after b
            _ = b := shorter _ (by simp only [List.length_cons, List.length_append]; omega) others rfl

end Involutions

namespace Sprite

/-- A cell under a lit pixel is covered. -/
theorem covers_of_pixelAt {s : Sprite} (short : s.length ≤ 32) {r c : Nat}
    (lit : s.pixelAt r c = true) (x y : Nat) : s.covers x y (x + c) (y + r) = true := by
  rw [← place_mem_cells_iff short]
  exact List.mem_map_of_mem (mem_cells.2 ⟨r, c, lit, rfl⟩)

end Sprite

namespace Display

variable (d : Display) {s : Sprite} (short : s.length ≤ 32) (x y : Nat)
include short

/-- Sprites may be drawn in any order. -/
theorem draw_comm {t : Sprite} (short' : t.length ≤ 32) (u v : Nat) :
    ((d.draw s x y).1.draw t u v).1 = ((d.draw t u v).1.draw s x y).1 := by
  apply ext_lit
  intro p q
  rw [lit_draw _ short', lit_draw _ short, lit_draw _ short, lit_draw _ short',
    Bool.xor_right_comm]

/-- Drawing a sprite again takes it away. -/
theorem draw_draw : ((d.draw s x y).1.draw s x y).1 = d := by
  apply ext_lit
  intro p q
  rw [lit_draw _ short, lit_draw _ short, Bool.xor_assoc, Bool.xor_self, Bool.xor_false]

/-- Drawing a sprite raises the flag if one of its lit pixels comes over a lit cell. -/
theorem draw_flag_iff_pixel :
    (d.draw s x y).2 = true ↔
      ∃ r c, s.pixelAt r c = true ∧ d.lit (x + c) (y + r) = true := by
  rw [draw, toggleAll_flag_of_nodup d (Sprite.nodup_map_place_cells short x y)]
  constructor
  · rintro ⟨cell, listed, lit⟩
    obtain ⟨r, c, pixel, rfl⟩ := Sprite.mem_cells.1 listed
    exact ⟨r, c, pixel, lit⟩
  · rintro ⟨r, c, pixel, lit⟩
    exact ⟨_, Sprite.mem_cells.2 ⟨r, c, pixel, rfl⟩, lit⟩

/-- Drawing a sprite again raises the flag if one of its lit pixels came over a dark cell at
first. -/
theorem redraw_flag_iff_pixel :
    ((d.draw s x y).1.draw s x y).2 = true ↔
      ∃ r c, s.pixelAt r c = true ∧ d.lit (x + c) (y + r) = false := by
  rw [draw_flag_iff_pixel _ short]
  apply exists_congr
  intro r
  apply exists_congr
  intro c
  apply and_congr_right
  intro pixel
  rw [lit_draw d short, Sprite.covers_of_pixelAt short pixel, Bool.xor_true, Bool.not_eq_true']

end Display

end Chip8
