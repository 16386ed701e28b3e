import Chip8.Proofs.Display.Redraw
import Chip8.Proofs.Machine.Sprites

/-!
# Drawing lists of sprites

A stamp says which bytes of memory are drawn as a sprite and where. Drawing stamps does not touch
memory, so on the display they are changes that commute and undo themselves: the order of a list
of stamps does not matter, and of each stamp only whether it is drawn an odd number of times. The
flag register tells of one drawing which cells the sprite met.
-/

namespace Chip8

/-- A sprite to be drawn: where it is drawn, where it stands in memory and how many rows it
has. -/
structure Stamp where
  x : UInt8
  y : UInt8
  /-- The address of the first row. -/
  index : Int
  rows : Fin 16
deriving DecidableEq

namespace Stamp

/-- Whether the sprite of a stamp has a lit pixel at a row and a column. -/
def pixel (s : Stamp) (memory : Memory) (r c : Nat) : Bool :=
  decide (c < 8 ∧ r < s.rows.val) && (memory.read ((s.index + r) % 4096)).toNat.testBit (7 - c)

/-- The display with a stamp drawn on it. -/
def onto (memory : Memory) (d : Display) (s : Stamp) : Display :=
  (d.draw (memory.readAll s.index s.rows) s.x.toNat s.y.toNat).1

theorem sprite_short (s : Stamp) (memory : Memory) :
    (memory.readAll s.index s.rows).length ≤ 32 := by
  rw [Memory.length_readAll]
  omega

theorem onto_comm (memory : Memory) (d : Display) (s t : Stamp) :
    onto memory (onto memory d s) t = onto memory (onto memory d t) s :=
  d.draw_comm (s.sprite_short memory) _ _ (t.sprite_short memory) _ _

theorem onto_onto (memory : Memory) (d : Display) (s : Stamp) :
    onto memory (onto memory d s) s = d :=
  d.draw_draw (s.sprite_short memory) _ _

end Stamp

variable {T : Type}

namespace Machine

/-- Points the index register at the sprite of a stamp and draws it. -/
def stamp (m : Machine T) (s : Stamp) : Machine T :=
  drawAt { m with index := s.index } s.x.toNat s.y.toNat s.rows

/-- Draws stamps in order. -/
def stampAll (m : Machine T) (stamps : List Stamp) : Machine T :=
  stamps.foldl stamp m

/-- Whether a lit pixel of a stamp comes over a cell that is lit, or one that is dark. -/
def Meets (m : Machine T) (s : Stamp) (lit : Bool) : Prop :=
  ∃ r c, s.pixel m.memory r c = true ∧ m.display.lit (s.x.toNat + c) (s.y.toNat + r) = lit

end Machine

namespace Bare

/-- Points the index register at the sprite of a stamp and draws it. -/
def stamp (b : Bare T) (s : Stamp) : Except Fault (Bare T) :=
  drawSprite { b with index := s.index } s.x.toNat s.y.toNat s.rows

/-- Draws stamps in order. -/
def stampAll (b : Bare T) (stamps : List Stamp) : Except Fault (Bare T) :=
  stamps.foldlM stamp b

/-- Drawing stamps on a layout succeeds. -/
theorem stampAll_bare (m : Machine T) (keys : Keyboard) (drawn : Bool) (stamps : List Stamp) :
    (m.bare keys drawn).stampAll stamps =
      .ok ((m.stampAll stamps).bare keys (drawn || !stamps.isEmpty)) := by
  induction stamps generalizing m drawn with
  | nil => simp [stampAll, Machine.stampAll]
  | cons s rest ih =>
      have first : (m.bare keys drawn).stamp s = .ok ((m.stamp s).bare keys true) :=
        drawAt_bare { m with index := s.index } keys drawn _ _ _
      have later := ih (m.stamp s) true
      rw [stampAll] at later
      rw [stampAll, List.foldlM_cons, first, ok_bind, later]
      simp [Machine.stampAll]

end Bare

namespace Machine

variable (m : Machine T)

/-- Drawing stamps changes the display only by what they are drawn onto. -/
theorem display_stampAll (stamps : List Stamp) :
    (m.stampAll stamps).display = stamps.foldl (Stamp.onto m.memory) m.display := by
  induction stamps generalizing m with
  | nil => rfl
  | cons s rest ih => exact ih (m.stamp s)

theorem memory_stampAll (stamps : List Stamp) : (m.stampAll stamps).memory = m.memory := by
  induction stamps generalizing m with
  | nil => rfl
  | cons s rest ih => exact ih (m.stamp s)

/-- The pixels of a stamp are those of the sprite that is drawn. -/
theorem pixelAt_stamp (s : Stamp) (r c : Nat) :
    Sprite.pixelAt (m.memory.readAll s.index s.rows) r c = s.pixel m.memory r c :=
  pixelAt_sprite { m with index := s.index } s.rows r c

theorem flag_stamp (s : Stamp) :
    (m.stamp s).reg 15 =
      if (m.display.draw (m.memory.readAll s.index s.rows) s.x.toNat s.y.toNat).2 then 1 else 0 :=
  reg_setReg_self _ 15 _

theorem flag_stamp_cases (s : Stamp) : (m.stamp s).reg 15 = 0 ∨ (m.stamp s).reg 15 = 1 := by
  rw [flag_stamp]
  split
  · exact .inr rfl
  · exact .inl rfl

theorem flag_stamp_eq_one_iff (s : Stamp) :
    (m.stamp s).reg 15 = 1 ↔
      (m.display.draw (m.memory.readAll s.index s.rows) s.x.toNat s.y.toNat).2 = true := by
  rw [flag_stamp]
  split
  · next met => simp [met]
  · next missed => simp [missed]

/-- Drawing a stamp sets the flag if it meets a lit cell. -/
theorem flag_stamp_iff (s : Stamp) : (m.stamp s).reg 15 = 1 ↔ m.Meets s true := by
  rw [flag_stamp_eq_one_iff, Display.draw_flag_iff_pixel _ (s.sprite_short m.memory)]
  simp only [pixelAt_stamp, Meets]

/-- Drawing a stamp again sets the flag if it met a dark cell at first. -/
theorem flag_stamp_stamp_iff (s : Stamp) :
    ((m.stamp s).stamp s).reg 15 = 1 ↔ m.Meets s false := by
  rw [flag_stamp_eq_one_iff]
  refine (m.display.redraw_flag_iff_pixel (s.sprite_short m.memory) _ _).trans ?_
  simp only [pixelAt_stamp, Meets]

/-- A stamp meets a cell with each of its lit pixels. -/
theorem meets_or_meets_iff (s : Stamp) :
    m.Meets s true ∨ m.Meets s false ↔ ∃ r c, s.pixel m.memory r c = true := by
  constructor
  · rintro (⟨r, c, pixel, _⟩ | ⟨r, c, pixel, _⟩)
    · exact ⟨r, c, pixel⟩
    · exact ⟨r, c, pixel⟩
  · rintro ⟨r, c, pixel⟩
    cases cell : m.display.lit (s.x.toNat + c) (s.y.toNat + r) with
    | true => exact .inl ⟨r, c, pixel, cell⟩
    | false => exact .inr ⟨r, c, pixel, cell⟩

theorem not_meets_of_blank {m : Machine T} (blank : m.display = .blank) (s : Stamp) :
    ¬ m.Meets s true := by
  rintro ⟨r, c, _, lit⟩
  rw [blank, Display.lit_blank] at lit
  cases lit

/-- Stamps commute and undo themselves. Whatever the memory and the display are, drawing a list
of stamps succeeds, also on the bare layout, and leaves memory as it is. The display afterwards
does not depend on the order of the list, a stamp that is listed twice may be left out both
times, and if each stamp is listed an even number of times, the display is as it was. If a stamp
is drawn twice in a row, the first flag tells whether it met a lit cell, and the second one
whether it met a dark cell at first. So one of them is set exactly if the stamp has a lit pixel;
on a blank display it is the second one. -/
theorem stamps_cancel (m : Machine T) :
    (∀ keys drawn stamps, (m.bare keys drawn).stampAll stamps =
      .ok ((m.stampAll stamps).bare keys (drawn || !stamps.isEmpty))) ∧
    (∀ stamps, (m.stampAll stamps).memory = m.memory) ∧
    (∀ stamps others, stamps.Perm others →
      (m.stampAll stamps).display = (m.stampAll others).display) ∧
    (∀ s before between after,
      (m.stampAll (before ++ s :: between ++ s :: after)).display =
        (m.stampAll (before ++ between ++ after)).display) ∧
    (∀ stamps, (∀ s, Even (stamps.count s)) → (m.stampAll stamps).display = m.display) ∧
    ∀ s,
      let first := (m.stamp s).reg 15
      let second := ((m.stamp s).stamp s).reg 15
      (first = 0 ∨ first = 1) ∧ (second = 0 ∨ second = 1) ∧
      (first = 1 ↔ m.Meets s true) ∧
      (second = 1 ↔ m.Meets s false) ∧
      (first = 1 ∨ second = 1 ↔ ∃ r c, s.pixel m.memory r c = true) ∧
      (m.display = .blank →
        first = 0 ∧ (second = 1 ↔ ∃ r c, s.pixel m.memory r c = true)) := by
  have commute := Stamp.onto_comm m.memory
  have cancel := Stamp.onto_onto m.memory
  refine ⟨Bare.stampAll_bare m, m.memory_stampAll, ?_, ?_, ?_, ?_⟩
  · intro stamps others same
    rw [display_stampAll, display_stampAll]
    exact foldl_eq_of_perm commute same _
  · intro s before between after
    rw [display_stampAll, display_stampAll]
    exact foldl_eq_of_pair commute cancel s before between after _
  · intro stamps even
    rw [display_stampAll]
    exact foldl_eq_of_even commute cancel even _
  · intro s first second
    have one := m.flag_stamp_iff s
    have two := m.flag_stamp_stamp_iff s
    have either : first = 1 ∨ second = 1 ↔ ∃ r c, s.pixel m.memory r c = true := by
      rw [one, two, meets_or_meets_iff]
    refine ⟨m.flag_stamp_cases s, (m.stamp s).flag_stamp_cases s, one, two, either, ?_⟩
    intro blank
    have missed : ¬ first = 1 := fun set => not_meets_of_blank blank s (one.1 set)
    exact ⟨(m.flag_stamp_cases s).resolve_right missed, by rw [← either, or_iff_right missed]⟩

/-- A glyph drawn twice over the corner of a blank display flags the second drawing, and around
another glyph it may be left out. -/
theorem stamps_cancel_corner :
    let m : Machine Unit := start [] ()
    let zero : Stamp := ⟨60, 30, 0, 5⟩
    let one : Stamp := ⟨255, 31, 5, 5⟩
    ((m.stamp zero).reg 15 = 0 ∧ ((m.stamp zero).stamp zero).reg 15 = 1) ∧
      (m.stampAll [zero, one, zero]).display = (m.stampAll [one]).display ∧
      (m.stampAll [zero, one]).display = (m.stampAll [one, zero]).display := by
  intro m zero one
  obtain ⟨-, -, order, pairs, -, flags⟩ := stamps_cancel m
  have blank := (flags zero).2.2.2.2.2 rfl
  have pixel : zero.pixel m.memory 0 0 = true := by
    rw [Stamp.pixel, show m.memory = Memory.load [] from rfl, Memory.read_load]
    decide
  exact ⟨⟨blank.1, blank.2.2 ⟨0, 0, pixel⟩⟩, pairs zero [] [one] [], order _ _ (.swap _ _ _)⟩

end Machine

end Chip8
