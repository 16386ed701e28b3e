import Chip8.Proofs.Bare.Legal
import Chip8.Proofs.Display.Overlay
import Chip8.Proofs.Instruction.Fields

/-!
# Steps that draw a sprite

The sprite of a drawing step is read from memory at the index register and laid over the
display with its corner at the position in two registers. Both are taken as they are when a
key has been delivered and the timers have ticked. What the step does to a cell depends on
the one bit of the sprite that lies over it.
-/

namespace Chip8

theorem Instruction.decode_draw (x y n : Fin 16) :
    decode (.ofNibbles 0xD x y n) = .draw x y n := by
  obtain ⟨family, first, second, rows⟩ :=
    Word.fields_ofNibbles (f := 0xD) (by decide) x y n.isLt
  rw [decode, family, first, second, Fin.ext rows]
  rfl

namespace Machine

open Display (width height)

variable {σ T : Type}

/-- The bit that a sprite of `n` rows has over the cell at column `u` and row `v`, if it is
drawn at the position in the registers `x` and `y`: the sprite's byte for that row is read
from memory, and the bits of a byte go from the left to the right. -/
def spriteBit (m : Machine T) (x y n : Fin 16) (u v : Nat) : Bool :=
  let c := (((u : Int) - (m.reg x).toNat) % 64).toNat
  let r := (((v : Int) - (m.reg y).toNat) % 32).toNat
  decide (c < 8 ∧ r < n.val) && (m.memory.read ((m.index + r) % 4096)).toNat.testBit (7 - c)

/-- The pixels of a sprite in memory are the bits of its bytes, from the left to the right. -/
theorem pixelAt_sprite (m : Machine T) (n r c : Nat) :
    (m.sprite n).pixelAt r c =
      (decide (c < 8 ∧ r < n) &&
        (m.memory.read ((m.index + r) % 4096)).toNat.testBit (7 - c)) := by
  have count : (m.sprite n).length = n := Memory.length_readAll _ _ _
  rw [Sprite.pixelAt, Memory.read_mod]
  by_cases below : r < n
  · have row : (m.sprite n)[r]? = some (m.memory.read (m.index + r)) := by
      rw [List.getElem?_eq_getElem (by rwa [count])]
      exact congrArg some (Memory.getElem_readAll _ _ _ _ _)
    simp only [row, below, and_true, Option.any_some, Sprite.pixel]
  · have row : (m.sprite n)[r]? = none := List.getElem?_eq_none (by rw [count]; omega)
    simp only [row, below, and_false, decide_false, Option.any_none, Bool.and_false,
      Bool.false_and]

/-- The sprite in memory has a lit pixel over a cell if its bit there is set. -/
theorem covers_sprite (m : Machine T) (x y n : Fin 16) (u v : Nat) :
    (m.sprite n).covers (m.reg x).toNat (m.reg y).toNat u v = m.spriteBit x y n u v :=
  pixelAt_sprite m n _ _

section DrawSprite

variable (m : Machine T) (x y n : Fin 16)

theorem sprite_short : (m.sprite n).length ≤ 32 := by
  have count : (m.sprite n).length = n := Memory.length_readAll _ _ _
  omega

/-- A cell changes if the sprite's bit over it is set. -/
theorem lit_drawSprite (u v : Nat) :
    (m.drawSprite x y n).display.lit u v = (m.display.lit u v ^^ m.spriteBit x y n u v) := by
  rw [← covers_sprite]
  exact Display.lit_draw m.display (m.sprite_short n) _ _ u v

/-- The flag register becomes one if a set bit comes over a lit cell, and zero otherwise. -/
theorem flag_drawSprite :
    (m.drawSprite x y n).reg 15 =
      if ∃ u < width, ∃ v < height, m.display.lit u v = true ∧ m.spriteBit x y n u v = true then 1
      else 0 := by
  have met := Display.draw_flag_iff m.display (m.sprite_short n) (m.reg x).toNat (m.reg y).toNat
  simp only [covers_sprite] at met
  calc (m.drawSprite x y n).reg 15
      = if (m.display.draw (m.sprite n) (m.reg x).toNat (m.reg y).toNat).2 = true then 1 else 0 :=
        reg_setReg_self m 15 _
    _ = _ := by simp only [met]

/-- The other registers stay as they are. -/
theorem reg_drawSprite_of_ne {k : Fin 16} (h : k ≠ 15) :
    (m.drawSprite x y n).reg k = m.reg k := by
  change (m.setReg 15 _).reg k = m.reg k
  rw [reg_setReg, if_neg h.symm]

end DrawSprite

variable [Instant T] [Host σ T] {m : Machine T} {input : Input} {x y n : Fin 16}

/-- A step that draws does not read the delay timer, so it never breaks off. -/
theorem step?_of_draw (word : m.fetch = .ofNibbles 0xD x y n) (host : σ) :
    m.step? host input = .ok (m.step host input) := by
  have whole : m.breakdown? host input = none := by
    have fetched := fetch_prepared m host input
    rw [prepared] at fetched
    simp only [breakdown?, fetched, word, Instruction.decode_draw, canExecute, ite_true, ite_self]
  rw [step?, whole]

theorem effect_of_draw (word : m.fetch = .ofNibbles 0xD x y n) (host : σ) :
    m.effect host input =
      .redraw ((m.prepared host input).drawSprite x y n).advance := by
  rw [effect, word, Instruction.decode_draw]
  rfl

/-- A step that draws always succeeds. Against the machine whose key is delivered and whose
timers have ticked, it changes exactly the cells under the set bits of the sprite, and the flag
register, which tells whether such a cell was lit. The registers of the position are read before
the flag is written, so they may be the flag register. Everything else but the program counter
stays, and the step reports a redrawn display even if the sprite has no rows. On the layout of a
machine in range, the loops over rows and columns come to the same. -/
theorem step_of_draw (goes : m.isHeld input = false) (word : m.fetch = .ofNibbles 0xD x y n)
    (host : σ) :
    let before := m.prepared host input
    let step := m.step host input
    let bit := before.spriteBit x y n
    m.step? host input = .ok step ∧
      (∀ u < width, ∀ v < height,
        step.machine.display.lit u v = (before.display.lit u v ^^ bit u v)) ∧
      step.machine.reg 15 =
        (if ∃ u < width, ∃ v < height, before.display.lit u v = true ∧ bit u v = true then 1
          else 0) ∧
      (∀ k ≠ 15, step.machine.reg k = before.reg k) ∧
      step.machine.memory = before.memory ∧
      step.machine.index = before.index ∧
      step.machine.stack = before.stack ∧
      step.machine.delay = before.delay ∧
      step.machine.sound = before.sound ∧
      step.machine.lastTick = before.lastTick ∧
      step.machine.wait = before.wait ∧
      step.snapshot.changed = true ∧
      step.snapshot.display = step.machine.display ∧
      (m.InRange → ∀ keys drawn,
        (m.bare keys drawn).step host input = .ok (step.bare input.keys true)) := by
  intro before step bit
  have stepped := step_of_not_isHeld goes host
  rw [effect_of_draw word] at stepped
  have left : step.machine = (before.drawSprite x y n).advance := congrArg Step.machine stepped
  have marked : step.snapshot.changed = true := congrArg (fun s => s.snapshot.changed) stepped
  have shown : step.snapshot.display = (before.drawSprite x y n).display :=
    congrArg (fun s => s.snapshot.display) stepped
  rw [left]
  refine ⟨step?_of_draw word host, ?_, ?_, ?_, rfl, rfl, rfl, rfl, rfl, rfl, rfl, marked, shown, ?_⟩
  · intro u _ v _
    exact lit_drawSprite before x y n u v
  · exact flag_drawSprite before x y n
  · intro k other
    exact reg_drawSprite_of_ne before x y n other
  · intro range keys drawn
    have layout := Bare.step_bare_of_not_isHeld goes range.delay_byte keys drawn host
    rw [← marked]
    exact layout

/-- A machine waits for a key in its flag register and then draws two rows from column 62 on, in
the row that the key tells; the second byte of the sprite is the first one of memory. With key 15
its four lit pixels come to row 16, at the columns 62, 63, 0 and 1. The cell at column 0 goes out,
its neighbour comes on, and the flag replaces the key. -/
theorem step_of_draw_edge :
    let edge : Machine Rat :=
      { (start [0xD0, 0xF2] 0).setReg 0 62 with
        index := 4095
        wait := some 15
        display := Display.blank.toggle 0 16 }
    let tape : Tape Rat := ⟨fun _ => 0, fun _ => 0, 0, 0⟩
    let step := edge.step tape { press := some 15 }
    edge.isHeld { press := some 15 } = false ∧
      edge.fetch = .ofNibbles 0xD 0 15 2 ∧
      step.machine.display.lit 0 16 = false ∧
      step.machine.display.lit 1 16 = true ∧
      step.machine.reg 15 = 1 ∧
      step.machine.reg 0 = 62 ∧
      step.snapshot.changed = true := by
  intro edge tape step
  have goes : edge.isHeld { press := some 15 } = false := rfl
  have word : edge.fetch = .ofNibbles 0xD 0 15 2 := by decide +kernel
  obtain ⟨-, cells, flag, others, -, -, -, -, -, -, -, marked, -⟩ :=
    step_of_draw (x := 0) (y := 15) (n := 2) goes word tape
  refine ⟨goes, word, ?_, ?_, ?_, ?_, marked⟩
  · rw [cells 0 (by decide) 16 (by decide)]
    decide +kernel
  · rw [cells 1 (by decide) 16 (by decide)]
    decide +kernel
  · rw [flag]
    exact if_pos ⟨0, by decide, 16, by decide, by decide +kernel, by decide +kernel⟩
  · rw [others 0 (by decide)]
    decide +kernel

end Machine

end Chip8
