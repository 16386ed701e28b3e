import Chip8.Proofs.Bare.Drawing

/-!
# Instructions on bare machines

On the layout of a machine whose delay timer holds a byte, every instruction succeeds. When
the step then moves the program counter on, the layout of the machine is reached that the
same instruction leads to.
-/

namespace Chip8

namespace Flagged

theorem toNat_flagByte (r : Flagged) : r.flagByte.toNat = r.flag.toNat := by
  cases h : r.flag <;> simp [flagByte, h]

variable (a b : UInt8)

/-- The flag and the result of a sum, as they are computed without a carry. -/
theorem add_bare :
    (if 255 < a.toNat + b.toNat then 1 else 0 : Int) = (add a b).flagByte.toNat ∧
      ((a.toNat + b.toNat) % 256 : Int) = (add a b).result.toNat := by
  have value := add_value a b
  have small := (add a b).result.toNat_lt
  have flag := (add a b).flag.toNat_le
  rw [toNat_flagByte]
  constructor
  · split <;> omega
  · omega

/-- The flag and the result of a difference, as they are computed without a borrow. -/
theorem sub_bare :
    (if b.toNat < a.toNat then 1 else 0 : Int) = (sub a b).flagByte.toNat ∧
      ((a.toNat - b.toNat) % 256 : Int) = (sub a b).result.toNat := by
  have low := a.toNat_lt
  have high := b.toNat_lt
  constructor
  · rw [toNat_flagByte]
    split
    · next h => rw [(sub_flag a b).2 h]; rfl
    · next h => rw [Bool.eq_false_iff.2 fun t => h ((sub_flag a b).1 t)]; rfl
  · rw [sub_value]
    omega

/-- The flag and the result of a halving. -/
theorem shiftRight_bare :
    (a.toNat % 2 : Int) = (shiftRight a).flagByte.toNat ∧
      (a.toNat / 2 : Int) = (shiftRight a).result.toNat := by
  have value := shiftRight_value a
  have flag := (shiftRight a).flag.toNat_le
  rw [toNat_flagByte]
  omega

/-- The flag and the result of a doubling. -/
theorem shiftLeft_bare :
    (a.toNat / 128 % 2 : Int) = (shiftLeft a).flagByte.toNat ∧
      (a.toNat * 2 % 256 : Int) = (shiftLeft a).result.toNat := by
  have value := shiftLeft_value a
  have small := (shiftLeft a).result.toNat_lt
  have flag := (shiftLeft a).flag.toNat_le
  rw [toNat_flagByte]
  omega

end Flagged

namespace Machine

variable {T : Type} (m : Machine T) (keys : Keyboard) (drawn : Bool)

/-- A register is set and the step moves on. -/
theorem map_setReg_bare (x : Fin 16) {z : Int} {v : UInt8} (hz : z = v.toNat) :
    ((m.bare keys drawn).setReg x.val z).map Bare.advance =
      .ok ((m.setReg x v).advance.bare keys drawn) := by
  rw [setReg_bare m keys drawn x hz]
  rfl

/-- The flag and a register are set and the step moves on. -/
theorem map_setFlagged_bare (x : Fin 16) {flag result : Int} {r : Flagged}
    (hf : flag = r.flagByte.toNat) (hr : result = r.result.toNat) :
    ((m.bare keys drawn).setFlagged x.val flag result).map Bare.advance =
      .ok ((m.setFlagged x r).advance.bare keys drawn) := by
  rw [setFlagged_bare m keys drawn x hf hr]
  rfl

/-- The step skips on a condition and moves on. -/
theorem map_skipIf_bare {c d : Bool} (h : c = d) :
    (pure ((m.bare keys drawn).skipIf c) : Except Fault (Bare T)).map Bare.advance =
      .ok ((m.skipIf d).bare keys drawn) := by
  rw [h, ← skipIf_bare]
  rfl

/-- A jump stores an address two short of its target. -/
theorem advance_jump_bare {target : Int} (h : 0 ≤ target ∧ target < 65536) (stack : List Int) :
    Bare.advance { m.bare keys drawn with pc := target - 2, stack := stack } =
      Machine.bare { m with pc := target, stack := stack } keys drawn := by
  simp only [Bare.advance, bare]
  congr 1
  omega

/-- On the way, a jump to address zero leaves the program counter below zero. -/
example : ((Bare.start [] ()).execute 0 (.jump 0)).map Bare.pc = .ok (-2) := rfl

/-- The three digits of a byte are stored one behind the other. -/
theorem storeDigits_bare (b : UInt8) :
    ((m.bare keys drawn).poke m.index (b.toNat / 100) >>= fun b₁ =>
      b₁.poke (b₁.index + 1) (b.toNat / 10 % 10) >>= fun b₂ =>
        b₂.poke (b₂.index + 2) (b.toNat % 10)) =
      .ok (Machine.bare { m with memory := m.memory.writeAll m.index (decimalDigits b) } keys
        drawn) := by
  have hundreds := poke_bare m keys drawn m.index (z := b.toNat / 100) (v := b / 100) (by simp)
  have tens := poke_bare { m with memory := m.memory.write m.index (b / 100) } keys drawn
    (m.index + 1) (z := b.toNat / 10 % 10) (v := b / 10 % 10) (by simp)
  have units := poke_bare
    { m with memory := (m.memory.write m.index (b / 100)).write (m.index + 1) (b / 10 % 10) }
    keys drawn (m.index + 2) (z := b.toNat % 10) (v := b % 10) (by simp)
  rw [hundreds, ok_bind]
  change ((Machine.bare _ keys drawn).poke (m.index + 1) _ >>= _) = _
  rw [tens, ok_bind]
  change (Machine.bare _ keys drawn).poke (m.index + 2) _ = _
  rw [units]
  have next : m.index + 1 + 1 = m.index + 2 := by omega
  simp only [decimalDigits, Memory.writeAll_cons, Memory.writeAll_nil, next]

/-- Every instruction succeeds on the layout of a machine. -/
theorem execute_bare (chance : UInt8) (op : Opcode) (byte : 0 ≤ m.delay ∧ m.delay < 256) :
    ((m.bare keys false).execute chance.toNat op.numbers).map Bare.advance =
      .ok ((m.execute keys chance op).machine.bare keys (m.execute keys chance op).redrawn) := by
  cases op <;>
    simp only [Instruction.numbers, Instruction.map, Bare.execute, reg_bare, ok_bind]
  case noop => rfl
  case clear =>
    have dark : List.replicate (m.bare keys false).display.length 0 = Display.blank.bare := by
      simp [bare, Display.bare, Display.blank]
    rw [dark]
    rfl
  case ret =>
    have pending : (m.bare keys false).stack = m.stack := rfl
    rw [pending]
    cases hs : m.stack with
    | nil => simp only [execute, hs]; rfl
    | cons a rest => simp only [execute, hs]; rfl
  case jump addr =>
    exact congrArg Except.ok (advance_jump_bare m keys false (by omega) m.stack)
  case call addr =>
    exact congrArg Except.ok (advance_jump_bare m keys false (by omega) (m.pc :: m.stack))
  case jumpV0 addr =>
    have offset := reg_bare m keys false 0
    have small := (m.reg 0).toNat_lt
    rw [Fin.val_zero] at offset
    rw [offset, ok_bind, Int.add_comm]
    exact congrArg Except.ok (advance_jump_bare m keys false (by omega) m.stack)
  case skipEqByte x byte => exact map_skipIf_bare m keys false (by simp [UInt8.toNat_inj])
  case skipNeByte x byte => exact map_skipIf_bare m keys false (by simp [UInt8.toNat_inj])
  case skipEqReg x y => exact map_skipIf_bare m keys false (by simp [UInt8.toNat_inj])
  case skipNeReg x y => exact map_skipIf_bare m keys false (by simp [UInt8.toNat_inj])
  case skipKey x => exact map_skipIf_bare m keys false rfl
  case skipNoKey x => exact map_skipIf_bare m keys false rfl
  case loadByte x byte => exact map_setReg_bare m keys false x rfl
  case addByte x byte => exact map_setReg_bare m keys false x (by simp)
  case random x byte => exact map_setReg_bare m keys false x (by simp)
  case move x y => exact map_setReg_bare m keys false x rfl
  case or x y => exact map_setReg_bare m keys false x (by simp)
  case and x y => exact map_setReg_bare m keys false x (by simp)
  case xor x y => exact map_setReg_bare m keys false x (by simp)
  case add x y =>
    have numbers := Flagged.add_bare (m.reg x) (m.reg y)
    exact map_setFlagged_bare m keys false x numbers.1 numbers.2
  case sub x y =>
    have numbers := Flagged.sub_bare (m.reg x) (m.reg y)
    exact map_setFlagged_bare m keys false x numbers.1 numbers.2
  case shiftRight x _ =>
    have numbers := Flagged.shiftRight_bare (m.reg x)
    exact map_setFlagged_bare m keys false x numbers.1 numbers.2
  case subFrom x y =>
    have numbers := Flagged.sub_bare (m.reg y) (m.reg x)
    exact map_setFlagged_bare m keys false x numbers.1 numbers.2
  case shiftLeft x _ =>
    have numbers := Flagged.shiftLeft_bare (m.reg x)
    exact map_setFlagged_bare m keys false x numbers.1 numbers.2
  case loadIndex addr => rfl
  case draw x y rows =>
    rw [Bare.drawSprite_bare]
    rfl
  case readDelay x =>
    -- the one instruction that could be refused: the timer has to hold a byte
    have value : m.delay = (UInt8.ofNat m.delay.toNat).toNat := by
      rw [UInt8.toNat_ofNat']
      omega
    exact map_setReg_bare m keys false x value
  case waitKey x => rfl
  case setDelay x => rfl
  case setSound x => rfl
  case addIndex x => rfl
  case glyph x => rfl
  case storeDigits x =>
    have stored := storeDigits_bare m keys false (m.reg x)
    exact congrArg (Except.map Bare.advance) stored
  case store x =>
    rw [foldlM_storeOne_bare m keys false (by omega)]
    rfl
  case load x =>
    rw [foldlM_loadOne_bare m keys false (by omega)]
    rfl

end Machine

end Chip8
