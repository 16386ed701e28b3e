import Chip8.Proofs.Bare.Legal
import Chip8.Proofs.Instruction.Fields

/-!
# Steps that compute a result and a flag

Five kinds of words compute a result and a flag from two registers. Both operands are read before
anything is written, the flag goes to the flag register and then the result to the first
register. So the law of an operation holds whichever of the registers are the same, but a result
in the flag register leaves no flag behind.
-/

namespace Chip8

/-- The operations that have a result and a flag. -/
inductive FlaggedOp where
  | add
  | sub
  | shiftRight
  /-- Subtracts the first operand from the second. -/
  | subFrom
  | shiftLeft
deriving DecidableEq, Repr

namespace FlaggedOp

/-- The last nibble of the words that stand for an operation. -/
def nibble : FlaggedOp → Nat
  | add => 0x4
  | sub => 0x5
  | shiftRight => 0x6
  | subFrom => 0x7
  | shiftLeft => 0xE

/-- Whether an operation shifts its first operand. -/
def IsShift (op : FlaggedOp) : Prop :=
  op = shiftRight ∨ op = shiftLeft

/-- What the result `r` and the flag `f` of an operation have to be for the operands `a` and `b`. -/
def Law (a b r f : Nat) : FlaggedOp → Prop
  | add => a + b = 256 * f + r
  | sub => (r : Int) = ((a : Int) - b) % 256 ∧ (f = 1 ↔ a > b)
  | shiftRight => a = 2 * r + f
  | subFrom => (r : Int) = ((b : Int) - a) % 256 ∧ (f = 1 ↔ b > a)
  | shiftLeft => 2 * a = 256 * f + r

/-- The instruction of an operation on two registers. -/
def instruction (x y : Fin 16) : FlaggedOp → Opcode
  | add => .add x y
  | sub => .sub x y
  | shiftRight => .shiftRight x y
  | subFrom => .subFrom x y
  | shiftLeft => .shiftLeft x y

/-- The result and the flag of an operation on two bytes. -/
def compute (a b : UInt8) : FlaggedOp → Flagged
  | add => .add a b
  | sub => .sub a b
  | shiftRight => .shiftRight a
  | subFrom => .sub b a
  | shiftLeft => .shiftLeft a

theorem decode_ofNibbles (op : FlaggedOp) (x y : Fin 16) :
    Instruction.decode (.ofNibbles 0x8 x y op.nibble) = op.instruction x y := by
  have last : op.nibble < 16 := by cases op <;> decide
  obtain ⟨family, first, second, nibble⟩ := Word.fields_ofNibbles (f := 0x8) (by decide) x y last
  rw [Instruction.decode, family, first, second, nibble]
  cases op <;> rfl

/-- A difference of two bytes obeys its law, as a number. -/
theorem sub_law (a b : UInt8) :
    ((Flagged.sub a b).result.toNat : Int) = ((a.toNat : Int) - b.toNat) % 256 ∧
      ((Flagged.sub a b).flag.toNat = 1 ↔ a.toNat > b.toNat) := by
  have low := a.toNat_lt
  have high := b.toNat_lt
  constructor
  · rw [Flagged.sub_value]
    omega
  · rw [Bool.toNat_eq_one, Flagged.sub_flag]

/-- What is computed obeys the law of the operation. -/
theorem law_compute (op : FlaggedOp) (a b : UInt8) :
    op.Law a.toNat b.toNat (op.compute a b).result.toNat (op.compute a b).flag.toNat := by
  cases op with
  | add => exact Flagged.add_value a b
  | sub => exact sub_law a b
  | shiftRight => exact Flagged.shiftRight_value a
  | subFrom => exact sub_law b a
  | shiftLeft => exact Flagged.shiftLeft_value a

/-- A shift looks at its first operand only. -/
theorem compute_of_isShift {op : FlaggedOp} (shift : op.IsShift) (a b c : UInt8) :
    op.compute a b = op.compute a c := by
  obtain rfl | rfl := shift <;> rfl

end FlaggedOp

namespace Machine

variable {σ T : Type}

/-- An operation writes its flag and then its result, both computed from the registers as they
were. -/
theorem machine_execute_flagged (m : Machine T) (keys : Keyboard) (chance : UInt8)
    (op : FlaggedOp) (x y : Fin 16) :
    (m.execute keys chance (op.instruction x y)).machine =
      (m.setFlagged x (op.compute (m.reg x) (m.reg y))).advance := by
  cases op <;> rfl

variable [Instant T] [Host σ T] {m : Machine T} {input : Input} {op : FlaggedOp} {x y : Fin 16}

theorem reg_prepared (host : σ) (k : Fin 16) :
    (m.prepared host input).reg k = (m.resume input.press).reg k := by
  rw [prepared, tickTimers_eq]
  rfl

/-- The registers after a step that computes a result and a flag. -/
theorem reg_step_of_flagged (goes : m.isHeld input = false)
    (word : m.fetch = .ofNibbles 0x8 x y op.nibble) (host : σ) (k : Fin 16) :
    let before := m.resume input.press
    let computed := op.compute (before.reg x) (before.reg y)
    (m.step host input).machine.reg k =
      if k = x then computed.result else if k = 15 then computed.flagByte else before.reg k := by
  intro before computed
  rw [step_of_not_isHeld goes]
  change (m.effect host input).machine.reg k = _
  rw [effect, word, op.decode_ofNibbles, machine_execute_flagged]
  change ((m.prepared host input).setFlagged x _).reg k = _
  rw [reg_setFlagged, reg_prepared, reg_prepared, reg_prepared]

/-- The law of the operations with a flag. Let a step not be held up and execute the word of an
operation on the registers `x` and `y`, which may be the same and may be the flag register, and
let `a` and `b` be what they hold when a pressed key is delivered. Then a result and a flag obey
the law of the operation for `a` and `b`. Register `x` holds the result afterwards, the flag
register holds the flag unless it is register `x`, and all other registers are as before. For a
shift it makes no difference which register `y` is and what it holds. If the machine is in range,
the step succeeds, also on the bare layout. -/
theorem step_of_flagged (goes : m.isHeld input = false)
    (word : m.fetch = .ofNibbles 0x8 x y op.nibble) (host : σ) :
    let before := m.resume input.press
    let step := m.step host input
    (∃ r f : Nat, r < 256 ∧ f ≤ 1 ∧ op.Law (before.reg x).toNat (before.reg y).toNat r f ∧
      (step.machine.reg x).toNat = r ∧
      (step.machine.reg 15).toNat = (if x = 15 then r else f) ∧
      ∀ k, k ≠ x → k ≠ 15 → step.machine.reg k = before.reg k) ∧
    (op.IsShift → ∀ (other : Machine T) (input' : Input) (host' : σ) (y' : Fin 16),
      other.isHeld input' = false → other.fetch = .ofNibbles 0x8 x y' op.nibble →
      (other.resume input'.press).reg x = before.reg x →
      ∀ k, k = x ∨ k = 15 → (other.step host' input').machine.reg k = step.machine.reg k) ∧
    (m.InRange →
      m.step? host input = .ok step ∧
      ∀ keys drawn, (m.bare keys drawn).step host input =
        .ok (step.bare input.keys step.snapshot.changed)) := by
  intro before step
  have left := reg_step_of_flagged goes word host
  refine ⟨⟨_, _, UInt8.toNat_lt _, Bool.toNat_le _, op.law_compute _ _, ?_, ?_, ?_⟩, ?_, ?_⟩
  · rw [left, if_pos rfl]
  · by_cases onFlag : x = 15
    · rw [left, if_pos onFlag.symm, if_pos onFlag]
    · rw [left, if_neg (Ne.symm onFlag), if_pos rfl, if_neg onFlag]
      exact Flagged.toNat_flagByte _
  · intro k other plain
    rw [left, if_neg other, if_neg plain]
  · intro shift other input' host' y' goes' word' same k either
    have left' := reg_step_of_flagged goes' word' host'
    have outcome : op.compute ((other.resume input'.press).reg x)
        ((other.resume input'.press).reg y') = op.compute (before.reg x) (before.reg y) := by
      rw [same, op.compute_of_isShift shift]
    rw [left, left', outcome]
    by_cases first : k = x
    · rw [if_pos first, if_pos first]
    · have flag : k = 15 := either.resolve_left first
      rw [if_neg first, if_neg first, if_pos flag, if_pos flag]
  · intro range
    exact range.step_succeeds goes host

/-- A machine waits for a key in the flag register and then subtracts that register from register
1, which holds five. With key seven the result is 254, and the flag replaces the key. -/
theorem step_of_flagged_borrow :
    let m : Machine Rat := { (start [0x81, 0xF5] 0).setReg 1 5 with wait := some 15 }
    let tape : Tape Rat := ⟨fun _ => 0, fun _ => 0, 0, 0⟩
    let input : Input := { press := some 7 }
    let step := m.step tape input
    m.isHeld input = false ∧
      m.fetch = .ofNibbles 0x8 1 15 FlaggedOp.sub.nibble ∧
      (step.machine.reg 1).toNat = 254 ∧
      (step.machine.reg 15).toNat = 0 ∧
      step.machine.reg 2 = (m.resume input.press).reg 2 := by
  intro m tape input step
  have goes : m.isHeld input = false := rfl
  have word : m.fetch = .ofNibbles 0x8 1 15 FlaggedOp.sub.nibble := by decide +kernel
  have minuend : ((m.resume input.press).reg 1).toNat = 5 := by decide +kernel
  have subtrahend : ((m.resume input.press).reg 15).toNat = 7 := by decide +kernel
  obtain ⟨⟨r, f, -, small, ⟨difference, greater⟩, result, flag, others⟩, -⟩ :=
    step_of_flagged (x := 1) (y := 15) goes word tape
  rw [minuend, subtrahend] at difference greater
  rw [if_neg (by decide)] at flag
  refine ⟨goes, word, ?_, ?_, others 2 (by decide) (by decide)⟩
  · rw [result]
    omega
  · rw [flag]
    omega

end Machine

end Chip8
