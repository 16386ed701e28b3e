import Chip8.Proofs.Machine.Run

/-!
# Ranges of a running machine

Addresses and timers are integers, but a machine that was started keeps its addresses in
sixteen bits and its timers in a byte. The range of the delay timer is what keeps the
instruction that reads it from breaking a step off.
-/

namespace Chip8

/-- An address of sixteen bits. -/
def IsAddress (a : Int) : Prop :=
  0 ≤ a ∧ a ≤ 0xFFFF

/-- A count that fits a byte. -/
def IsCount (t : Int) : Prop :=
  0 ≤ t ∧ t ≤ 0xFF

theorem isAddress_mod (a : Int) : IsAddress (a % 65536) := by
  unfold IsAddress
  omega

theorem isAddress_of_lt {n : Nat} (h : n < 65536) : IsAddress n := by
  unfold IsAddress
  omega

theorem isCount_toNat (b : UInt8) : IsCount b.toNat := by
  have := b.toNat_lt
  unfold IsCount
  omega

namespace Machine

variable {σ T : Type}

/-- All addresses have sixteen bits and the timers hold bytes. -/
structure InRange (m : Machine T) : Prop where
  index : IsAddress m.index
  pc : IsAddress m.pc
  stack : ∀ a ∈ m.stack, IsAddress a
  delay : IsCount m.delay
  sound : IsCount m.sound

/-- All addresses have sixteen bits. -/
structure Addressed (m : Machine T) : Prop where
  index : IsAddress m.index
  pc : IsAddress m.pc
  stack : ∀ a ∈ m.stack, IsAddress a

theorem inRange_start (program : List UInt8) (now : T) : (start program now).InRange where
  index := isAddress_of_lt (n := 0) (by decide)
  pc := isAddress_of_lt (n := Memory.programStart) (by decide)
  stack := by simp [start]
  delay := isCount_toNat 0
  sound := isCount_toNat 0

theorem InRange.resume {m : Machine T} (h : m.InRange) (press : Option Int) :
    (m.resume press).InRange := by
  rw [resume_eq]
  exact ⟨h.index, h.pc, h.stack, h.delay, h.sound⟩

theorem isCount_countDown {t : Int} (h : IsCount t) : IsCount (countDown t) := by
  unfold IsCount at *
  unfold countDown
  split <;> omega

theorem InRange.tickTimers [Instant T] {m : Machine T} (h : m.InRange) (now : T) :
    (m.tickTimers now).InRange := by
  unfold Machine.tickTimers
  split
  · exact ⟨h.index, h.pc, h.stack, isCount_countDown h.delay, isCount_countDown h.sound⟩
  · exact h

section Execute

variable {m : Machine T} (keys : Keyboard) (chance : UInt8) (op : Opcode)

/-- Wherever an instruction goes on, the program counter has sixteen bits. -/
theorem isAddress_pc_execute : IsAddress (m.execute keys chance op).machine.pc := by
  cases op with
  | jump addr => exact isAddress_of_lt (n := addr) (by omega)
  | call addr => exact isAddress_of_lt (n := addr) (by omega)
  | jumpV0 addr =>
      have small := (m.reg 0).toNat_lt
      exact isAddress_of_lt (n := addr + (m.reg 0).toNat) (by omega)
  | ret =>
      rw [machine_execute_ret]
      exact isAddress_mod _
  | _ => exact isAddress_mod _

theorem isAddress_index_execute (h : IsAddress m.index) :
    IsAddress (m.execute keys chance op).machine.index := by
  rw [index_execute]
  cases op with
  | loadIndex addr => exact isAddress_of_lt (n := addr) (by omega)
  | addIndex x => exact isAddress_mod _
  | glyph x => exact isAddress_of_lt (n := (m.reg x).toNat % 16 * 5) (by omega)
  | _ => exact h

theorem isCount_delay_execute (h : IsCount m.delay) :
    IsCount (m.execute keys chance op).machine.delay := by
  rw [delay_execute]
  cases op with
  | setDelay x => exact isCount_toNat _
  | _ => exact h

theorem isCount_sound_execute (h : IsCount m.sound) :
    IsCount (m.execute keys chance op).machine.sound := by
  rw [sound_execute]
  cases op with
  | setSound x => exact isCount_toNat _
  | _ => exact h

/-- A call pushes an address of sixteen bits; a return only drops one. -/
theorem isAddress_stack_execute (hp : IsAddress m.pc) (hs : ∀ a ∈ m.stack, IsAddress a) :
    ∀ a ∈ (m.execute keys chance op).machine.stack, IsAddress a := by
  rw [stack_execute]
  cases op with
  | call addr =>
      intro a ha
      obtain rfl | below := List.mem_cons.1 ha
      · exact hp
      · exact hs a below
  | ret =>
      intro a ha
      exact hs a (List.mem_of_mem_tail ha)
  | _ => exact hs

theorem InRange.execute (h : m.InRange) : (m.execute keys chance op).machine.InRange where
  index := isAddress_index_execute keys chance op h.index
  pc := isAddress_pc_execute keys chance op
  stack := isAddress_stack_execute keys chance op h.pc h.stack
  delay := isCount_delay_execute keys chance op h.delay
  sound := isCount_sound_execute keys chance op h.sound

end Execute

variable [Instant T] [Host σ T]

/-- Every step keeps all ranges. -/
theorem InRange.step {m : Machine T} (h : m.InRange) (host : σ) (input : Input) :
    (m.step host input).machine.InRange := by
  cases held : m.isHeld input with
  | true =>
      rw [step_of_isHeld held]
      exact h
  | false =>
      rw [step_of_not_isHeld held]
      exact ((h.resume input.press).tickTimers _).execute input.keys _ _

/-- Every step keeps the addresses in sixteen bits. -/
theorem Addressed.step {m : Machine T} (h : m.Addressed) (host : σ) (input : Input) :
    (m.step host input).machine.Addressed := by
  cases held : m.isHeld input with
  | true =>
      rw [step_of_isHeld held]
      exact h
  | false =>
      rw [step_of_not_isHeld held]
      exact {
        index := isAddress_index_execute _ _ _ (by rw [index_prepared]; exact h.index)
        pc := isAddress_pc_execute _ _ _
        stack := isAddress_stack_execute _ _ _ (by rw [pc_prepared]; exact h.pc)
          (by rw [stack_prepared]; exact h.stack) }

/-- Every run keeps all ranges. -/
theorem InRange.after {m : Machine T} (h : m.InRange) (host : σ) (inputs : List Input) :
    (m.after host inputs).1.InRange := by
  apply after_of_step (P := InRange) _ h
  intro m host input before
  exact before.step host input

end Machine

end Chip8
