import Chip8.Machine.Breakdown

/-!
# What an instruction leaves alone

Most instructions touch one part of a machine. For each part this module says which
instructions change it and how, so that invariants of runs need not open `execute`.
-/

namespace Chip8.Machine

variable {σ T : Type}

/-- Loading registers replaces the registers and nothing else. -/
theorem loadRegisters_eq (m : Machine T) (x : Nat) (bytes : List UInt8) :
    m.loadRegisters x bytes =
      { m with registers := (m.loadRegisters x bytes).registers } := by
  induction bytes generalizing m x with
  | nil => rfl
  | cons b rest ih =>
      simp only [loadRegisters]
      split
      · rw [ih]
        rfl
      · rfl

@[simp] theorem index_loadRegisters (m : Machine T) (x : Nat) (bytes : List UInt8) :
    (m.loadRegisters x bytes).index = m.index := by
  rw [loadRegisters_eq]

@[simp] theorem memory_loadRegisters (m : Machine T) (x : Nat) (bytes : List UInt8) :
    (m.loadRegisters x bytes).memory = m.memory := by
  rw [loadRegisters_eq]

/-- After bytes were loaded from a register on, each register in their window holds one of them,
and any other register holds what it held. -/
theorem reg_loadRegisters (m : Machine T) (x : Nat) (bytes : List UInt8) (k : Fin 16) :
    (m.loadRegisters x bytes).reg k =
      if x ≤ k.val then (bytes[k.val - x]?).getD (m.reg k) else m.reg k := by
  induction bytes generalizing m x with
  | nil => simp [loadRegisters]
  | cons b rest ih =>
      by_cases inside : x < 16
      · rw [loadRegisters, dif_pos inside, ih, reg_setReg]
        obtain before | here | behind := Nat.lt_trichotomy k.val x
        · have other : (⟨x, inside⟩ : Fin 16) ≠ k := by
            rintro rfl
            exact Nat.lt_irrefl _ before
          rw [if_neg (by omega), if_neg other, if_neg (by omega)]
        · have same : (⟨x, inside⟩ : Fin 16) = k := Fin.ext here.symm
          rw [if_neg (by omega), if_pos same, if_pos (by omega), here, Nat.sub_self]
          rfl
        · have other : (⟨x, inside⟩ : Fin 16) ≠ k := by
            rintro rfl
            exact Nat.lt_irrefl _ behind
          have next : k.val - x = k.val - (x + 1) + 1 := by omega
          rw [if_pos (by omega), if_neg other, if_pos (by omega), next, List.getElem?_cons_succ]
      · rw [loadRegisters, dif_neg inside, if_neg (by omega)]

/-- After the bytes that the index register points at were loaded, the registers up to one hold
them. -/
theorem reg_loadRegisters_readAll (m : Machine T) (x n : Fin 16) :
    (m.loadRegisters 0 (m.memory.readAll m.index (x.val + 1))).reg n =
      if n ≤ x then m.memory.read (m.index + n.val) else m.reg n := by
  have length := m.memory.length_readAll m.index (x.val + 1)
  rw [reg_loadRegisters, if_pos (Nat.zero_le _), Nat.sub_zero]
  by_cases upTo : n ≤ x
  · have inside : n.val < (m.memory.readAll m.index (x.val + 1)).length := by omega
    rw [if_pos upTo, List.getElem?_eq_getElem inside, Memory.getElem_readAll]
    rfl
  · have beyond : (m.memory.readAll m.index (x.val + 1)).length ≤ n.val := by omega
    rw [if_neg upTo, List.getElem?_eq_none beyond]
    rfl

/-- The flag register takes the flag, and another register the result, which wins if that is the
flag register too. -/
theorem reg_setFlagged (m : Machine T) (x : Fin 16) (r : Flagged) (k : Fin 16) :
    (m.setFlagged x r).reg k =
      if k = x then r.result else if k = 15 then r.flagByte else m.reg k := by
  simp only [setFlagged, reg_setReg, @eq_comm _ k]

@[simp] theorem length_registersTo (m : Machine T) (x : Fin 16) :
    (m.registersTo x).length = x.val + 1 := by
  rw [registersTo, List.length_take, Vector.length_toList]
  omega

theorem getElem?_registersTo (m : Machine T) {x n : Fin 16} (upTo : n ≤ x) :
    (m.registersTo x)[n.val]? = some (m.reg n) := by
  rw [registersTo, List.getElem?_take_of_lt (by omega), List.getElem?_eq_getElem (by simp)]
  rfl

section Execute

variable (m : Machine T) (keys : Keyboard) (chance : UInt8)

/-- A return goes on after the latest address and drops it; without one it goes on after
itself. -/
theorem machine_execute_ret :
    (m.execute keys chance .ret).machine =
      { m with pc := (m.stack.headD m.pc + 2) % 65536, stack := m.stack.tail } := by
  obtain ⟨registers, index, pc, delay, sound, stack, memory, display, wait, lastTick⟩ := m
  cases stack <;> rfl

/-- An instruction that loads registers replaces the registers and moves on. -/
theorem machine_execute_load (x : Fin 16) :
    (m.execute keys chance (.load x)).machine =
      { m.advance with
        registers := (m.loadRegisters 0 (m.memory.readAll m.index (x.val + 1))).registers } := by
  change (m.loadRegisters 0 _).advance = _
  rw [loadRegisters_eq]
  rfl

variable (op : Opcode)

/-- A call pushes the program counter, a return drops the latest address, and no other
instruction touches the stack. -/
theorem stack_execute :
    (m.execute keys chance op).machine.stack =
      match op with
      | .call _ => m.pc :: m.stack
      | .ret => m.stack.tail
      | _ => m.stack := by
  cases op with
  | ret => rw [machine_execute_ret]
  | load x => rw [machine_execute_load]; rfl
  | _ => rfl

/-- Three instructions point the index register somewhere else, and no other one touches it. -/
theorem index_execute :
    (m.execute keys chance op).machine.index =
      match op with
      | .loadIndex addr => (addr : Int)
      | .addIndex x => (m.index + (m.reg x).toNat) % 65536
      | .glyph x => ((m.reg x).toNat % 16 * Memory.glyphSize : Int)
      | _ => m.index := by
  cases op with
  | ret => rw [machine_execute_ret]
  | load x => rw [machine_execute_load]; rfl
  | _ => rfl

/-- Two instructions write to memory from the index register on, and no other one touches
memory. -/
theorem memory_execute :
    (m.execute keys chance op).machine.memory =
      match op with
      | .storeDigits x => m.memory.writeAll m.index (decimalDigits (m.reg x))
      | .store x => m.memory.writeAll m.index (m.registersTo x)
      | _ => m.memory := by
  cases op with
  | ret => rw [machine_execute_ret]
  | load x => rw [machine_execute_load]; rfl
  | _ => rfl

/-- One instruction sets the delay timer, and no other one touches it. -/
theorem delay_execute :
    (m.execute keys chance op).machine.delay =
      match op with
      | .setDelay x => ((m.reg x).toNat : Int)
      | _ => m.delay := by
  cases op with
  | ret => rw [machine_execute_ret]
  | load x => rw [machine_execute_load]; rfl
  | _ => rfl

/-- One instruction sets the sound timer, and no other one touches it. -/
theorem sound_execute :
    (m.execute keys chance op).machine.sound =
      match op with
      | .setSound x => ((m.reg x).toNat : Int)
      | _ => m.sound := by
  cases op with
  | ret => rw [machine_execute_ret]
  | load x => rw [machine_execute_load]; rfl
  | _ => rfl

/-- No instruction touches the instant of the latest tick. -/
@[simp] theorem lastTick_execute :
    (m.execute keys chance op).machine.lastTick = m.lastTick := by
  cases op with
  | ret => rw [machine_execute_ret]
  | load x => rw [machine_execute_load]; rfl
  | _ => rfl

end Execute

/-- A return goes on after the latest address. -/
theorem pc_execute_ret {m : Machine T} {a : Int} {rest : List Int} (h : m.stack = a :: rest)
    (keys : Keyboard) (chance : UInt8) :
    (m.execute keys chance .ret).machine.pc = (a + 2) % 65536 := by
  rw [machine_execute_ret, h]
  rfl

/-- An instruction that does not redraw leaves the display alone. -/
theorem display_execute {m : Machine T} {keys : Keyboard} {chance : UInt8} {op : Opcode}
    (h : (m.execute keys chance op).redrawn = false) :
    (m.execute keys chance op).machine.display = m.display := by
  cases op with
  | clear => simp [execute, Effect.redraw] at h
  | draw x y rows => simp [execute, Effect.redraw] at h
  | ret => rw [machine_execute_ret]
  | load x => rw [machine_execute_load]; rfl
  | _ => rfl

end Chip8.Machine
