import Chip8.Log
import Chip8.Proofs.Bare.Legal
import Chip8.Proofs.Instruction.Fields

/-!
# Where a step goes on

Ten instructions decide where to go on; all other words lead to the next word. The law is
stated on words: from the machine whose key is delivered, the keys and the word alone say where
the program counter and the stack go. A bare machine reaches the same address by a detour: it
stores an address two short of the target, and the step adds two.
-/

namespace Chip8

namespace Notice

/-- The log entries of notices that are not just for finding faults. -/
def graver (notices : List Notice) : List LogEntry :=
  (notices.map entry).filter fun e => e.level ≠ .debug

/-- The execution of a word is logged for finding faults. -/
theorem graver_executed_cons (address : Int) (word : Word) (rest : List Notice) :
    graver (.executed address word :: rest) = graver rest := rfl

end Notice

namespace Machine

variable {σ T : Type}

section Execute

variable (m : Machine T) (keys : Keyboard)

/-- The program counter after an instruction that skips the next word under a condition. -/
def skipTo (c : Bool) : Int :=
  (m.pc + if c then 4 else 2) % 65536

/-- The number in the first register. -/
def offset : Nat :=
  (m.registers.toList.headD 0).toNat

theorem offset_eq : m.offset = (m.reg 0).toNat := by
  have first : m.registers.toList.head? = some (m.reg 0) := by
    rw [List.head?_eq_getElem?, Vector.getElem?_toList]
    exact Vector.getElem?_eq_getElem (by decide)
  rw [offset, List.headD_eq_head?_getD, first]
  rfl

/-- Where an instruction leads: the program counter and the stack, the latest address first. -/
def next : Opcode → Int × List Int
  | .ret =>
      match m.stack with
      | [] => ((m.pc + 2) % 65536, [])
      | top :: rest => ((top + 2) % 65536, rest)
  | .jump addr => (addr, m.stack)
  | .call addr => (addr, m.pc :: m.stack)
  | .jumpV0 addr => (addr + m.offset, m.stack)
  | .skipEqByte x byte => (m.skipTo (m.reg x = byte), m.stack)
  | .skipNeByte x byte => (m.skipTo (m.reg x ≠ byte), m.stack)
  | .skipEqReg x y => (m.skipTo (m.reg x = m.reg y), m.stack)
  | .skipNeReg x y => (m.skipTo (m.reg x ≠ m.reg y), m.stack)
  | .skipKey x => (m.skipTo (m.keyHeld keys x), m.stack)
  | .skipNoKey x => (m.skipTo (!m.keyHeld keys x), m.stack)
  | _ => ((m.pc + 2) % 65536, m.stack)

/-- Executing an instruction leads where the instruction says. -/
theorem next_execute (chance : UInt8) (op : Opcode) :
    ((m.execute keys chance op).machine.pc, (m.execute keys chance op).machine.stack) =
      m.next keys op := by
  cases op with
  | ret =>
      rw [machine_execute_ret]
      cases hs : m.stack with
      | nil => simp [next, hs]
      | cons top rest => simp [next, hs]
  | jumpV0 addr =>
      rw [next, offset_eq]
      rfl
  | load x =>
      rw [machine_execute_load]
      rfl
  | _ => rfl

/-- Only a return without a call has more to report than the execution. -/
theorem notices_execute (chance : UInt8) (op : Opcode) :
    (m.execute keys chance op).notices =
      if op = .ret ∧ m.stack = [] then [.ignoredReturn m.pc] else [] := by
  cases op with
  | ret => cases hs : m.stack <;> simp [execute, hs, Effect.quiet]
  | _ => rfl

/-- Where a word leads. The family of a word is its first nibble. -/
def flow (w : Word) : Int × List Int :=
  match w.family.val with
  | 0x0 =>
      if w = 0x00EE then
        match m.stack with
        | [] => ((m.pc + 2) % 65536, [])
        | top :: rest => ((top + 2) % 65536, rest)
      else ((m.pc + 2) % 65536, m.stack)
  | 0x1 => (w.addr, m.stack)
  | 0x2 => (w.addr, m.pc :: m.stack)
  | 0x3 => (m.skipTo (m.reg w.x = w.byte), m.stack)
  | 0x4 => (m.skipTo (m.reg w.x ≠ w.byte), m.stack)
  | 0x5 => (m.skipTo (w.nibble.val = 0 ∧ m.reg w.x = m.reg w.y), m.stack)
  | 0x9 => (m.skipTo (w.nibble.val = 0 ∧ m.reg w.x ≠ m.reg w.y), m.stack)
  | 0xB => (w.addr + m.offset, m.stack)
  | 0xE =>
      let held := keys ((m.reg w.x).toNat % 16 : Nat)
      (m.skipTo (w.byte = 0x9E ∧ held = true ∨ w.byte = 0xA1 ∧ held = false), m.stack)
  | _ => ((m.pc + 2) % 65536, m.stack)

theorem next_decodeArithmetic (x y : Fin 16) (selector : Nat) :
    m.next keys (Instruction.decodeArithmetic x y selector) =
      ((m.pc + 2) % 65536, m.stack) := by
  unfold Instruction.decodeArithmetic
  split <;> rfl

theorem next_decodeTransfer (x : Fin 16) (selector : Nat) :
    m.next keys (Instruction.decodeTransfer x selector) = ((m.pc + 2) % 65536, m.stack) := by
  unfold Instruction.decodeTransfer
  split <;> rfl

theorem next_decodeKey (x : Fin 16) (byte : UInt8) :
    m.next keys (Instruction.decodeKey x byte.toNat) =
      (m.skipTo (byte = 0x9E ∧ m.keyHeld keys x = true ∨
        byte = 0xA1 ∧ m.keyHeld keys x = false), m.stack) := by
  unfold Instruction.decodeKey
  have number (code : UInt8) : byte.toNat = code.toNat ↔ byte = code := UInt8.toNat_inj
  split
  case h_1 h =>
    obtain rfl := (number 0x9E).1 h
    simp [next]
  case h_2 h =>
    obtain rfl := (number 0xA1).1 h
    simp [next]
  case h_3 unheld free =>
    have one : byte ≠ 0x9E := fun e => unheld ((number 0x9E).2 e)
    have other : byte ≠ 0xA1 := fun e => free ((number 0xA1).2 e)
    simp [next, one, other, skipTo]

/-- A skip whose words have a zero as their last nibble. -/
theorem next_of_nibble (nibble : Nat) {op : Opcode} {c : Prop} [Decidable c]
    (skip : m.next keys op = (m.skipTo (decide c), m.stack)) :
    m.next keys (if nibble = 0 then op else .noop) =
      (m.skipTo (decide (nibble = 0 ∧ c)), m.stack) := by
  by_cases low : nibble = 0
  · simpa [low] using skip
  · simp [low, next, skipTo]

/-- A word leads where its instruction leads. -/
theorem next_decode (w : Word) : m.next keys (Instruction.decode w) = m.flow keys w := by
  unfold Instruction.decode
  split
  case h_1 family =>
    simp only [flow, family]
    split
    case h_1 code =>
      rw [if_neg fun e => by rw [e] at code; cases code]
      rfl
    case h_2 code =>
      rw [if_pos (UInt16.toNat_inj.1 code)]
      rfl
    case h_3 _ code =>
      rw [if_neg fun e => code (by rw [e]; rfl)]
      rfl
  case h_6 family =>
    simp only [flow, family]
    exact m.next_of_nibble keys w.nibble.val rfl
  case h_9 family =>
    simp only [flow, family]
    exact m.next_decodeArithmetic keys _ _ _
  case h_10 family =>
    simp only [flow, family]
    exact m.next_of_nibble keys w.nibble.val rfl
  case h_15 family =>
    simp only [flow, family]
    exact m.next_decodeKey keys _ _
  case h_16 =>
    -- the last branch of `flow` is closed by the families that are left out
    simp only [flow]
    exact m.next_decodeTransfer keys _ _
  all_goals
    next family =>
      simp only [flow, family]
      rfl

end Execute

end Machine

namespace Instruction

/-- Only one word is a return. -/
theorem decode_eq_ret_iff (w : Word) : decode w = .ret ↔ w = 0x00EE := by
  constructor
  · intro returns
    exact eq_encode_of_decode returns nofun
  · rintro rfl
    rfl

end Instruction

/-- Whether a word jumps or calls: its family is one, two or eleven. -/
def Word.IsJump (w : Word) : Prop :=
  w.family.val = 0x1 ∨ w.family.val = 0x2 ∨ w.family.val = 0xB

namespace Machine

variable {σ T : Type}

/-- On a layout, a jump or a call leaves the program counter two short of its target. -/
theorem execute_bare_jump (m : Machine T) (keys : Keyboard) (chance : Nat) {w : Word}
    (jump : w.IsJump) :
    (m.bare keys false).execute chance (Instruction.decode w).numbers =
      .ok { m.bare keys false with pc := (m.flow keys w).1 - 2, stack := (m.flow keys w).2 } := by
  obtain family | family | family := jump
  · simp only [Instruction.decode, flow, family]
    rfl
  · simp only [Instruction.decode, flow, family]
    rfl
  · have first := reg_bare m keys false 0
    simp only [Instruction.decode, flow, family, offset_eq]
    change ((m.bare keys false).reg (0 : Fin 16) >>= _) = _
    rw [first, ok_bind, Int.add_comm]
    rfl

/-- On a layout, every word leaves the program counter two short of where it leads, up to
sixteen bits. -/
theorem execute_bare_flow {m : Machine T} (byte : 0 ≤ m.delay ∧ m.delay < 256) (keys : Keyboard)
    (chance : UInt8) (w : Word) :
    ∃ left, (m.bare keys false).execute chance.toNat (Instruction.decode w).numbers = .ok left ∧
      ((left.pc + 2) % 65536, left.stack) = m.flow keys w ∧
      (w.IsJump → left.pc = (m.flow keys w).1 - 2) := by
  have executed := execute_bare m keys chance (Instruction.decode w) byte
  cases run : (m.bare keys false).execute chance.toNat (Instruction.decode w).numbers with
  | error fault =>
      rw [run] at executed
      cases executed
  | ok left =>
      rw [run] at executed
      have reached := Except.ok.inj executed
      have address : (left.pc + 2) % 65536 =
          (m.execute keys chance (Instruction.decode w)).machine.pc := congrArg Bare.pc reached
      have saved : left.stack = (m.execute keys chance (Instruction.decode w)).machine.stack :=
        congrArg Bare.stack reached
      refine ⟨left, rfl, ?_, ?_⟩
      · rw [address, saved, next_execute, next_decode]
      · intro jump
        rw [execute_bare_jump m keys chance.toNat jump] at run
        exact congrArg Bare.pc (Except.ok.inj run).symm

variable [Instant T] [Host σ T]

/-- A tick does not touch what a word goes by. -/
theorem flow_prepared (m : Machine T) (host : σ) (input : Input) (w : Word) :
    (m.prepared host input).flow input.keys w = (m.resume input.press).flow input.keys w := by
  rw [prepared, tickTimers_eq]
  rfl

/-- The law of the control flow. Let a step not be held up, and let a pressed key be delivered.
Then the word at the program counter says where the step goes on and which stack it leaves, and
the step warns of a return without a call and of nothing else. If the machine is in range, the
step succeeds, also on the bare layout. There the word first leaves the program counter two short
of the address; a jump or a call does so even if that is below zero. -/
theorem step_follows_flow {m : Machine T} {input : Input} (goes : m.isHeld input = false)
    (host : σ) :
    let before := m.resume input.press
    let step := m.step host input
    (step.machine.pc, step.machine.stack) = before.flow input.keys m.fetch ∧
      Notice.graver step.notices =
        (if m.fetch = 0x00EE ∧ m.stack = [] then
          [⟨.warning, .machine,
            "RET with empty stack at PC " ++ Numeral.signedHex 3 m.pc ++ ", ignored"⟩]
        else []) ∧
      (m.InRange →
        m.step? host input = .ok step ∧
        (∀ keys drawn, (m.bare keys drawn).step host input =
          .ok (step.bare input.keys step.snapshot.changed)) ∧
        ∃ left, ((m.prepared host input).bare input.keys false).execute
            (m.drawn host).1.toNat (Instruction.decode m.fetch).numbers = .ok left ∧
          ((left.pc + 2) % 65536, left.stack) = before.flow input.keys m.fetch ∧
          (m.fetch.IsJump → left.pc = (before.flow input.keys m.fetch).1 - 2)) := by
  intro before step
  have stepped : step = _ := step_of_not_isHeld goes host
  have law := next_execute (m.prepared host input) input.keys (m.drawn host).1
    (Instruction.decode m.fetch)
  rw [next_decode, flow_prepared] at law
  refine ⟨?_, ?_, ?_⟩
  · rw [stepped]
    exact law
  · have warned := notices_execute (m.prepared host input) input.keys (m.drawn host).1
      (Instruction.decode m.fetch)
    simp only [Instruction.decode_eq_ret_iff, stack_prepared, pc_prepared] at warned
    rw [stepped, Notice.graver_executed_cons, effect, warned]
    split <;> rfl
  · intro range
    have timer : 0 ≤ (m.prepared host input).delay ∧ (m.prepared host input).delay < 256 :=
      delay_tickTimers_byte _ _ (by simpa using range.delay_byte)
    refine ⟨step?_of_byte range.delay_byte host input, ?_, ?_⟩
    · intro keys drawn
      exact Bare.step_bare_of_not_isHeld goes range.delay_byte keys drawn host
    · rw [← flow_prepared m host]
      exact execute_bare_flow timer input.keys (m.drawn host).1 m.fetch

/-- A machine waits for a key in its first register and then jumps by that register. With key one
the jump leads to address one, by way of an address below zero. -/
theorem step_follows_flow_below_zero :
    let jump : Machine Rat := { start [0xB0, 0x00] 0 with wait := some 0 }
    let tape : Tape Rat := ⟨fun _ => 0, fun _ => 0, 0, 0⟩
    let input : Input := { press := some 1 }
    jump.isHeld input = false ∧
      (jump.step tape input).machine.pc = 1 ∧
      (jump.step tape input).machine.stack = [] ∧
      ∃ left, ((jump.prepared tape input).bare input.keys false).execute
          (jump.drawn tape).1.toNat (Instruction.decode jump.fetch).numbers = .ok left ∧
        left.pc = -1 := by
  intro jump tape input
  have goes : jump.isHeld input = false := rfl
  have word : jump.fetch = 0xB000 := by decide +kernel
  have range : jump.InRange := by
    have ranges := inRange_start (T := Rat) [0xB0, 0x00] 0
    exact ⟨ranges.index, ranges.pc, ranges.stack, ranges.delay, ranges.sound⟩
  have target : (jump.resume input.press).flow input.keys jump.fetch = (1, []) := by
    decide +kernel
  obtain ⟨law, -, detour⟩ := step_follows_flow goes tape
  obtain ⟨-, -, left, run, -, stored⟩ := detour range
  rw [target] at law stored
  obtain ⟨address, saved⟩ := Prod.mk.inj law
  refine ⟨goes, address, saved, left, run, ?_⟩
  exact stored (by rw [word]; exact .inr (.inr rfl))

end Machine

end Chip8
