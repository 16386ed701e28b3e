import Chip8.Proofs.Machine.Flow

/-!
# Which parts of a machine a word may change

Every word moves the program counter. What else a word may change can be told by its fields: a
table gives the words that may change each part of a machine, and all other words leave that
part alone. A step reads the clock once, draws a random byte for one family of words, and logs
the word before anything it warns of.
-/

namespace Chip8

/-- The parts of a machine that an instruction may change besides the program counter. -/
inductive Part where
  | memory
  | display
  | stack
  | index
  | delay
  | sound
  /-- The register that waits for a key. -/
  | wait
  | register (k : Fin 16)
deriving DecidableEq, Repr

namespace Word

/-- Whether the first nibble of a word is the last one and its low byte a given one. -/
def IsTransfer (w : Word) (b : UInt8) : Prop :=
  w.family.val = 0xF ∧ w.byte = b

/-- Whether a word sets its first register and nothing else. -/
def SetsOne (w : Word) : Prop :=
  w.family.val = 0x6 ∨ w.family.val = 0x7 ∨ w.family.val = 0xC ∨
    w.family.val = 0x8 ∧ w.nibble.val ≤ 0x3 ∨ w.IsTransfer 0x07

/-- Whether a word sets its first register and the flag register. -/
def SetsFlagged (w : Word) : Prop :=
  w.family.val = 0x8 ∧
    (w.nibble.val = 0x4 ∨ w.nibble.val = 0x5 ∨ w.nibble.val = 0x6 ∨ w.nibble.val = 0x7 ∨
      w.nibble.val = 0xE)

/-- The words that may change a part of a machine. The family of a word is its first nibble. -/
def MayChange (w : Word) : Part → Prop
  | .memory => w.IsTransfer 0x33 ∨ w.IsTransfer 0x55
  | .display => w = 0x00E0 ∨ w.family.val = 0xD
  | .stack => w.family.val = 0x2 ∨ w = 0x00EE
  | .index => w.family.val = 0xA ∨ w.IsTransfer 0x1E ∨ w.IsTransfer 0x29
  | .delay => w.IsTransfer 0x15
  | .sound => w.IsTransfer 0x18
  | .wait => w.IsTransfer 0x0A
  | .register k =>
      w.SetsOne ∧ k = w.x ∨ w.SetsFlagged ∧ (k = w.x ∨ k.val = 15) ∨
        w.family.val = 0xD ∧ k.val = 15 ∨ w.IsTransfer 0x65 ∧ k ≤ w.x

instance (w : Word) (b : UInt8) : Decidable (w.IsTransfer b) :=
  inferInstanceAs (Decidable (_ ∧ _))

instance (w : Word) : Decidable w.SetsOne :=
  inferInstanceAs (Decidable (_ ∨ _))

instance (w : Word) : Decidable w.SetsFlagged :=
  inferInstanceAs (Decidable (_ ∧ _))

instance (w : Word) : DecidablePred w.MayChange
  | .delay | .sound | .wait => inferInstanceAs (Decidable (w.IsTransfer _))
  | .memory | .display | .stack | .index | .register _ => inferInstanceAs (Decidable (_ ∨ _))

end Word

namespace Instruction

/-- Whether an instruction sets a register. -/
def Sets (k : Fin 16) : Opcode → Prop
  | .loadByte x _ | .addByte x _ | .random x _ | .readDelay x => k = x
  | .move x _ | .or x _ | .and x _ | .xor x _ => k = x
  | .add x _ | .sub x _ | .shiftRight x _ | .subFrom x _ | .shiftLeft x _ => k = x ∨ k.val = 15
  | .draw _ _ _ => k.val = 15
  | .load x => k ≤ x
  | _ => False

/-- The table gives for a register the words of the instructions that set it. -/
theorem mayChange_register_encode (op : Opcode) (k : Fin 16) :
    (encode op).MayChange (.register k) ↔ Sets k op := by
  cases op with
  | noop | clear | ret =>
      simp [encode, Word.MayChange, Word.SetsOne, Word.SetsFlagged, Word.IsTransfer, Sets,
        Word.family]
  | _ => simp [encode, Word.MayChange, Word.SetsOne, Word.SetsFlagged, Word.IsTransfer, Sets]

end Instruction

namespace Machine

variable {σ T : Type}

/-- Whether two machines agree in a part. -/
def SameAt (m k : Machine T) : Part → Prop
  | .memory => m.memory = k.memory
  | .display => m.display = k.display
  | .stack => m.stack = k.stack
  | .index => m.index = k.index
  | .delay => m.delay = k.delay
  | .sound => m.sound = k.sound
  | .wait => m.wait = k.wait
  | .register j => m.reg j = k.reg j

section Execute

variable (m : Machine T) (keys : Keyboard) (chance : UInt8) (op : Opcode)

/-- A pending wait is set up by one instruction, and no other one touches it. -/
theorem wait_execute :
    (m.execute keys chance op).machine.wait =
      match op with
      | .waitKey x => some x
      | _ => m.wait := by
  cases op with
  | ret => rw [machine_execute_ret]
  | load x => rw [machine_execute_load]; rfl
  | _ => rfl

/-- Two instructions redraw the display. -/
theorem redrawn_execute :
    (m.execute keys chance op).redrawn =
      match op with
      | .clear | .draw _ _ _ => true
      | _ => false := by
  cases op with
  | ret => cases h : m.stack <;> simp [execute, h, Effect.quiet]
  | _ => rfl

variable {op} {keys} {chance}

/-- A register that an instruction does not set stays as it is. -/
theorem reg_execute_of_not_sets {k : Fin 16} (kept : ¬ Instruction.Sets k op) :
    (m.execute keys chance op).machine.reg k = m.reg k := by
  have set (x : Fin 16) (b : UInt8) (other : k ≠ x) : (m.setReg x b).reg k = m.reg k := by
    rw [reg_setReg, if_neg other.symm]
  cases op with
  | ret => rw [machine_execute_ret]; rfl
  | loadByte x _ | addByte x _ | random x _ | readDelay x => exact set x _ kept
  | move x _ | or x _ | and x _ | xor x _ => exact set x _ kept
  | add x _ | sub x _ | shiftRight x _ | subFrom x _ | shiftLeft x _ =>
      obtain ⟨other, plain⟩ := not_or.1 kept
      have unflagged : k ≠ 15 := fun flag => plain (congrArg Fin.val flag)
      exact (reg_setFlagged m x _ k).trans (by rw [if_neg other, if_neg unflagged])
  | draw x y n => exact set 15 _ fun flag => kept (congrArg Fin.val flag)
  | load x => exact (m.reg_loadRegisters_readAll x k).trans (if_neg kept)
  | _ => rfl

/-- An instruction leaves every part alone that the table does not give for its word. -/
theorem sameAt_execute {part : Part} (kept : ¬ (Instruction.encode op).MayChange part) :
    (m.execute keys chance op).machine.SameAt m part := by
  cases part with
  | memory =>
      change (m.execute keys chance op).machine.memory = m.memory
      rw [memory_execute]
      cases op with
      | storeDigits x | store x =>
          simp [Instruction.encode, Word.MayChange, Word.IsTransfer] at kept
      | _ => rfl
  | display =>
      change (m.execute keys chance op).machine.display = m.display
      apply display_execute
      rw [redrawn_execute]
      cases op with
      | clear | draw x y n => simp [Instruction.encode, Word.MayChange] at kept
      | _ => rfl
  | stack =>
      change (m.execute keys chance op).machine.stack = m.stack
      rw [stack_execute]
      cases op with
      | call addr | ret => simp [Instruction.encode, Word.MayChange] at kept
      | _ => rfl
  | index =>
      change (m.execute keys chance op).machine.index = m.index
      rw [index_execute]
      cases op with
      | loadIndex addr | addIndex x | glyph x =>
          simp [Instruction.encode, Word.MayChange, Word.IsTransfer] at kept
      | _ => rfl
  | delay =>
      change (m.execute keys chance op).machine.delay = m.delay
      rw [delay_execute]
      cases op with
      | setDelay x => simp [Instruction.encode, Word.MayChange, Word.IsTransfer] at kept
      | _ => rfl
  | sound =>
      change (m.execute keys chance op).machine.sound = m.sound
      rw [sound_execute]
      cases op with
      | setSound x => simp [Instruction.encode, Word.MayChange, Word.IsTransfer] at kept
      | _ => rfl
  | wait =>
      change (m.execute keys chance op).machine.wait = m.wait
      rw [wait_execute]
      cases op with
      | waitKey x => simp [Instruction.encode, Word.MayChange, Word.IsTransfer] at kept
      | _ => rfl
  | register k =>
      rw [Instruction.mayChange_register_encode] at kept
      exact reg_execute_of_not_sets m kept

/-- A word leaves every part alone that the table does not give for it. -/
theorem sameAt_execute_decode {w : Word} {part : Part} (kept : ¬ w.MayChange part) :
    (m.execute keys chance (Instruction.decode w)).machine.SameAt m part := by
  by_cases idle : Instruction.decode w = .noop
  · rw [idle]
    cases part <;> rfl
  · rw [← Instruction.encode_decode idle] at kept
    exact sameAt_execute m kept

/-- Two kinds of words redraw the display. -/
theorem redrawn_execute_decode (w : Word) :
    (m.execute keys chance (Instruction.decode w)).redrawn = true ↔
      w = 0x00E0 ∨ w.family.val = 0xD := by
  rw [redrawn_execute]
  constructor
  · intro redraws
    cases meaning : Instruction.decode w with
    | clear => exact .inl (Instruction.eq_encode_of_decode meaning nofun)
    | draw x y n =>
        right
        rw [Instruction.eq_encode_of_decode meaning nofun]
        simp [Instruction.encode]
    | _ => simp [meaning] at redraws
  · rintro (rfl | family)
    · rfl
    · rw [Instruction.decode, family]
      rfl

/-- An instruction has nothing to report but warnings. -/
theorem level_of_mem_notices_execute :
    ∀ n ∈ (m.execute keys chance op).notices, n.level = .warning := by
  rw [notices_execute]
  intro n member
  split at member
  · rw [List.mem_singleton.1 member]
    rfl
  · cases member

end Execute

end Machine

/-- One family of words draws a random byte. -/
theorem Instruction.drawsByte_decode (w : Word) :
    (decode w).drawsByte = true ↔ w.family.val = 0xC := by
  constructor
  · intro draws
    cases meaning : decode w with
    | random x b =>
        rw [eq_encode_of_decode meaning nofun]
        simp [encode]
    | _ => simp [meaning, drawsByte] at draws
  · intro family
    rw [decode, family]
    rfl

/-- A host that answers like another one and counts what it is asked. -/
structure Tally (σ : Type) where
  host : σ
  /-- How often the clock was read. -/
  reads : Nat
  /-- How many random bytes were drawn. -/
  draws : Nat

instance {σ T : Type} [Host σ T] : Host (Tally σ) T where
  readClock t :=
    ((Host.readClock t.host).1, { t with host := (Host.readClock t.host).2, reads := t.reads + 1 })
  drawByte t :=
    ((Host.drawByte t.host).1, { t with host := (Host.drawByte t.host).2, draws := t.draws + 1 })

namespace Machine

variable {σ T : Type} [Instant T] [Host σ T] {m : Machine T} {input : Input}

/-- A step that is not held up asks for one reading, and for a byte if its word draws one. -/
theorem step_tally (goes : m.isHeld input = false) (t : Tally σ) :
    (m.step t input).machine = (m.step t.host input).machine ∧
      (m.step t input).host =
        ⟨(m.step t.host input).host, t.reads + 1,
          t.draws + if m.fetch.family.val = 0xC then 1 else 0⟩ := by
  have draws := Instruction.drawsByte_decode m.fetch
  rw [step_of_not_isHeld goes, step_of_not_isHeld goes]
  simp only [effect, drawn, drawFor, prepared]
  by_cases family : m.fetch.family.val = 0xC
  · rw [if_pos (draws.2 family), if_pos (draws.2 family), if_pos family]
    exact ⟨rfl, rfl⟩
  · rw [if_neg (fun d => family (draws.1 d)), if_neg (fun d => family (draws.1 d)), if_neg family]
    exact ⟨rfl, rfl⟩

/-- What a step may change. Let a step not be held up, and compare with the machine whose key is
delivered and whose timers have ticked. Each part of the machine stays as it is unless the table
gives it for the word at the program counter; the instant of the latest tick always stays. The
step reports a redrawn display exactly for the words that clear it or draw a sprite. It reads the
clock once, and it draws one random byte exactly for the words of the family twelve, whatever
their mask. It logs one entry for finding faults and after that nothing but warnings. If the
machine is in range, the step succeeds, also on the bare layout. -/
theorem step_keeps_other_parts (goes : m.isHeld input = false) (host : σ) :
    let before := m.prepared host input
    let step := m.step host input
    let tallied := m.step (Tally.mk host 0 0) input
    (∀ part, ¬ m.fetch.MayChange part → step.machine.SameAt before part) ∧
      step.machine.lastTick = before.lastTick ∧
      (step.snapshot.changed = true ↔ m.fetch = 0x00E0 ∨ m.fetch.family.val = 0xD) ∧
      tallied.machine = step.machine ∧
      tallied.host = ⟨step.host, 1, if m.fetch.family.val = 0xC then 1 else 0⟩ ∧
      (∃ first later, step.notices.map Notice.entry = first :: later ∧ first.level = .debug ∧
        ∀ e ∈ later, e.level = .warning) ∧
      (m.InRange →
        m.step? host input = .ok step ∧
        ∀ keys drawn, (m.bare keys drawn).step host input =
          .ok (step.bare input.keys step.snapshot.changed)) := by
  intro before step tallied
  have stepped : step = _ := step_of_not_isHeld goes host
  obtain ⟨same, asked⟩ := step_tally goes (Tally.mk host 0 0)
  refine ⟨?_, ?_, ?_, same, ?_, ?_, ?_⟩
  · intro part kept
    rw [stepped]
    exact sameAt_execute_decode before kept
  · rw [stepped]
    exact lastTick_execute before _ _ _
  · rw [stepped]
    exact redrawn_execute_decode before m.fetch
  · simpa using asked
  · refine ⟨(Notice.executed m.pc m.fetch).entry,
      (m.effect host input).notices.map Notice.entry, ?_, rfl, ?_⟩
    · rw [stepped]
      rfl
    · intro e logged
      obtain ⟨n, member, rfl⟩ := List.mem_map.1 logged
      exact level_of_mem_notices_execute before n member
  · intro range
    exact range.step_succeeds goes host

/-- A machine waits for a key in register 3 and then loads a random byte into it, masked by zero.
The key is delivered and overwritten, the byte is drawn all the same, and the step keeps memory
and the other registers. -/
theorem step_keeps_other_parts_masked :
    let m : Machine Rat := { start [0xC3, 0x00] 0 with wait := some 3 }
    let tape : Tape Rat := ⟨fun _ => 1, fun _ => 0xFF, 0, 0⟩
    let input : Input := { press := some 7 }
    let step := m.step tape input
    let tallied := m.step (Tally.mk tape 0 0) input
    m.isHeld input = false ∧
      (m.prepared tape input).reg 3 = 7 ∧
      step.machine.reg 3 = 0 ∧
      step.machine.reg 4 = (m.prepared tape input).reg 4 ∧
      step.machine.memory = (m.prepared tape input).memory ∧
      step.snapshot.changed = false ∧
      tallied.host.reads = 1 ∧ tallied.host.draws = 1 := by
  intro m tape input step tallied
  have goes : m.isHeld input = false := rfl
  have word : m.fetch = 0xC300 := by decide +kernel
  obtain ⟨kept, -, marked, -, asked, -⟩ := step_keeps_other_parts goes tape
  rw [word] at kept marked asked
  refine ⟨goes, by decide +kernel, by decide +kernel, ?_, ?_, ?_, ?_, ?_⟩
  · exact kept (.register 4) (by decide)
  · exact kept .memory (by decide)
  · rw [Bool.eq_false_iff]
    exact fun changed => absurd (marked.1 changed) (by decide)
  · exact congrArg Tally.reads asked
  · exact congrArg Tally.draws asked

end Machine

end Chip8
