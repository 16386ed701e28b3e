import Chip8.Proofs.Bare.Execute
import Chip8.Proofs.Machine.Run

/-!
# Runs of bare machines

A bare machine that a program was loaded into is the layout of a machine, and stays one:
none of its steps fails.
-/

namespace Chip8

namespace Row

theorem splice_set {row : Row} {a : Nat} (h : a < row.length) (v : Nat) (rest : Row) :
    splice (row.set a v) (a + 1) rest = row.splice a (v :: rest) := by
  have front : (row.set a v).take (a + 1) = row.take a ++ [v] := by
    rw [List.take_succ_eq_append_getElem (by simpa using h), List.take_set_of_le (Nat.le_refl a),
      List.getElem_set_self]
  have back : (row.set a v).drop (a + 1 + rest.length) = row.drop (a + 1 + rest.length) :=
    List.drop_set_of_lt (by omega)
  have shifted : a + (rest.length + 1) = a + 1 + rest.length := by omega
  simp only [splice, front, back, List.length_cons, shifted, List.append_assoc,
    List.cons_append, List.nil_append]

end Row

/-- Bytes that fit before the end of memory are written by splicing them in. -/
theorem Memory.writeAll_bare (m : Memory) (a : Nat) (new : List UInt8)
    (fits : a + new.length ≤ 4096) :
    Row.ofVector UInt8.toNat (m.writeAll a new).bytes =
      (Row.ofVector UInt8.toNat m.bytes).splice a (new.map UInt8.toNat) := by
  induction new generalizing m a with
  | nil => simp [Row.splice]
  | cons b rest ih =>
      rw [List.length_cons] at fits
      have inside : (Memory.place a).val = a := by
        simp only [Memory.place]
        omega
      have written : Row.ofVector UInt8.toNat (m.write a b).bytes =
          (Row.ofVector UInt8.toNat m.bytes).set a b.toNat := by
        simp [Memory.write, Row.ofVector, Vector.toList_set, List.map_set, inside]
      have next := ih (m.write a b) (a + 1) (by omega)
      rw [written, Row.splice_set (by rw [Row.length_ofVector]; omega)] at next
      rw [writeAll_cons, List.map_cons, ← next]
      rfl

namespace Bare

variable {σ T : Type}

/-- A bare machine starts as the layout of a machine. -/
theorem start_eq (program : List UInt8) (now : T) :
    start program now = (Machine.start program now).bare Keyboard.released false := by
  have blank : Row.ofVector UInt8.toNat Memory.blank.bytes = List.replicate 4096 0 :=
    Row.ofVector_replicate UInt8.toNat 0
  have font := Memory.writeAll_bare .blank 0 Memory.font (by decide)
  have short := List.length_take_le Memory.programLimit program
  have code := Memory.writeAll_bare (Memory.blank.writeAll 0 Memory.font)
    Memory.programStart (program.take Memory.programLimit)
    (by simp only [Memory.programLimit, Memory.programStart] at short ⊢; omega)
  rw [blank] at font
  simp only [start, Machine.start, Machine.bare, Memory.load, code, Row.ofVector_replicate,
    Display.bare, Display.blank]
  rw [← font]
  rfl

/-- A key is delivered to a layout. -/
theorem resume_bare (m : Machine T) (keys : Keyboard) (drawn : Bool) (press : Option Int) :
    (m.bare keys drawn).resume press = .ok ((m.resume press).bare keys drawn) := by
  cases hw : m.wait with
  | none => cases press <;> simp [resume, Machine.resume, Machine.bare, hw]
  | some x =>
      cases press with
      | none => simp [resume, Machine.resume, Machine.bare, hw]
      | some key =>
          have waits : (m.bare keys drawn).wait = some x.val := by simp [Machine.bare, hw]
          have value : key % 16 = (UInt8.ofNat (key % 16).toNat).toNat := by
            rw [UInt8.toNat_ofNat']
            omega
          simp only [resume, waits, Machine.resume, hw,
            Machine.setReg_bare m keys drawn x value, ok_bind, pure_eq_ok]
          rfl

variable [Instant T]

/-- The timers of a layout tick. -/
theorem tickTimers_bare (m : Machine T) (keys : Keyboard) (drawn : Bool) (now : T) :
    (m.bare keys drawn).tickTimers now = (m.tickTimers now).bare keys drawn := by
  have last : (m.bare keys drawn).lastTick = m.lastTick := rfl
  rw [tickTimers, Machine.tickTimers, last]
  split <;> rfl

omit [Instant T] in
/-- The word at the program counter of a layout. -/
theorem fetch_bare (m : Machine T) (keys : Keyboard) (drawn : Bool) :
    (m.bare keys drawn).fetch = .ok m.fetch := by
  have count : (m.bare keys drawn).pc = m.pc := rfl
  have word (high low : UInt8) :
      Word.ofInt (high.toNat * 256 + low.toNat) = Word.ofBytes high low := by
    have := high.toNat_lt
    have := low.toNat_lt
    apply UInt16.toNat_inj.1
    rw [Word.toNat_ofInt, Word.toNat_ofBytes]
    omega
  rw [fetch, count, Machine.peek_bare, ok_bind, Machine.peek_bare, ok_bind, word]
  rfl

omit [Instant T] in
/-- A layout warns of a return without a call. -/
theorem warnings_bare (m : Machine T) (keys held : Keyboard) (drawn : Bool) (chance : UInt8)
    (op : Opcode) :
    (m.bare keys drawn).warnings op.numbers = (m.execute held chance op).notices := by
  cases op with
  | ret =>
      have pending : (m.bare keys drawn).stack = m.stack := rfl
      simp only [Instruction.numbers, Instruction.map, warnings, Machine.execute, pending]
      cases m.stack <;> rfl
  | _ => rfl

end Bare

/-- The bare layout of a step, with the keys and the drawing mark of its machine. -/
def Step.bare {σ T : Type} (s : Step σ T) (keys : Keyboard) (drawn : Bool) : BareStep σ T :=
  ⟨s.machine.bare keys drawn, s.host, s.snapshot.changed, s.snapshot.sound, s.snapshot.waiting,
    s.notices⟩

namespace Bare

variable {σ T : Type} [Instant T] [Host σ T]

/-- A step that is held up leaves all of a layout alone, also the keys and the drawing mark. -/
theorem step_bare_of_isHeld {m : Machine T} {input : Input} (h : m.isHeld input = true)
    (keys : Keyboard) (drawn : Bool) (host : σ) :
    (m.bare keys drawn).step host input = .ok ((m.step host input).bare keys drawn) := by
  obtain ⟨waits, unpressed⟩ : m.wait.isSome = true ∧ input.press = none := by
    simpa [Machine.isHeld] using h
  have waiting : (m.bare keys drawn).wait.isSome = true := by simp [Machine.bare, waits]
  rw [step, unpressed, resume_bare, Machine.resume_none, ok_bind, if_pos waiting,
    Machine.step_of_isHeld h]
  rfl

/-- Any other step succeeds if the delay timer holds a byte. -/
theorem step_bare_of_not_isHeld {m : Machine T} {input : Input} (h : m.isHeld input = false)
    (byte : 0 ≤ m.delay ∧ m.delay < 256) (keys : Keyboard) (drawn : Bool) (host : σ) :
    (m.bare keys drawn).step host input =
      .ok ((m.step host input).bare input.keys (m.step host input).snapshot.changed) := by
  have goes : ¬ ((m.resume input.press).bare keys drawn).wait.isSome = true := by
    rw [← Machine.isSome_wait_resume] at h
    simp [Machine.bare, h]
  have prepared : { ((m.resume input.press).bare keys drawn).tickTimers
        (Host.readClock host).1 with keys := input.keys, drawn := false } =
      (m.prepared host input).bare input.keys false := by
    rw [tickTimers_bare]
    rfl
  have address : (((m.resume input.press).bare keys drawn).tickTimers
      (Host.readClock host).1).pc = m.pc := by
    rw [tickTimers_bare]
    exact Machine.pc_prepared m host input
  have timer : 0 ≤ (m.prepared host input).delay ∧ (m.prepared host input).delay < 256 :=
    Machine.delay_tickTimers_byte _ _ (by simpa using byte)
  have executed := Machine.execute_bare (m.prepared host input) input.keys (m.drawn host).1
    (Instruction.decode m.fetch) timer
  cases run : ((m.prepared host input).bare input.keys false).execute (m.drawn host).1.toNat
      (Instruction.decode m.fetch).numbers with
  | error fault => simp [run, Except.map] at executed
  | ok done =>
      have reached : done.advance = (m.effect host input).machine.bare input.keys
          (m.effect host input).redrawn := by
        rw [run] at executed
        exact Except.ok.inj executed
      have mark : done.drawn = done.advance.drawn := rfl
      have tone : done.sound = done.advance.sound := rfl
      rw [step, resume_bare, ok_bind, if_neg goes, proceed, Machine.step_of_not_isHeld h]
      simp only [prepared, fetch_bare, Machine.fetch_prepared, ok_bind, pure_eq_ok]
      change (((m.prepared host input).bare input.keys false).execute (m.drawn host).1.toNat
        (Instruction.decode m.fetch).numbers >>= _) = _
      rw [run, ok_bind, mark, tone, reached, address,
        warnings_bare _ _ input.keys _ (m.drawn host).1]
      rfl

end Bare

end Chip8
