import Chip8.Proofs.Machine.Stores

/-!
# The last writer of a byte

Which bytes an instruction writes and where is said here byte by byte, without reference to
how a store is carried out. Over a run, a place of memory holds the byte of the last step that
wrote there. If none did, it still holds what it held when the program was loaded.
-/

namespace Chip8

namespace Memory

/-- A loaded memory from its first byte on: the glyphs, zeros up to the program's start, and
as much of the program as fits. Behind it there are zeros. -/
def image (program : List UInt8) : List UInt8 :=
  font ++ List.replicate (programStart - font.length) 0 ++ program.take programLimit

theorem read_load_image (program : List UInt8) {a : Nat} (inside : a < 4096) :
    (load program).read a = (image program).getD a 0 := by
  have start : programStart = 512 := rfl
  have glyphs : font.length = 80 := rfl
  have front : (font ++ List.replicate (programStart - font.length) 0).length = 512 := by
    rw [List.length_append, List.length_replicate, glyphs, start]
  have short : (program.take programLimit).length ≤ 3584 := List.length_take_le _ _
  have place : ((a : Int) % 4096).toNat = a := by omega
  rw [read_load, place, image, List.getD_eq_getElem?_getD]
  by_cases low : a < 512
  · -- below the program, whose window does not come round to this place
    have beyond : (program.take programLimit).length ≤
        ((a - programStart : Int) % 4096).toNat := by omega
    rw [List.getElem?_eq_none beyond, List.getElem?_append_left (by omega)]
    by_cases glyph : a < 80
    · rw [List.getElem?_append_left (by omega)]
      rfl
    · rw [List.getElem?_append_right (by omega), List.getElem?_eq_none (by omega),
        List.getElem?_replicate, if_pos (by omega)]
      rfl
  · have offset : ((a - programStart : Int) % 4096).toNat = a - 512 := by omega
    rw [offset, List.getElem?_append_right (by omega), front,
      List.getElem?_eq_none (l := font) (by omega)]
    rfl

end Memory

/-- A store reaches the places that follow its address, one for each of its bytes. -/
theorem Store.byteAt?_eq_some_iff {s : Store} (short : s.bytes.length ≤ 4096) {a : Int}
    (inside : 0 ≤ a ∧ a < 4096) {b : UInt8} :
    s.byteAt? a = some b ↔ ∃ n : Nat, a = (s.address + n) % 4096 ∧ s.bytes[n]? = some b := by
  rw [byteAt?]
  constructor
  · intro found
    exact ⟨_, by omega, found⟩
  · rintro ⟨n, rfl, found⟩
    obtain ⟨reached, -⟩ := List.getElem?_eq_some_iff.1 found
    have offset : (((s.address + n) % 4096 - s.address) % 4096).toNat = n := by omega
    rwa [offset]

namespace Machine

variable {σ T : Type}

/-- Which bytes an instruction writes, and where. -/
inductive Writes (m : Machine T) : Opcode → Int → UInt8 → Prop where
  | hundreds (x : Fin 16) : m.Writes (.storeDigits x) (m.index % 4096) (m.reg x / 100)
  | tens (x : Fin 16) : m.Writes (.storeDigits x) ((m.index + 1) % 4096) (m.reg x / 10 % 10)
  | units (x : Fin 16) : m.Writes (.storeDigits x) ((m.index + 2) % 4096) (m.reg x % 10)
  | register {x n : Fin 16} (upTo : n ≤ x) :
      m.Writes (.store x) ((m.index + n.val) % 4096) (m.reg n)

/-- The digits of a register are written one behind the other. -/
theorem writes_storeDigits_iff {m : Machine T} {x : Fin 16} {a : Int} {b : UInt8} :
    m.Writes (.storeDigits x) a b ↔
      ∃ n : Nat, a = (m.index + n) % 4096 ∧ (decimalDigits (m.reg x))[n]? = some b := by
  constructor
  · intro h
    cases h with
    | hundreds => exact ⟨0, by simp, rfl⟩
    | tens => exact ⟨1, rfl, rfl⟩
    | units => exact ⟨2, rfl, rfl⟩
  · rintro ⟨n, rfl, found⟩
    match n, found with
    | 0, found =>
        obtain rfl := Option.some.inj found
        simpa using Writes.hundreds x
    | 1, found =>
        obtain rfl := Option.some.inj found
        exact .tens x
    | 2, found =>
        obtain rfl := Option.some.inj found
        exact .units x

/-- The registers up to one are written one behind the other. -/
theorem writes_store_iff {m : Machine T} {x : Fin 16} {a : Int} {b : UInt8} :
    m.Writes (.store x) a b ↔
      ∃ n : Nat, a = (m.index + n) % 4096 ∧ (m.registersTo x)[n]? = some b := by
  constructor
  · intro h
    cases h with
    | @register x n upTo => exact ⟨n, rfl, m.getElem?_registersTo upTo⟩
  · rintro ⟨n, rfl, found⟩
    have upTo : n < x.val + 1 := by
      obtain ⟨reached, -⟩ := List.getElem?_eq_some_iff.1 found
      rwa [length_registersTo] at reached
    rw [m.getElem?_registersTo (n := ⟨n, by omega⟩) (Nat.le_of_lt_succ upTo)] at found
    obtain rfl := Option.some.inj found
    exact .register (n := ⟨n, by omega⟩) (Nat.le_of_lt_succ upTo)

/-- The bytes that an instruction writes are those of its store. -/
theorem writes_iff {m : Machine T} {op : Opcode} {a : Int} (inside : 0 ≤ a ∧ a < 4096)
    {b : UInt8} :
    m.Writes op a b ↔ (m.stored? op).bind (fun s => s.byteAt? a) = some b := by
  cases op with
  | storeDigits x =>
      exact writes_storeDigits_iff.trans
        (Store.byteAt?_eq_some_iff (s := ⟨m.index, _⟩) (by simp) inside).symm
  | store x =>
      have short : (m.registersTo x).length ≤ 4096 := by
        rw [length_registersTo]
        omega
      exact writes_store_iff.trans
        (Store.byteAt?_eq_some_iff (s := ⟨m.index, _⟩) short inside).symm
  | _ =>
      constructor
      · intro h
        cases h
      · intro h
        cases h

variable [Instant T] [Host σ T]

/-- A step writes a byte at a place: the instruction that it executes does, on the machine as it
is at that moment. -/
def StepWrites (m : Machine T) (host : σ) (input : Input) (a : Int) (b : UInt8) : Prop :=
  ∃ op, m.executed? input = some op ∧ (m.prepared host input).Writes op a b

/-- Step number `k` of a run writes a byte at a place. -/
def WritesAt (m : Machine T) (host : σ) (inputs : List Input) (k : Nat) (a : Int) (b : UInt8) :
    Prop :=
  ∃ input, inputs[k]? = some input ∧
    (m.during host inputs k).1.StepWrites (m.during host inputs k).2 input a b

/-- Step number `k` of a run writes a byte at a place, and no later one of the first `n` steps
writes there. -/
structure LastWriter (m : Machine T) (host : σ) (inputs : List Input) (n k : Nat) (a : Int)
    (b : UInt8) : Prop where
  writes : m.WritesAt host inputs k a b
  among : k < n
  last : ∀ later < n, k < later → ∀ c, ¬ m.WritesAt host inputs later a c

section Step

variable {m : Machine T} {host : σ} {input : Input} {a : Int} (inside : 0 ≤ a ∧ a < 4096)
include inside

theorem stepWrites_iff {b : UInt8} :
    m.StepWrites host input a b ↔
      (m.store? host input).bind (fun s => s.byteAt? a) = some b := by
  rw [StepWrites, store?]
  cases m.executed? input with
  | none => simp
  | some op => simp [writes_iff inside]

/-- A step writes one byte at most at each place. -/
theorem StepWrites.unique {b c : UInt8} (hb : m.StepWrites host input a b)
    (hc : m.StepWrites host input a c) : b = c := by
  rw [stepWrites_iff inside] at hb hc
  exact Option.some.inj (hb.symm.trans hc)

/-- After a step a place holds the byte that the step wrote there. -/
theorem StepWrites.read {b : UInt8} (h : m.StepWrites host input a b) :
    (m.step host input).machine.memory.read a = b := by
  rw [read_memory_step, (stepWrites_iff inside).1 h]
  rfl

/-- A place where a step writes nothing holds what it held. -/
theorem read_memory_step_of_unwritten (h : ∀ b, ¬ m.StepWrites host input a b) :
    (m.step host input).machine.memory.read a = m.memory.read a := by
  have nothing : (m.store? host input).bind (fun s => s.byteAt? a) = none := by
    rw [Option.eq_none_iff_forall_ne_some]
    intro b found
    exact h b ((stepWrites_iff inside).2 found)
  rw [read_memory_step, nothing]
  rfl

end Step

/-- The law of the last writer for the first `n` steps of a run. -/
theorem read_memory_during (m : Machine T) (host : σ) (inputs : List Input) {a : Int}
    (inside : 0 ≤ a ∧ a < 4096) {n : Nat} (bound : n ≤ inputs.length) :
    (∃ k b, m.LastWriter host inputs n k a b ∧ (m.during host inputs n).1.memory.read a = b) ∨
      (∀ k < n, ∀ b, ¬ m.WritesAt host inputs k a b) ∧
        (m.during host inputs n).1.memory.read a = m.memory.read a := by
  induction n with
  | zero => exact .inr ⟨by simp, rfl⟩
  | succ n ih =>
      have here (b : UInt8) : m.WritesAt host inputs n a b ↔
          (m.during host inputs n).1.StepWrites (m.during host inputs n).2 inputs[n] a b := by
        simp [WritesAt, List.getElem?_eq_getElem (show n < inputs.length from bound)]
      rw [during_succ m host bound]
      by_cases written : ∃ b, m.WritesAt host inputs n a b
      · obtain ⟨b, written⟩ := written
        refine .inl ⟨n, b, ⟨written, Nat.lt_succ_self n, ?_⟩, ((here b).1 written).read inside⟩
        intro later among after
        omega
      · -- nothing is written here, so the law holds as it did before this step
        have unwritten : ∀ b, ¬ m.WritesAt host inputs n a b := not_exists.1 written
        have kept := read_memory_step_of_unwritten inside fun b h => unwritten b ((here b).2 h)
        obtain ⟨k, b, writer, held⟩ | ⟨never, held⟩ := ih (by omega)
        · refine .inl ⟨k, b, ⟨writer.writes, Nat.lt_succ_of_lt writer.among, ?_⟩, kept.trans held⟩
          intro later among after
          obtain sooner | rfl := Nat.lt_succ_iff_lt_or_eq.1 among
          · exact writer.last later sooner after
          · exact unwritten
        · refine .inr ⟨?_, kept.trans held⟩
          intro k among
          obtain sooner | rfl := Nat.lt_succ_iff_lt_or_eq.1 among
          · exact never k sooner
          · exact unwritten

/-- The law of the last writer. After any run of a program, a place of memory holds the byte that
the last of the steps that wrote there wrote; if none did, it holds the byte that was placed there
when the program was loaded, a glyph's, the program's or zero. What a step writes, and where, is
told by `Writes` for the machine at that moment, and it is one byte at most for each place. -/
theorem memory_of_last_writer (program : List UInt8) (host : σ) (inputs : List Input)
    (a : Fin 4096) :
    let booted := boot program host
    let held := (booted.1.after booted.2 inputs).1.memory.read a
    (∀ k b c, booted.1.WritesAt booted.2 inputs k a b → booted.1.WritesAt booted.2 inputs k a c →
      b = c) ∧
      ((∃ k b, booted.1.LastWriter booted.2 inputs inputs.length k a b ∧ held = b) ∨
        (∀ k b, ¬ booted.1.WritesAt booted.2 inputs k a b) ∧
          held = (Memory.image program).getD a 0) := by
  intro booted held
  have inside : 0 ≤ (a : Int) ∧ (a : Int) < 4096 := by omega
  have loaded : booted.1.memory.read a = (Memory.image program).getD a 0 :=
    Memory.read_load_image program a.isLt
  constructor
  · rintro k b c ⟨input, given, hb⟩ ⟨input', given', hc⟩
    obtain rfl := Option.some.inj (given.symm.trans given')
    exact hb.unique inside hc
  · have law := booted.1.read_memory_during booted.2 inputs inside (Nat.le_refl inputs.length)
    rw [during_length, loaded] at law
    obtain writer | ⟨never, kept⟩ := law
    · exact .inl writer
    · refine .inr ⟨?_, kept⟩
      rintro k b ⟨input, given, h⟩
      obtain ⟨among, -⟩ := List.getElem?_eq_some_iff.1 given
      exact never k among b ⟨input, given, h⟩

end Machine

end Chip8
