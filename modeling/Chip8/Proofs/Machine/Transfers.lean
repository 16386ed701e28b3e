import Chip8.Proofs.Bare.Execute
import Chip8.Proofs.Machine.Footprint

/-!
# Transfers between registers and memory

Three instructions carry bytes between the registers and the bytes that the index register points
at: the registers up to one are stored there or loaded from there, or the digits of one register
are stored. At most sixteen bytes are carried, so also a window that wraps at the end of memory
does not come round to its own start, and what one transfer carries, the opposite one carries
back.
-/

namespace Chip8

namespace Memory

/-- An address in the window of a write holds the byte that was written there. -/
theorem read_writeAll_inside (m : Memory) (a : Int) {bytes : List UInt8}
    (short : bytes.length ≤ 4096) {n : Nat} (inside : n < bytes.length) :
    (m.writeAll a bytes).read (a + n) = bytes[n] := by
  have offset : ((a + n - a) % 4096).toNat = n := by omega
  rw [read_writeAll _ _ _ short, offset, List.getElem?_eq_getElem inside]
  rfl

/-- An address outside the window of a write holds what it held. -/
theorem read_writeAll_outside (m : Memory) {a c : Int} {bytes : List UInt8}
    (short : bytes.length ≤ 4096) (outside : ∀ n < bytes.length, c % 4096 ≠ (a + n) % 4096) :
    (m.writeAll a bytes).read c = m.read c := by
  have beyond : bytes.length ≤ ((c - a) % 4096).toNat :=
    Nat.le_of_not_lt fun within => outside _ within (by omega)
  rw [read_writeAll _ _ _ short, List.getElem?_eq_none beyond]
  rfl

/-- Writing back what was read changes nothing. -/
theorem writeAll_readAll (m : Memory) (a : Int) {n : Nat} (short : n ≤ 4096) :
    m.writeAll a (m.readAll a n) = m := by
  have fits : (m.readAll a n).length ≤ 4096 := by rwa [length_readAll]
  apply ext_read
  intro c
  by_cases inside : ∃ k < n, c % 4096 = (a + k) % 4096
  · obtain ⟨k, near, same⟩ := inside
    have reached : k < (m.readAll a n).length := by rwa [length_readAll]
    rw [← read_mod _ c, same, read_mod, read_writeAll_inside _ _ fits reached, getElem_readAll,
      ← read_mod m c, same, read_mod]
  · apply read_writeAll_outside _ fits
    intro k near same
    rw [length_readAll] at near
    exact inside ⟨k, near, same⟩

end Memory

/-- An instruction that carries bytes between the registers and memory. -/
inductive Transfer where
  /-- The registers up to one are stored. -/
  | store (x : Fin 16)
  /-- The registers up to one are loaded. -/
  | load (x : Fin 16)
  /-- The digits of one register are stored. -/
  | digits (x : Fin 16)
deriving DecidableEq

/-- The instruction of a transfer. -/
def Transfer.instruction : Transfer → Opcode
  | .store x => .store x
  | .load x => .load x
  | .digits x => .storeDigits x

namespace Machine

variable {T : Type}

/-- The machine with a transfer carried out, before the program counter moves on. -/
def transfer (m : Machine T) : Transfer → Machine T
  | .store x => { m with memory := m.memory.writeAll m.index (m.registersTo x) }
  | .load x => m.loadRegisters 0 (m.memory.readAll m.index (x.val + 1))
  | .digits x => { m with memory := m.memory.writeAll m.index (decimalDigits (m.reg x)) }

/-- Whether the index registers point at the same place and a number of bytes there are the
same. -/
structure SameWindow (k m : Machine T) (count : Nat) : Prop where
  index : k.index = m.index
  bytes : ∀ n < count, k.memory.read (m.index + n) = m.memory.read (m.index + n)

variable (m : Machine T)

/-- An instruction that carries bytes does nothing else and moves on. -/
theorem execute_transfer (t : Transfer) (keys : Keyboard) (chance : UInt8) :
    m.execute keys chance t.instruction = .quiet (m.transfer t).advance := by
  cases t <;> rfl

/-- Transfers succeed on the layout of a machine. -/
theorem transfer_bare (t : Transfer) (keys : Keyboard) (drawn : Bool) (chance : Nat) :
    (m.bare keys drawn).execute chance t.instruction.numbers =
      .ok ((m.transfer t).bare keys drawn) := by
  cases t with
  | store x => exact foldlM_storeOne_bare m keys drawn (by omega)
  | load x => exact foldlM_loadOne_bare m keys drawn (by omega)
  | digits x =>
      change ((m.bare keys drawn).reg x.val >>= _) = _
      rw [reg_bare, ok_bind]
      exact storeDigits_bare m keys drawn (m.reg x)

@[simp] theorem index_transfer (t : Transfer) : (m.transfer t).index = m.index := by
  cases t with
  | load x => exact index_loadRegisters m 0 _
  | _ => rfl

@[simp] theorem memory_transfer_load (x : Fin 16) :
    (m.transfer (.load x)).memory = m.memory :=
  memory_loadRegisters m 0 _

@[simp] theorem reg_transfer_store (x n : Fin 16) : (m.transfer (.store x)).reg n = m.reg n := rfl

/-- After a load the registers up to one hold the bytes of the window. -/
theorem reg_transfer_load (x n : Fin 16) :
    (m.transfer (.load x)).reg n = if n ≤ x then m.memory.read (m.index + n.val) else m.reg n :=
  m.reg_loadRegisters_readAll x n

/-- After a store the window holds the registers up to one. -/
theorem read_transfer_store {x n : Fin 16} (upTo : n ≤ x) :
    (m.transfer (.store x)).memory.read (m.index + n.val) = m.reg n := by
  have inside : n.val < (m.registersTo x).length := by
    rw [length_registersTo]
    exact Nat.lt_succ_of_le upTo
  have held := m.getElem?_registersTo upTo
  rw [List.getElem?_eq_getElem inside] at held
  exact (m.memory.read_writeAll_inside m.index (by rw [length_registersTo]; omega) inside).trans
    (Option.some.inj held)

/-- A store leaves what is outside the window. -/
theorem read_transfer_store_outside {x : Fin 16} {a : Int}
    (outside : ∀ n ≤ x, a % 4096 ≠ (m.index + n.val) % 4096) :
    (m.transfer (.store x)).memory.read a = m.memory.read a := by
  apply m.memory.read_writeAll_outside
  · rw [length_registersTo]
    omega
  · intro n reached
    rw [length_registersTo] at reached
    exact outside ⟨n, by omega⟩ (Nat.le_of_lt_succ reached)

/-- After the digits of a register were stored, they stand in the window. -/
theorem read_transfer_digits (x : Fin 16) {n : Nat} (inside : n < 3) :
    (m.transfer (.digits x)).memory.read (m.index + n) = (decimalDigits (m.reg x))[n] :=
  m.memory.read_writeAll_inside m.index (by simp [decimalDigits]) inside

/-- What a load brings back is what stood in the window. -/
theorem SameWindow.reg_transfer_load {k m : Machine T} {count : Nat} (same : k.SameWindow m count)
    {x n : Fin 16} (upTo : n ≤ x) (inside : n.val < count) :
    (k.transfer (.load x)).reg n = m.memory.read (m.index + n.val) := by
  rw [Machine.reg_transfer_load, if_pos upTo, same.index, same.bytes n.val inside]

/-- The three digits of a byte are its decimal notation. -/
theorem decimalDigits_value (b : UInt8) :
    (b / 100).toNat ≤ 9 ∧ (b / 10 % 10).toNat ≤ 9 ∧ (b % 10).toNat ≤ 9 ∧
      100 * (b / 100).toNat + 10 * (b / 10 % 10).toNat + (b % 10).toNat = b.toNat := by
  have small := b.toNat_lt
  simp only [UInt8.toNat_div, UInt8.toNat_mod, UInt8.reduceToNat]
  omega

/-- Loading right after storing gives each register back. -/
theorem registers_load_store (x : Fin 16) :
    ((m.transfer (.store x)).transfer (.load x)).registers = m.registers := by
  apply Vector.ext
  intro n small
  change ((m.transfer (.store x)).transfer (.load x)).reg ⟨n, small⟩ = m.reg ⟨n, small⟩
  rw [reg_transfer_load, reg_transfer_store]
  split
  · next upTo => exact m.read_transfer_store upTo
  · rfl

/-- The registers up to one, once loaded, are the window. -/
theorem registersTo_transfer_load (x : Fin 16) :
    (m.transfer (.load x)).registersTo x = m.memory.readAll m.index (x.val + 1) := by
  apply List.ext_getElem (by simp)
  intro n reached inside
  rw [length_registersTo] at reached
  have upTo : (⟨n, by omega⟩ : Fin 16) ≤ x := Nat.le_of_lt_succ reached
  have held := (m.transfer (.load x)).getElem?_registersTo upTo
  rw [List.getElem?_eq_getElem (by simpa using reached), reg_transfer_load, if_pos upTo] at held
  rw [Memory.getElem_readAll]
  exact Option.some.inj held

/-- Storing right after loading gives memory back. -/
theorem memory_store_load (x : Fin 16) :
    ((m.transfer (.load x)).transfer (.store x)).memory = m.memory := by
  calc (m.transfer (.load x)).memory.writeAll (m.transfer (.load x)).index
        ((m.transfer (.load x)).registersTo x)
    _ = m.memory.writeAll m.index (m.memory.readAll m.index (x.val + 1)) := by
        rw [registersTo_transfer_load, memory_transfer_load, index_transfer]
    _ = m.memory := m.memory.writeAll_readAll m.index (by omega)

/-- Transfers between registers and memory undo each other. Whatever a machine is and wherever its
index register points, also if the window wraps at the end of memory, each transfer succeeds, on
the bare layout too, and keeps the index register. A store that is followed by a load leaves the
registers as they were, and the load still gives the stored registers back on any other machine
that points at the same window. A load that is followed by a store leaves memory as it was.
Neither touches a register above the last one it carries or a byte outside the window. And after
the digits of a register were stored, a load of three registers or more puts its decimal notation
into the first three. -/
theorem transfers_undo (m : Machine T) :
    (∀ t keys chance, m.execute keys chance (Transfer.instruction t) =
      .quiet (m.transfer t).advance) ∧
    (∀ t keys drawn chance, (m.bare keys drawn).execute chance (Transfer.instruction t).numbers =
      .ok ((m.transfer t).bare keys drawn)) ∧
    (∀ x,
      let stored := m.transfer (.store x)
      (stored.transfer (.load x)).registers = m.registers ∧
      (stored.transfer (.load x)).index = m.index ∧
      ∀ k : Machine T, k.SameWindow stored (x.val + 1) →
        (k.transfer (.load x)).index = m.index ∧
        ∀ n ≤ x, (k.transfer (.load x)).reg n = m.reg n) ∧
    (∀ x,
      let back := (m.transfer (.load x)).transfer (.store x)
      back.memory = m.memory ∧ back.index = m.index) ∧
    (∀ x n, x < n →
      (m.transfer (.store x)).reg n = m.reg n ∧ (m.transfer (.load x)).reg n = m.reg n) ∧
    (∀ x a, (∀ n ≤ x, a % 4096 ≠ (m.index + n.val) % 4096) →
      (m.transfer (.store x)).memory.read a = m.memory.read a ∧
      (m.transfer (.load x)).memory.read a = m.memory.read a) ∧
    ∀ x y, 2 ≤ y → ∀ k : Machine T, k.SameWindow (m.transfer (.digits x)) 3 →
      let digit (n : Fin 16) := ((k.transfer (.load y)).reg n).toNat
      digit 0 ≤ 9 ∧ digit 1 ≤ 9 ∧ digit 2 ≤ 9 ∧
        100 * digit 0 + 10 * digit 1 + digit 2 = (m.reg x).toNat := by
  refine ⟨m.execute_transfer, m.transfer_bare, ?_, ?_, ?_, ?_, ?_⟩
  · intro x stored
    refine ⟨m.registers_load_store x, by simp [stored], ?_⟩
    intro k same
    refine ⟨by simpa [stored] using same.index, ?_⟩
    intro n upTo
    rw [same.reg_transfer_load upTo (Nat.lt_succ_of_le upTo), index_transfer]
    exact m.read_transfer_store upTo
  · intro x back
    exact ⟨m.memory_store_load x, by simp [back]⟩
  · intro x n above
    exact ⟨rfl, by rw [reg_transfer_load, if_neg (by omega)]⟩
  · intro x a outside
    exact ⟨m.read_transfer_store_outside outside, by rw [memory_transfer_load]⟩
  · intro x y three k same digit
    -- the three digits stand in the window and are loaded from there
    have carried (n : Fin 16) (low : n.val < 3) :
        digit n = ((decimalDigits (m.reg x))[n.val]).toNat := by
      have upTo : n ≤ y := by omega
      rw [← m.read_transfer_digits x low, ← m.index_transfer (.digits x)]
      exact congrArg UInt8.toNat (same.reg_transfer_load upTo low)
    rw [carried 0 (by decide), carried 1 (by decide), carried 2 (by decide)]
    exact decimalDigits_value (m.reg x)

/-- Sixteen registers that are stored from the last place of memory on come back after they were
cleared, and the digits of the last one after it was stored there. -/
theorem transfers_undo_wrapped :
    let m : Machine Unit :=
      { start [] () with index := 0xFFFF, registers := .ofFn fun n => .ofNat (17 * n.val) }
    let cleared : Machine Unit :=
      { m.transfer (.store 15) with registers := .replicate 16 0 }
    cleared.SameWindow (m.transfer (.store 15)) 16 ∧
      (∀ n, (cleared.transfer (.load 15)).reg n = m.reg n) ∧
      let digit (n : Fin 16) := (((m.transfer (.digits 15)).transfer (.load 2)).reg n).toNat
      100 * digit 0 + 10 * digit 1 + digit 2 = 255 := by
  intro m cleared
  have same : cleared.SameWindow (m.transfer (.store 15)) 16 := ⟨rfl, fun _ _ => rfl⟩
  obtain ⟨-, -, storeLoad, -, -, -, digits⟩ := transfers_undo m
  refine ⟨same, ?_, ?_⟩
  · intro n
    exact ((storeLoad 15).2.2 cleared same).2 n (by omega)
  · exact (digits 15 2 (by decide) _ ⟨rfl, fun _ _ => rfl⟩).2.2.2

end Machine

end Chip8
