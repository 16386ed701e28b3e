import Chip8.Proofs.Bare.Rows
import Chip8.Proofs.Machine.Footprint

/-!
# Machines laid out bare

Every machine has a bare layout. On layouts the accesses of a bare machine succeed and are
the operations of the machine, including the loops that move several bytes.
-/

namespace Chip8

namespace Memory

theorem val_place (a : Int) : a % 4096 = ((place a).val : Int) := by
  simp only [place]
  omega

theorem writeAll_append (m : Memory) (a : Int) (first : List UInt8) (b : UInt8) :
    m.writeAll a (first ++ [b]) = (m.writeAll a first).write (a + first.length) b := by
  induction first generalizing m a with
  | nil => simp [writeAll_cons]
  | cons c rest ih =>
      rw [List.cons_append, writeAll_cons, ih, writeAll_cons]
      congr 1
      simp only [List.length_cons]
      omega

theorem readAll_succ (m : Memory) (a : Int) (n : Nat) :
    m.readAll a (n + 1) = m.readAll a n ++ [m.read (a + n)] := by
  simp [readAll, List.range_succ]

end Memory

namespace Display

/-- The cells as a row of ones and zeros. -/
def bare (d : Display) : Row :=
  Row.ofVector Bool.toNat d.cells

end Display

namespace Machine

variable {T : Type}

/-- The bare layout of a machine, with the keys of the latest instruction and whether that
instruction drew. -/
def bare (m : Machine T) (keys : Keyboard) (drawn : Bool) : Bare T where
  registers := Row.ofVector UInt8.toNat m.registers
  index := m.index
  pc := m.pc
  delay := m.delay
  sound := m.sound
  stack := m.stack
  memory := Row.ofVector UInt8.toNat m.memory.bytes
  display := m.display.bare
  wait := m.wait.map Fin.val
  lastTick := m.lastTick
  keys := keys
  drawn := drawn

variable (m : Machine T) (keys : Keyboard) (drawn : Bool)

@[simp] theorem reg_bare (x : Fin 16) : (m.bare keys drawn).reg x.val = .ok (m.reg x).toNat :=
  Row.get_ofVector UInt8.toNat m.registers x.isLt

/-- A byte can be put into every register. -/
theorem setReg_bare (x : Fin 16) {z : Int} {v : UInt8} (hz : z = v.toNat) :
    (m.bare keys drawn).setReg x.val z = .ok ((m.setReg x v).bare keys drawn) := by
  have set : m.registers.set x v = m.registers.setIfInBounds x v := by
    apply Vector.ext
    intro i hi
    rw [Vector.getElem_set, Vector.getElem_setIfInBounds]
  simp only [Bare.setReg, bare,
    Row.put_ofVector UInt8.toNat m.registers x.isLt hz v.toNat_lt, ok_bind, pure_eq_ok, set]
  rfl

@[simp] theorem peek_bare (a : Int) :
    (m.bare keys drawn).peek a = .ok (m.memory.read a).toNat := by
  rw [Bare.peek, Memory.val_place]
  exact Row.get_ofVector UInt8.toNat m.memory.bytes (Memory.place a).isLt

/-- A byte can be put at every address. -/
theorem poke_bare (a : Int) {z : Int} {v : UInt8} (hz : z = v.toNat) :
    (m.bare keys drawn).poke a z =
      .ok (Machine.bare { m with memory := m.memory.write a v } keys drawn) := by
  simp only [Bare.poke, bare, Memory.val_place,
    Row.put_ofVector UInt8.toNat m.memory.bytes (Memory.place a).isLt hz v.toNat_lt, ok_bind,
    pure_eq_ok]
  rfl

/-- The flag and the result of an operation can be put into the registers. -/
theorem setFlagged_bare (x : Fin 16) {flag result : Int} {r : Flagged}
    (hf : flag = r.flagByte.toNat) (hr : result = r.result.toNat) :
    (m.bare keys drawn).setFlagged x.val flag result =
      .ok ((m.setFlagged x r).bare keys drawn) := by
  have first := setReg_bare m keys drawn 15 hf
  rw [Bare.setFlagged, show (15 : Nat) = (15 : Fin 16).val from rfl, first, ok_bind,
    setReg_bare _ keys drawn x hr]
  rfl

/-- Skipping and then moving on is moving on by two words. -/
theorem skipIf_bare (c : Bool) :
    ((m.bare keys drawn).skipIf c).advance = (m.skipIf c).bare keys drawn := by
  cases c with
  | false => simp [Bare.skipIf, Bare.advance, bare, skipIf]
  | true =>
      simp only [Bare.skipIf, Bare.advance, bare, skipIf, if_true]
      congr 1
      omega

theorem loadRegisters_append (x : Nat) (first : List UInt8) (b : UInt8)
    (h : x + first.length < 16) :
    m.loadRegisters x (first ++ [b]) =
      (m.loadRegisters x first).setReg ⟨x + first.length, h⟩ b := by
  induction first generalizing m x with
  | nil =>
      have inside : x < 16 := h
      simp [loadRegisters, inside]
  | cons c rest ih =>
      have inside : x < 16 := by omega
      have shifted : x + 1 + rest.length = x + (c :: rest).length := by
        rw [List.length_cons]
        omega
      simp only [List.cons_append, loadRegisters, dif_pos inside]
      rw [ih _ _ (by omega)]
      congr 1
      exact Fin.ext shifted

/-- The loop over the stored registers writes them one behind the other. -/
theorem foldlM_storeOne_bare {n : Nat} (h : n ≤ 16) :
    (List.range n).foldlM Bare.storeOne (m.bare keys drawn) =
      .ok (Machine.bare
        { m with memory := m.memory.writeAll m.index (m.registers.toList.take n) } keys drawn) := by
  induction n with
  | zero => rfl
  | succ n ih =>
      have inside : n < 16 := by omega
      have more : m.registers.toList.take (n + 1) =
          m.registers.toList.take n ++ [m.reg ⟨n, inside⟩] := by
        rw [List.take_succ_eq_append_getElem (by simpa using inside)]
        rfl
      have count : (m.registers.toList.take n).length = n := by
        rw [List.length_take, Vector.length_toList]
        omega
      rw [List.range_succ, List.foldlM_append, ih (by omega), ok_bind, List.foldlM_cons]
      have value := reg_bare
        { m with memory := m.memory.writeAll m.index (m.registers.toList.take n) } keys drawn
        ⟨n, inside⟩
      rw [Bare.storeOne, value, ok_bind, poke_bare _ _ _ _ rfl, more,
        Memory.writeAll_append, count]
      rfl

/-- The loop over the loaded registers reads them one behind the other. -/
theorem foldlM_loadOne_bare {n : Nat} (h : n ≤ 16) :
    (List.range n).foldlM Bare.loadOne (m.bare keys drawn) =
      .ok ((m.loadRegisters 0 (m.memory.readAll m.index n)).bare keys drawn) := by
  induction n with
  | zero => rfl
  | succ n ih =>
      have inside : 0 + (m.memory.readAll m.index n).length < 16 := by
        rw [Memory.length_readAll]
        omega
      have next : (⟨0 + (m.memory.readAll m.index n).length, inside⟩ : Fin 16) =
          ⟨n, by omega⟩ := by
        simp
      rw [List.range_succ, List.foldlM_append, ih (by omega), ok_bind, List.foldlM_cons,
        Memory.readAll_succ, loadRegisters_append _ _ _ _ inside, next]
      have address : ((m.loadRegisters 0 (m.memory.readAll m.index n)).bare keys drawn).index =
          m.index := index_loadRegisters m 0 _
      have set := setReg_bare (m.loadRegisters 0 (m.memory.readAll m.index n)) keys drawn
        ⟨n, by omega⟩ (v := m.memory.read (m.index + n)) rfl
      rw [Bare.loadOne, address, peek_bare, memory_loadRegisters, ok_bind, set]
      rfl

end Machine

end Chip8
