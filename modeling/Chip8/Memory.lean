import Chip8.Position

/-!
# Memory

Memory is 4096 bytes. An address is any integer; every access reduces it modulo 4096,
so reads and writes beyond the end wrap to the start. A loaded memory holds the digit glyphs
from 0 and the program from 0x200; all other bytes are zero.
-/

namespace Chip8

/-- 4096 bytes. -/
structure Memory where
  bytes : Vector UInt8 4096
deriving DecidableEq

namespace Memory

/-- Where a program starts. -/
def programStart : Nat := 0x200

/-- The number of bytes from the program's start to the end of memory. -/
def programLimit : Nat := 4096 - programStart

/-- The bytes of one digit glyph. -/
def glyphSize : Nat := 5

/-- The sixteen digit glyphs, five rows of four pixels each. -/
def font : List UInt8 :=
  [0xF0, 0x90, 0x90, 0x90, 0xF0,
   0x20, 0x60, 0x20, 0x20, 0x70,
   0xF0, 0x10, 0xF0, 0x80, 0xF0,
   0xF0, 0x10, 0xF0, 0x10, 0xF0,
   0x90, 0x90, 0xF0, 0x10, 0x10,
   0xF0, 0x80, 0xF0, 0x10, 0xF0,
   0xF0, 0x80, 0xF0, 0x90, 0xF0,
   0xF0, 0x10, 0x20, 0x40, 0x40,
   0xF0, 0x90, 0xF0, 0x90, 0xF0,
   0xF0, 0x90, 0xF0, 0x10, 0xF0,
   0xF0, 0x90, 0xF0, 0x90, 0x90,
   0xE0, 0x90, 0xE0, 0x90, 0xE0,
   0xF0, 0x80, 0x80, 0x80, 0xF0,
   0xE0, 0x90, 0x90, 0x90, 0xE0,
   0xF0, 0x80, 0xF0, 0x80, 0xF0,
   0xF0, 0x80, 0xF0, 0x80, 0x80]

/-- The place of an address among the bytes. -/
def place (a : Int) : Fin 4096 :=
  ⟨(a % 4096).toNat, by omega⟩

/-- The byte at an address. -/
def read (m : Memory) (a : Int) : UInt8 :=
  m.bytes.get (place a)

/-- Replaces the byte at an address. -/
def write (m : Memory) (a : Int) (b : UInt8) : Memory :=
  ⟨m.bytes.set (place a) b (place a).isLt⟩

/-- Replaces consecutive bytes from an address on. -/
def writeAll (m : Memory) (a : Int) : List UInt8 → Memory
  | [] => m
  | b :: rest => (m.write a b).writeAll (a + 1) rest

/-- The `n` consecutive bytes from an address on. -/
def readAll (m : Memory) (a : Int) (n : Nat) : List UInt8 :=
  (List.range n).map fun k : Nat => m.read (a + k)

/-- The bytes from one bound up to another. -/
def slice (m : Memory) (a e : Int) : List UInt8 :=
  (m.bytes.toList.take (Position.bound 4096 e)).drop (Position.bound 4096 a)

/-- All bytes zero. -/
def blank : Memory :=
  ⟨Vector.replicate 4096 0⟩

/-- The memory a program starts with; what does not fit is left out. -/
def load (program : List UInt8) : Memory :=
  (blank.writeAll 0 font).writeAll programStart (program.take programLimit)

theorem place_inj {a c : Int} : place a = place c ↔ a % 4096 = c % 4096 := by
  simp only [place, Fin.mk.injEq]
  omega

/-- Memories with the same bytes are the same. -/
theorem ext_read {m k : Memory} (h : ∀ a, m.read a = k.read a) : m = k := by
  cases m with
  | mk u => cases k with
    | mk v =>
        congr 1
        apply Vector.ext
        intro i hi
        have hp : place i = ⟨i, hi⟩ := by
          simp only [place, Fin.mk.injEq]
          omega
        have hr := h i
        simp only [read, hp] at hr
        exact hr

/-- Only the address modulo 4096 matters. -/
theorem read_mod (m : Memory) (a : Int) : m.read (a % 4096) = m.read a := by
  have hp : place (a % 4096) = place a := place_inj.2 (by omega)
  simp only [read, hp]

@[simp] theorem read_blank (a : Int) : blank.read a = 0 := by
  simp [read, blank, Vector.get]

theorem read_write (m : Memory) (a c : Int) (b : UInt8) :
    (m.write a b).read c = if a % 4096 = c % 4096 then b else m.read c := by
  have hp : (place a).val = (place c).val ↔ a % 4096 = c % 4096 := by
    rw [← place_inj, Fin.ext_iff]
  change (m.bytes.set (place a) b (place a).isLt)[(place c).val] = _
  rw [Vector.getElem_set]
  by_cases h : a % 4096 = c % 4096
  · rw [if_pos (hp.2 h), if_pos h]
  · rw [if_neg (fun e => h (hp.1 e)), if_neg h]
    rfl

@[simp] theorem writeAll_nil (m : Memory) (a : Int) : m.writeAll a [] = m := rfl

theorem writeAll_cons (m : Memory) (a : Int) (b : UInt8) (rest : List UInt8) :
    m.writeAll a (b :: rest) = (m.write a b).writeAll (a + 1) rest := rfl

/-- After bytes were written one behind the other, an address in their window holds one of
them, and any other address holds what it held. -/
theorem read_writeAll (m : Memory) (a c : Int) {bytes : List UInt8} (h : bytes.length ≤ 4096) :
    (m.writeAll a bytes).read c = (bytes[((c - a) % 4096).toNat]?).getD (m.read c) := by
  induction bytes generalizing m a with
  | nil => simp
  | cons b rest ih =>
      rw [List.length_cons] at h
      rw [writeAll_cons, ih _ _ (by omega), read_write]
      by_cases here : a % 4096 = c % 4096
      · -- the window of the rest does not come round to the first address
        have first : ((c - a) % 4096).toNat = 0 := by omega
        have beyond : rest.length ≤ ((c - (a + 1)) % 4096).toNat := by omega
        rw [first, List.getElem?_eq_none beyond, if_pos here]
        rfl
      · have next : ((c - a) % 4096).toNat = ((c - (a + 1)) % 4096).toNat + 1 := by omega
        rw [next, List.getElem?_cons_succ, if_neg here]

/-- A loaded memory holds the program, the glyphs and zeros. -/
theorem read_load (program : List UInt8) (a : Int) :
    (load program).read a =
      ((program.take programLimit)[((a - programStart) % 4096).toNat]?).getD
        ((font[(a % 4096).toNat]?).getD 0) := by
  have fits : (program.take programLimit).length ≤ 4096 := by
    rw [List.length_take]
    exact Nat.le_trans (Nat.min_le_left _ _) (by decide)
  rw [load, read_writeAll _ _ _ fits, read_writeAll _ _ _ (by decide), read_blank, Int.sub_zero]

/-- A program that fits is found from its start on, with zeros behind it. -/
theorem read_load_program {program : List UInt8} (fits : program.length ≤ programLimit) {n : Nat}
    (inside : n < programLimit) : (load program).read (programStart + n) = program.getD n 0 := by
  have offset : ((programStart + n - programStart : Int) % 4096).toNat = n := by
    simp only [programLimit, programStart] at *
    omega
  have glyphs : font.length ≤ ((programStart + n : Int) % 4096).toNat := by
    simp only [programLimit, programStart] at *
    change 80 ≤ _
    omega
  rw [read_load, offset, List.take_of_length_le fits, List.getElem?_eq_none glyphs,
    List.getD_eq_getElem?_getD]
  rfl

@[simp] theorem length_readAll (m : Memory) (a : Int) (n : Nat) :
    (m.readAll a n).length = n := by
  simp [readAll]

theorem getElem_readAll (m : Memory) (a : Int) (n k : Nat)
    (h : k < (m.readAll a n).length) : (m.readAll a n)[k] = m.read (a + k) := by
  simp [readAll]

end Memory

end Chip8
