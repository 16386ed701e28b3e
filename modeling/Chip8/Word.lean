/-!
# Instruction words

A word is sixteen bits, read as four nibbles. The fields of a word overlap: the
address is the low three nibbles, the byte the low two.
-/

namespace Chip8

/-- A sixteen-bit instruction word. -/
abbrev Word := UInt16

namespace Word

/-- The word with the low sixteen bits of an integer. -/
def ofInt (z : Int) : Word :=
  UInt16.ofNat (z % 65536).toNat

/-- A word from its two bytes, the high one first. -/
def ofBytes (high low : UInt8) : Word :=
  UInt16.ofNat (high.toNat * 256 + low.toNat)

/-- A word from its four nibbles, the high one first. -/
def ofNibbles (family x y nibble : Nat) : Word :=
  UInt16.ofNat (family * 4096 + x * 256 + y * 16 + nibble)

/-- Bits 12 to 15. -/
def family (w : Word) : Fin 16 :=
  ⟨w.toNat / 4096, by have := w.toNat_lt; omega⟩

/-- Bits 0 to 11. -/
def addr (w : Word) : Fin 4096 :=
  ⟨w.toNat % 4096, Nat.mod_lt _ (by omega)⟩

/-- Bits 8 to 11. -/
def x (w : Word) : Fin 16 :=
  ⟨w.toNat / 256 % 16, Nat.mod_lt _ (by omega)⟩

/-- Bits 4 to 7. -/
def y (w : Word) : Fin 16 :=
  ⟨w.toNat / 16 % 16, Nat.mod_lt _ (by omega)⟩

/-- Bits 0 to 7. -/
def byte (w : Word) : UInt8 :=
  UInt8.ofNat w.toNat

/-- Bits 0 to 3. -/
def nibble (w : Word) : Fin 16 :=
  ⟨w.toNat % 16, Nat.mod_lt _ (by omega)⟩

/-- The four nibbles, the high one first. -/
def nibbles (w : Word) : List (Fin 16) :=
  [w.family, w.x, w.y, w.nibble]

theorem toNat_ofInt (z : Int) : (ofInt z).toNat = (z % 65536).toNat := by
  simp only [ofInt, UInt16.toNat_ofNat']
  omega

theorem toNat_ofBytes (high low : UInt8) :
    (ofBytes high low).toNat = high.toNat * 256 + low.toNat := by
  have := high.toNat_lt
  have := low.toNat_lt
  simp only [ofBytes, UInt16.toNat_ofNat']
  omega

theorem toNat_ofNibbles {family x y nibble : Nat}
    (hf : family < 16) (hx : x < 16) (hy : y < 16) (hn : nibble < 16) :
    (ofNibbles family x y nibble).toNat = family * 4096 + x * 256 + y * 16 + nibble := by
  simp only [ofNibbles, UInt16.toNat_ofNat']
  omega

theorem toNat_byte (w : Word) : w.byte.toNat = w.toNat % 256 := by
  simp [byte]

/-- The nibbles put together again give the word. -/
theorem ofNibbles_nibbles (w : Word) :
    ofNibbles w.family w.x w.y w.nibble = w := by
  apply UInt16.toNat_inj.1
  rw [toNat_ofNibbles w.family.2 w.x.2 w.y.2 w.nibble.2]
  simp only [family, x, y, nibble]
  omega

end Word

end Chip8
