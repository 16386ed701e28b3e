import Chip8.Word

/-!
# Instructions

The instruction set has thirty-five members, counting the one that does nothing.
The operand types are parameters: an executable instruction has operands in the
ranges of a word's fields, and the text of an instruction is defined for operands
of any size.
-/

namespace Chip8

/-- An instruction over addresses `α`, registers `ρ`, bytes `β` and row counts `ν`. -/
inductive Instruction (α ρ β ν : Type) where
  /-- Does nothing; every word without a meaning of its own. -/
  | noop
  | clear
  /-- Returns to the instruction after the latest call. -/
  | ret
  | jump (addr : α)
  | call (addr : α)
  | jumpV0 (addr : α)
  | skipEqByte (x : ρ) (byte : β)
  | skipNeByte (x : ρ) (byte : β)
  | skipEqReg (x y : ρ)
  | skipNeReg (x y : ρ)
  | skipKey (x : ρ)
  | skipNoKey (x : ρ)
  | loadByte (x : ρ) (byte : β)
  /-- Adds a byte, leaving the flag alone. -/
  | addByte (x : ρ) (byte : β)
  /-- Loads a random byte masked by a byte. -/
  | random (x : ρ) (byte : β)
  | move (x y : ρ)
  | or (x y : ρ)
  | and (x y : ρ)
  | xor (x y : ρ)
  | add (x y : ρ)
  /-- Subtracts the second register from the first. -/
  | sub (x y : ρ)
  /-- Shifts the first register right. -/
  | shiftRight (x y : ρ)
  /-- Subtracts the first register from the second. -/
  | subFrom (x y : ρ)
  /-- Shifts the first register left. -/
  | shiftLeft (x y : ρ)
  | loadIndex (addr : α)
  /-- Draws a sprite of `rows` bytes at the position in two registers. -/
  | draw (x y : ρ) (rows : ν)
  | readDelay (x : ρ)
  | waitKey (x : ρ)
  | setDelay (x : ρ)
  | setSound (x : ρ)
  | addIndex (x : ρ)
  /-- Points the index register at a digit's glyph. -/
  | glyph (x : ρ)
  /-- Stores the three decimal digits of a register. -/
  | storeDigits (x : ρ)
  /-- Stores the registers up to one. -/
  | store (x : ρ)
  /-- Loads the registers up to one. -/
  | load (x : ρ)
deriving DecidableEq

/-- An instruction as it is decoded from a word. -/
abbrev Opcode := Instruction (Fin 4096) (Fin 16) UInt8 (Fin 16)

namespace Instruction

variable {α ρ β ν α' ρ' β' ν' : Type}

/-- Whether an instruction draws a random byte. -/
def drawsByte : Instruction α ρ β ν → Bool
  | random _ _ => true
  | _ => false

/-- Replaces every operand. -/
def map (a : α → α') (r : ρ → ρ') (b : β → β') (n : ν → ν') :
    Instruction α ρ β ν → Instruction α' ρ' β' ν'
  | noop => noop
  | clear => clear
  | ret => ret
  | jump addr => jump (a addr)
  | call addr => call (a addr)
  | jumpV0 addr => jumpV0 (a addr)
  | skipEqByte x byte => skipEqByte (r x) (b byte)
  | skipNeByte x byte => skipNeByte (r x) (b byte)
  | skipEqReg x y => skipEqReg (r x) (r y)
  | skipNeReg x y => skipNeReg (r x) (r y)
  | skipKey x => skipKey (r x)
  | skipNoKey x => skipNoKey (r x)
  | loadByte x byte => loadByte (r x) (b byte)
  | addByte x byte => addByte (r x) (b byte)
  | random x byte => random (r x) (b byte)
  | move x y => move (r x) (r y)
  | or x y => or (r x) (r y)
  | and x y => and (r x) (r y)
  | xor x y => xor (r x) (r y)
  | add x y => add (r x) (r y)
  | sub x y => sub (r x) (r y)
  | shiftRight x y => shiftRight (r x) (r y)
  | subFrom x y => subFrom (r x) (r y)
  | shiftLeft x y => shiftLeft (r x) (r y)
  | loadIndex addr => loadIndex (a addr)
  | draw x y rows => draw (r x) (r y) (n rows)
  | readDelay x => readDelay (r x)
  | waitKey x => waitKey (r x)
  | setDelay x => setDelay (r x)
  | setSound x => setSound (r x)
  | addIndex x => addIndex (r x)
  | glyph x => glyph (r x)
  | storeDigits x => storeDigits (r x)
  | store x => store (r x)
  | load x => load (r x)

/-- Replacing operands back undoes replacing them. -/
theorem map_map_cancel {a : α → α'} {r : ρ → ρ'} {b : β → β'} {n : ν → ν'}
    {a' : α' → α} {r' : ρ' → ρ} {b' : β' → β} {n' : ν' → ν}
    (ha : ∀ u, a' (a u) = u) (hr : ∀ u, r' (r u) = u)
    (hb : ∀ u, b' (b u) = u) (hn : ∀ u, n' (n u) = u) (i : Instruction α ρ β ν) :
    map a' r' b' n' (map a r b n i) = i := by
  cases i <;> simp [map, ha, hr, hb, hn]

/-- The operands of a decoded instruction as plain numbers. -/
def numbers (i : Opcode) : Instruction Nat Nat Nat Nat :=
  i.map Fin.val Fin.val UInt8.toNat Fin.val

/-- Different decoded instructions have different operands or different kinds. -/
theorem numbers_injective {i j : Opcode} (h : i.numbers = j.numbers) : i = j := by
  have back (k : Opcode) :
      k.numbers.map (Fin.ofNat 4096) (Fin.ofNat 16) UInt8.ofNat (Fin.ofNat 16) = k :=
    map_map_cancel Fin.ofNat_val_eq_self Fin.ofNat_val_eq_self
      (fun _ => UInt8.ofNat_toNat) Fin.ofNat_val_eq_self k
  rw [← back i, h, back j]

end Instruction

end Chip8
