import Chip8.Proofs.Machine.History

/-!
# What was stored last

Two instructions write to memory, each of them bytes one behind the other from the index
register on. The stores of a run, in order, tell what memory holds after it: at each address
the byte of the last store that reached it, and what was there before if none did.
-/

namespace Chip8

/-- Bytes put into memory one behind the other. -/
structure Store where
  address : Int
  bytes : List UInt8
deriving DecidableEq

/-- The byte that a store puts at an address, if it reaches that far. Addresses wrap at the
end of memory. -/
def Store.byteAt? (s : Store) (a : Int) : Option UInt8 :=
  s.bytes[((a - s.address) % 4096).toNat]?

namespace Machine

variable {σ T : Type}

/-- What an instruction stores. -/
def stored? (m : Machine T) : Opcode → Option Store
  | .storeDigits x => some ⟨m.index, decimalDigits (m.reg x)⟩
  | .store x => some ⟨m.index, m.registersTo x⟩
  | _ => none

/-- An instruction changes memory where it stores and nowhere else. -/
theorem read_memory_execute (m : Machine T) (keys : Keyboard) (chance : UInt8) (op : Opcode)
    (a : Int) :
    (m.execute keys chance op).machine.memory.read a =
      ((m.stored? op).bind fun s => s.byteAt? a).getD (m.memory.read a) := by
  rw [memory_execute]
  cases op with
  | storeDigits x => exact Memory.read_writeAll m.memory m.index a (by simp [decimalDigits])
  | store x =>
      have short : (m.registersTo x).length ≤ 4096 := by
        rw [length_registersTo]
        omega
      exact Memory.read_writeAll m.memory m.index a short
  | _ => rfl

variable [Instant T] [Host σ T]

/-- What a step stores. -/
def store? (m : Machine T) (host : σ) (input : Input) : Option Store :=
  (m.executed? input).bind (m.prepared host input).stored?

/-- The stores of a run, in order. -/
def stores (m : Machine T) (host : σ) (inputs : List Input) : List Store :=
  m.history store? host inputs

theorem stores_cons (m : Machine T) (host : σ) (input : Input) (rest : List Input) :
    m.stores host (input :: rest) =
      (m.store? host input).toList ++
        (m.step host input).machine.stores (m.step host input).host rest := rfl

/-- A step changes memory where it stores and nowhere else. -/
theorem read_memory_step (m : Machine T) (host : σ) (input : Input) (a : Int) :
    (m.step host input).machine.memory.read a =
      ((m.store? host input).bind fun s => s.byteAt? a).getD (m.memory.read a) := by
  cases held : m.isHeld input with
  | true => simp [step_of_isHeld held, store?, executed?, held]
  | false =>
      rw [step_of_not_isHeld held, effect, read_memory_execute, memory_prepared, store?,
        executed?, held]
      rfl

/-- After a run an address holds the byte of the last store that reached it, or else what it
held before the run. -/
theorem read_memory_after (m : Machine T) (host : σ) (inputs : List Input) (a : Int) :
    (m.after host inputs).1.memory.read a =
      ((m.stores host inputs).reverse.findSome? fun s => s.byteAt? a).getD (m.memory.read a) := by
  induction inputs generalizing m host with
  | nil => rfl
  | cons input rest ih =>
      rw [after_cons, ih, stores_cons, List.reverse_append, List.findSome?_append,
        read_memory_step]
      generalize (((m.step host input).machine.stores (m.step host input).host rest).reverse.findSome?
        fun s => s.byteAt? a) = later
      cases later with
      | some b => rfl
      | none =>
          cases m.store? host input with
          | none => rfl
          | some s => cases h : s.byteAt? a <;> simp [h]

/-- An address that no store of a run reaches holds what it held. -/
theorem read_memory_after_of_none {m : Machine T} {host : σ} {inputs : List Input} {a : Int}
    (missed : ∀ s ∈ m.stores host inputs, s.byteAt? a = none) :
    (m.after host inputs).1.memory.read a = m.memory.read a := by
  have nothing : ((m.stores host inputs).reverse.findSome? fun s => s.byteAt? a) = none := by
    rw [List.findSome?_eq_none_iff]
    intro s member
    exact missed s (List.mem_reverse.1 member)
  rw [read_memory_after, nothing]
  rfl

end Machine

end Chip8
