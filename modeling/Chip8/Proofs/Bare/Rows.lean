import Chip8.Proofs.Bare.Basic

/-!
# Vectors as rows

A vector whose entries stand for bytes is laid out as a row. Reading and replacing an entry
of the vector is reading and replacing a number of the row, and neither fails.
-/

namespace Chip8

/-- A computation that succeeded goes on with its result. -/
@[simp] theorem ok_bind {ε α β : Type} (a : α) (f : α → Except ε β) :
    (Except.ok a >>= f) = f a := rfl

/-- Returning a result is succeeding with it. -/
@[simp] theorem pure_eq_ok {ε α : Type} (a : α) : (pure a : Except ε α) = .ok a := rfl

namespace Row

variable {α : Type} {n : Nat}

/-- The row of a vector whose entries stand for numbers. -/
def ofVector (f : α → Nat) (v : Vector α n) : Row :=
  v.toList.map f

@[simp] theorem length_ofVector (f : α → Nat) (v : Vector α n) :
    (ofVector f v).length = n := by
  simp [ofVector]

@[simp] theorem ofVector_replicate (f : α → Nat) (a : α) :
    ofVector f (Vector.replicate n a) = List.replicate n (f a) := by
  simp [ofVector]

theorem mem_ofVector {f : α → Nat} {v : Vector α n} {k : Nat} (h : k ∈ ofVector f v) :
    ∃ a, f a = k := by
  obtain ⟨a, -, rfl⟩ := List.mem_map.1 h
  exact ⟨a, rfl⟩

theorem le_of_mem_bytes {v : Vector UInt8 n} : ∀ k ∈ ofVector UInt8.toNat v, k ≤ 0xFF := by
  intro k hk
  obtain ⟨b, rfl⟩ := mem_ofVector hk
  exact Nat.le_of_lt_succ b.toNat_lt

theorem get_ofVector (f : α → Nat) (v : Vector α n) {k : Nat} (h : k < n) :
    (ofVector f v).get k = .ok (f v[k]) := by
  have inside : 0 ≤ (k : Int) ∧ (k : Int).toNat < (ofVector f v).length := by
    rw [length_ofVector]
    omega
  rw [get, dif_pos inside]
  simp [ofVector]

theorem put_ofVector (f : α → Nat) (v : Vector α n) {k : Nat} (h : k < n) {z : Int} {a : α}
    (hz : z = f a) (byte : f a < 256) :
    (ofVector f v).put k z = .ok (ofVector f (v.set k a)) := by
  have inside : 0 ≤ (k : Int) ∧ (k : Int).toNat < (ofVector f v).length := by
    rw [length_ofVector]
    omega
  rw [put, if_pos (by omega), if_pos inside]
  simp [ofVector, hz, Vector.toList_set, List.map_set]

end Row

end Chip8
