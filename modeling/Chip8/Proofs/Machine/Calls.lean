import Chip8.Proofs.Machine.Run

/-!
# Calls and their returns

A call saves its own address. As long as the stack stays longer than it was before the
call, the saved address and everything below it stay where they are. The step that brings
the stack back to its old length is the return to that address.
-/

namespace Chip8.Machine

variable {σ T : Type}

/-- An instruction keeps a saved address and what lies below it, or it returns there. -/
theorem execute_of_saved {m : Machine T} {p : Int} {below : List Int}
    (saved : p :: below <:+ m.stack) (keys : Keyboard) (chance : UInt8) (op : Opcode) :
    p :: below <:+ (m.execute keys chance op).machine.stack ∨
      (m.execute keys chance op).machine.stack = below ∧
        (m.execute keys chance op).machine.pc = (p + 2) % 65536 := by
  rw [stack_execute]
  cases op with
  | call addr => exact .inl (saved.trans (List.suffix_cons m.pc m.stack))
  | ret =>
      cases hs : m.stack with
      | nil => simp [hs] at saved
      | cons a rest =>
          rw [hs, List.suffix_cons_iff] at saved
          obtain top | deeper := saved
          · -- the saved address is on top, so this is the return to it
            obtain ⟨rfl, rfl⟩ := List.cons.inj top
            exact .inr ⟨rfl, pc_execute_ret hs keys chance⟩
          · exact .inl deeper
  | _ => exact .inl saved

variable [Instant T] [Host σ T]

/-- A step keeps a saved address and what lies below it, or it returns there. -/
theorem step_of_saved {m : Machine T} {p : Int} {below : List Int}
    (saved : p :: below <:+ m.stack) (host : σ) (input : Input) :
    p :: below <:+ (m.step host input).machine.stack ∨
      (m.step host input).machine.stack = below ∧
        (m.step host input).machine.pc = (p + 2) % 65536 := by
  cases h : m.isHeld input with
  | true =>
      rw [step_of_isHeld h]
      exact .inl saved
  | false =>
      rw [step_of_not_isHeld h]
      exact execute_of_saved (by rwa [stack_prepared]) _ _ _

/-- A call saves its own address on top of the stack. -/
theorem stack_step_call {m : Machine T} {input : Input} {addr : Fin 4096}
    (h : m.executed? input = some (.call addr)) (host : σ) :
    (m.step host input).machine.stack = m.pc :: m.stack := by
  cases held : m.isHeld input with
  | true => simp [executed?, held] at h
  | false =>
      have word : Instruction.decode m.fetch = .call addr := by
        simpa [executed?, held] using h
      rw [step_of_not_isHeld held, effect, word, stack_execute]
      simp

/-- While the stack stays longer than below a saved address, that address stays saved. -/
theorem saved_during {m : Machine T} {host : σ} {inputs : List Input} {i : Nat} {p : Int}
    {below : List Int} (saved : p :: below <:+ (m.during host inputs i).1.stack) {n : Nat}
    (bound : i + n ≤ inputs.length)
    (nested : ∀ k, i < k → k ≤ i + n → below.length < (m.during host inputs k).1.stack.length) :
    p :: below <:+ (m.during host inputs (i + n)).1.stack := by
  induction n with
  | zero => exact saved
  | succ n ih =>
      have before := ih (by omega) fun k low high => nested k low (by omega)
      have longer := nested (i + (n + 1)) (by omega) (by omega)
      rw [← Nat.add_assoc, during_succ m host (by omega)] at longer ⊢
      obtain kept | ⟨returned, -⟩ :=
        step_of_saved before (m.during host inputs (i + n)).2 inputs[i + n]
      · exact kept
      · -- a return would leave the stack too short
        rw [returned] at longer
        exact absurd longer (Nat.lt_irrefl _)

/-- A call is matched by its return: let step `i` of a run call a subroutine, let the stack
be longer than before the call up to step `j`, and let step `j` bring it back to its old
length. Then the stack is as it was before the call, and the program counter stands at the
word after the call. Nothing is asked of the machine that the run starts with. -/
theorem return_of_call (m : Machine T) (host : σ) (inputs : List Input) {i j : Nat}
    (later : i < j) (bound : j < inputs.length) {addr : Fin 4096}
    (called : (m.during host inputs i).1.executed? (inputs[i]) = some (.call addr))
    (nested : ∀ k, i < k → k ≤ j →
      (m.during host inputs i).1.stack.length < (m.during host inputs k).1.stack.length)
    (back : (m.during host inputs (j + 1)).1.stack.length =
      (m.during host inputs i).1.stack.length) :
    (m.during host inputs (j + 1)).1.stack = (m.during host inputs i).1.stack ∧
      (m.during host inputs (j + 1)).1.pc = ((m.during host inputs i).1.pc + 2) % 65536 := by
  have pushed : (m.during host inputs (i + 1)).1.stack =
      (m.during host inputs i).1.pc :: (m.during host inputs i).1.stack := by
    rw [during_succ m host (by omega), stack_step_call called]
  obtain ⟨n, rfl⟩ : ∃ n, j = i + 1 + n := ⟨j - (i + 1), by omega⟩
  have saved := saved_during ⟨[], pushed.symm⟩ (n := n) (by omega)
    fun k low high => nested k (by omega) high
  rw [during_succ m host bound] at back ⊢
  obtain kept | returned :=
    step_of_saved saved (m.during host inputs (i + 1 + n)).2 inputs[i + 1 + n]
  · -- the stack would still be too long
    have long := kept.length_le
    rw [back, List.length_cons] at long
    omega
  · exact returned

/-- A machine at a call of a subroutine that calls another one; both return. -/
def nestedCalls : Machine Rat :=
  { start [] 0 with
    pc := 0
    memory := Memory.blank.writeAll 0 [0x20, 0x04, 0, 0, 0x20, 0x08, 0x00, 0xEE, 0x00, 0xEE] }

/-- A clock that stands still, and random bytes that are all zero. -/
def stillTape : Tape Rat :=
  ⟨fun _ => 0, fun _ => 0, 0, 0⟩

/-- The outer call is step 0, the inner one step 1; the inner return is step 2, the outer
one step 3. -/
theorem return_of_call_nested :
    let states := nestedCalls.during stillTape (List.replicate 4 {})
    (states 0).1.executed? {} = some (.call 4) ∧
      (∀ k, 0 < k → k ≤ 3 → (states 0).1.stack.length < (states k).1.stack.length) ∧
      (states 4).1.stack.length = (states 0).1.stack.length ∧
      (states 4).1.stack = (states 0).1.stack ∧
      (states 4).1.pc = ((states 0).1.pc + 2) % 65536 := by
  intro states
  have called : (states 0).1.executed? {} = some (.call 4) := by decide +kernel
  have nested : ∀ k, 0 < k → k ≤ 3 →
      (states 0).1.stack.length < (states k).1.stack.length := by
    have within : ∀ k < 4, 0 < k →
        (states 0).1.stack.length < (states k).1.stack.length := by decide +kernel
    exact fun k low high => within k (by omega) low
  have back : (states 4).1.stack.length = (states 0).1.stack.length := by decide +kernel
  exact ⟨called, nested, back,
    return_of_call nestedCalls stillTape (List.replicate 4 {}) (i := 0) (j := 3)
      (by decide) (by decide) called nested back⟩

end Chip8.Machine
