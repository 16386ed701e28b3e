import Chip8.Listing
import Chip8.Log
import Chip8.Proofs.Machine.Stores
import Chip8.Rom

/-!
# The listing and the log of a run

A listing is made from the bytes of a program, the log of a run from what the machine fetches.
As long as no store has reached the word, both show the same word at the same address.
-/

namespace Chip8

/-- The word of a loaded program at an even place is that of its line in the listing, also if
only half of the word belongs to the program. -/
theorem Listing.getElem?_lines_load {program : List UInt8}
    (fits : program.length ≤ Memory.programLimit) {n : Nat} (inside : 2 * n < program.length) :
    (lines program defaultOrigin)[n]? =
      some ⟨Memory.programStart + 2 * n,
        .ofBytes ((Memory.load program).read (Memory.programStart + 2 * n))
          ((Memory.load program).read (Memory.programStart + 2 * n + 1))⟩ := by
  have limit : Memory.programLimit = 3584 := rfl
  have high := Memory.read_load_program fits (n := 2 * n) (by omega)
  have low := Memory.read_load_program fits (n := 2 * n + 1) (by omega)
  push_cast at high low
  rw [← Int.add_assoc] at low
  have first : program.getD (2 * n) 0 = program[2 * n] := by
    rw [List.getD_eq_getElem?_getD, List.getElem?_eq_getElem inside, Option.getD_some]
  rw [getElem?_lines, high, low, first, List.getElem?_eq_getElem inside]
  rfl

namespace Machine

variable {σ T : Type} [Instant T] [Host σ T]

/-- A step that is not held up logs the word at the program counter first. -/
theorem head?_notices_step {m : Machine T} {input : Input} (goes : m.isHeld input = false)
    (host : σ) :
    (m.step host input).notices.head? = some (.executed m.pc m.fetch) := by
  rw [step_of_not_isHeld goes]
  rfl

/-- The log of a run agrees with the listing of the program. Let a program file be accepted, and
let a step of a run of the program execute the word at an even address among the program's
bytes, to no byte of which an earlier step of the run stored anything. Then the step logs, at
the lowest level, the address, the word and the assembly text of that word's line in the listing.
This includes the last line of a program of odd length, which shows half of its word only. -/
theorem executed_as_listed {disk : Disk} {path : Path} {program : List UInt8}
    (accepted : Rom.read disk path = .ok program) (host : σ) (inputs : List Input) {k : Nat}
    (bound : k < inputs.length) :
    let booted := boot program host
    let now := booted.1.during booted.2 inputs k
    now.1.isHeld inputs[k] = false →
      0x200 ≤ now.1.pc → now.1.pc < 0x200 + program.length → now.1.pc % 2 = 0 →
      (∀ s ∈ booted.1.stores booted.2 (inputs.take k),
        s.byteAt? now.1.pc = none ∧ s.byteAt? (now.1.pc + 1) = none) →
      ∃ line, (Listing.lines program Listing.defaultOrigin)[((now.1.pc - 0x200) / 2).toNat]? =
          some line ∧
        line.address = now.1.pc ∧
        now.1.executed? inputs[k] = some (Instruction.decode line.word) ∧
        (now.1.step now.2 inputs[k]).notices.head?.map Notice.entry =
          some ⟨.debug, .machine,
            Numeral.signedHex 3 line.address ++ ": " ++ Numeral.hex 4 line.word.toNat ++ " " ++
              line.mnemonic⟩ := by
  intro booted now goes low high even intact
  obtain ⟨n, place⟩ : ∃ n : Nat, now.1.pc = Memory.programStart + 2 * n := by
    refine ⟨((now.1.pc - 0x200) / 2).toNat, ?_⟩
    change _ = (0x200 : Int) + _
    omega
  have inside : 2 * n < program.length := by
    change _ = (0x200 : Int) + _ at place
    omega
  have number : ((now.1.pc - 0x200) / 2).toNat = n := by
    change _ = (0x200 : Int) + _ at place
    omega
  -- both bytes of the word are still those of the loaded program
  have kept (a : Int) (missed : ∀ s ∈ booted.1.stores booted.2 (inputs.take k),
      s.byteAt? a = none) : now.1.memory.read a = (Memory.load program).read a :=
    read_memory_after_of_none missed
  have word : now.1.fetch = .ofBytes ((Memory.load program).read (Memory.programStart + 2 * n))
      ((Memory.load program).read (Memory.programStart + 2 * n + 1)) := by
    rw [fetch, kept _ fun s member => (intact s member).1,
      kept _ fun s member => (intact s member).2, place]
  have listed := Listing.getElem?_lines_load (Rom.length_of_read accepted) inside
  rw [← word, ← place] at listed
  refine ⟨⟨now.1.pc, now.1.fetch⟩, ?_, rfl, ?_, ?_⟩
  · rw [number]
    exact listed
  · simp [executed?, goes]
  · rw [head?_notices_step goes]
    rfl

/-- A program of seven bytes that stores elsewhere and then reaches its last byte. -/
theorem executed_as_listed_half_word :
    let program : List UInt8 := [0xA3, 0x00, 0xF0, 0x33, 0x12, 0x06, 0x61]
    let disk : Disk := fun _ => .ok program
    let tape : Tape Rat := ⟨fun _ => 0, fun _ => 0, 0, 0⟩
    let booted := boot program tape
    let inputs : List Input := List.replicate 4 {}
    let now := booted.1.during booted.2 inputs 3
    Rom.read disk (.ofText "rom") = .ok program ∧
      now.1.isHeld {} = false ∧ now.1.pc = 0x206 ∧
      booted.1.stores booted.2 (inputs.take 3) = [⟨0x300, [0, 0, 0]⟩] ∧
      ∃ line, (Listing.lines program Listing.defaultOrigin)[3]? = some line ∧
        line.address = now.1.pc ∧
        now.1.executed? {} = some (Instruction.decode line.word) ∧
        (now.1.step now.2 {}).notices.head?.map Notice.entry =
          some ⟨.debug, .machine,
            Numeral.signedHex 3 line.address ++ ": " ++ Numeral.hex 4 line.word.toNat ++ " " ++
              line.mnemonic⟩ := by
  intro program disk tape booted inputs now
  have accepted : Rom.read disk (.ofText "rom") = .ok program := rfl
  have goes : now.1.isHeld {} = false := by decide +kernel
  have place : now.1.pc = 0x206 := by decide +kernel
  have stores : booted.1.stores booted.2 (inputs.take 3) = [⟨0x300, [0, 0, 0]⟩] := by
    decide +kernel
  have agreement := executed_as_listed accepted tape inputs (k := 3) (by decide) goes
    (by rw [place]; decide) (by rw [place]; decide) (by rw [place]; decide)
    (by rw [stores, place]; decide)
  rw [place] at agreement
  exact ⟨accepted, goes, place, stores, by rwa [place]⟩

end Machine

end Chip8
