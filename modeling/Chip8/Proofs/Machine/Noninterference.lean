import Chip8.Proofs.Bare.Legal
import Mathlib.Data.Int.ModEq

/-!
# What a machine sees of its input

Of the held keys a machine sees only the sixteen keys it has, of a pressed key only the low
four bits, and even those only while it waits. Inputs that do not differ in what is seen lead
through the same run, step by step.
-/

namespace Chip8

variable {σ T : Type}

/-- Inputs that a machine cannot tell apart: they hold the same of its sixteen keys, and if it
waits, both press no key or both press keys with the same low four bits. -/
structure Machine.SeesAlike (m : Machine T) (i j : Input) : Prop where
  keys : ∀ key : Fin 16, i.keys key = j.keys key
  press : m.wait.isSome = true → Option.Rel (fun p q => p ≡ q [ZMOD 16]) i.press j.press

/-- Bare steps with the same outcome, in all parts of the machine but the keys it remembers. -/
def BareStep.SameButKeys (s t : BareStep σ T) : Prop :=
  ∃ keys, t = { s with machine := { s.machine with keys } }

/-- A run of a bare machine goes on from a step that succeeds. -/
theorem Bare.trace_of_step [Instant T] [Host σ T] {b : Bare T} {host : σ} {input : Input}
    {s : BareStep σ T} (first : b.step host input = .ok s) {inputs : List Input}
    {later : List (BareStep σ T)} (onward : s.machine.trace s.host inputs = .ok later) :
    b.trace host (input :: inputs) = .ok (s :: later) := by
  rw [Bare.trace, first, ok_bind, onward]
  rfl

namespace Machine

section Execute

variable (m : Machine T) {held others : Keyboard}
  (agree : ∀ key : Fin 16, held key = others key)
include agree

/-- A key is looked up by a number below sixteen. -/
theorem keyHeld_congr (x : Fin 16) : m.keyHeld held x = m.keyHeld others x :=
  agree ⟨(m.reg x).toNat % 16, Nat.mod_lt _ (by decide)⟩

/-- Two instructions look at the keys, and no other one does. -/
theorem execute_congr (chance : UInt8) (op : Opcode) :
    m.execute held chance op = m.execute others chance op := by
  cases op with
  | skipKey x | skipNoKey x => simp only [execute, m.keyHeld_congr agree]
  | _ => rfl

end Execute

namespace SeesAlike

variable {m : Machine T} {i j : Input} (alike : m.SeesAlike i j)
include alike

/-- What is delivered to a waiting register are the low four bits. -/
theorem resume : m.resume i.press = m.resume j.press := by
  cases waits : m.wait with
  | none => simp [Machine.resume, waits]
  | some x =>
      have presses := alike.press (by rw [waits]; rfl)
      generalize i.press = p at presses ⊢
      generalize j.press = q at presses ⊢
      cases presses with
      | none => rfl
      | some low => simp only [Machine.resume, waits, low.eq]

variable [Instant T] [Host σ T]

/-- Inputs that a machine cannot tell apart lead to the same step. -/
theorem step (host : σ) : m.step host i = m.step host j := by
  simp only [Machine.step, proceed, alike.resume, execute_congr _ alike.keys]

end SeesAlike

variable [Instant T] [Host σ T]

/-- Runs of inputs that the machine of the first run cannot tell apart at any step. -/
def SeesAllAlike (m : Machine T) (host : σ) : List Input → List Input → Prop
  | [], [] => True
  | i :: is, j :: js =>
      m.SeesAlike i j ∧ (m.step host i).machine.SeesAllAlike (m.step host i).host is js
  | _, _ => False

/-- The steps of such runs are the same. -/
theorem SeesAllAlike.trace {m : Machine T} {host : σ} {inputs others : List Input}
    (alike : m.SeesAllAlike host inputs others) : m.trace host inputs = m.trace host others := by
  induction inputs generalizing m host others with
  | nil =>
      cases others with
      | nil => rfl
      | cons j js => exact alike.elim
  | cons i is ih =>
      cases others with
      | nil => exact alike.elim
      | cons j js =>
          obtain ⟨first, later⟩ := alike
          rw [trace_cons, trace_cons, ← first.step host, ih later]

/-- From layouts that remember different keys, inputs that cannot be told apart lead to layouts
of the same step with the same drawing mark. -/
theorem SeesAlike.step_bare {m : Machine T} (range : m.InRange) {i j : Input}
    (alike : m.SeesAlike i j) (held others : Keyboard) (drawn : Bool) (host : σ) :
    ∃ held' others' mark,
      (m.bare held drawn).step host i = .ok ((m.step host i).bare held' mark) ∧
        (m.bare others drawn).step host j = .ok ((m.step host i).bare others' mark) := by
  have sameHeld : m.isHeld i = m.isHeld j := by
    rw [← isSome_wait_resume, ← isSome_wait_resume, alike.resume]
  cases blocked : m.isHeld i with
  | true =>
      refine ⟨held, others, drawn, Bare.step_bare_of_isHeld blocked held drawn host, ?_⟩
      rw [alike.step host]
      exact Bare.step_bare_of_isHeld (sameHeld ▸ blocked) others drawn host
  | false =>
      refine ⟨i.keys, j.keys, (m.step host i).snapshot.changed,
        Bare.step_bare_of_not_isHeld blocked range.delay_byte held drawn host, ?_⟩
      rw [alike.step host]
      exact Bare.step_bare_of_not_isHeld (sameHeld ▸ blocked) range.delay_byte others drawn host

/-- Layouts of a machine in range, whatever keys they remember, run through layouts that differ
in the remembered keys only. -/
theorem SeesAllAlike.trace_bare {m : Machine T} (range : m.InRange) {host : σ}
    {inputs others : List Input} (alike : m.SeesAllAlike host inputs others)
    (held held' : Keyboard) (drawn : Bool) :
    ∃ steps steps', (m.bare held drawn).trace host inputs = .ok steps ∧
      (m.bare held' drawn).trace host others = .ok steps' ∧
      List.Forall₂ BareStep.SameButKeys steps steps' := by
  induction inputs generalizing m host others held held' drawn with
  | nil =>
      cases others with
      | nil => exact ⟨[], [], rfl, rfl, .nil⟩
      | cons j js => exact alike.elim
  | cons i is ih =>
      cases others with
      | nil => exact alike.elim
      | cons j js =>
          obtain ⟨first, later⟩ := alike
          obtain ⟨keys, keys', mark, one, two⟩ := first.step_bare range held held' drawn host
          obtain ⟨steps, steps', run, run', same⟩ := ih (range.step host i) later keys keys' mark
          exact ⟨_, _, Bare.trace_of_step one run, Bare.trace_of_step two run',
            .cons ⟨keys', rfl⟩ same⟩

/-- What a machine does not see of its input makes no difference. Let two lists of inputs be
given to a machine, with the same clock readings and random bytes, and let the machine of the
first run not be able to tell the two inputs of any step apart. Then both runs consist of the
same steps: the same machines, snapshots and notices, which are the log, and the same use of the
clock and of the random bytes. If the machine is in range, as every machine is that a program
leads to, this holds of bare machines too: none of their steps fails, and the keys they remember
are all that may differ. -/
theorem unseen_input_inert {m : Machine T} {host : σ} {inputs others : List Input}
    (alike : m.SeesAllAlike host inputs others) :
    m.trace host inputs = m.trace host others ∧
      (m.InRange → ∀ held drawn, ∃ steps steps',
        (m.bare held drawn).trace host inputs = .ok steps ∧
          (m.bare held drawn).trace host others = .ok steps' ∧
          List.Forall₂ BareStep.SameButKeys steps steps') := by
  refine ⟨alike.trace, ?_⟩
  intro range held drawn
  exact alike.trace_bare range held held drawn

/-- A program that looks at key 0 and then waits for a key. One run is given keys without a
number, presses while the machine does not wait, and another number for the key that is
delivered at last. -/
theorem unseen_input_inert_wait :
    let m : Machine Rat := start [0xE0, 0x9E, 0xF1, 0x0A] 0
    let tape : Tape Rat := ⟨fun _ => 0, fun _ => 0, 0, 0⟩
    let inputs : List Input := [{ press := some 3 }, {}, {}, { press := some 5 }]
    let others : List Input :=
      [{ keys := fun key => key = 16 }, { press := some (-1) }, { keys := fun key => key < 0 },
        { press := some (-1600000000000000000000011) }]
    m.SeesAllAlike tape inputs others ∧ m.InRange ∧
      m.trace tape inputs = m.trace tape others ∧
      (m.after tape others).1.reg 1 = 5 := by
  intro m tape inputs others
  have alike : m.SeesAllAlike tape inputs others :=
    ⟨⟨by decide, fun waits => absurd waits (by decide +kernel)⟩,
      ⟨by decide, fun waits => absurd waits (by decide +kernel)⟩,
      ⟨by decide, fun _ => .none⟩,
      ⟨by decide, fun _ => .some (by decide)⟩, trivial⟩
  exact ⟨alike, inRange_start _ _, (unseen_input_inert alike).1, by decide +kernel⟩

end Machine

end Chip8
