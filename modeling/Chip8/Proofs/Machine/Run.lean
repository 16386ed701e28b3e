import Chip8.Proofs.Machine.Footprint

/-!
# Steps in stages and runs

A step is held up, or it prepares the machine (a key is delivered, the timers tick) and
then executes one instruction. A run is a list of inputs; `after` is where it leads, and
`during` is the machine before its step number `k`. What every step keeps, every run keeps.
-/

namespace Chip8.Machine

variable {σ T : Type}

/-- Whether a step finds the machine waiting and brings no key. -/
def isHeld (m : Machine T) (input : Input) : Bool :=
  m.wait.isSome && input.press.isNone

/-- The instruction that a step executes, unless it is held up. -/
def executed? (m : Machine T) (input : Input) : Option Opcode :=
  if m.isHeld input then none else some (Instruction.decode m.fetch)

theorem isSome_wait_resume (m : Machine T) (input : Input) :
    (m.resume input.press).wait.isSome = m.isHeld input := by
  cases hw : m.wait <;> cases hp : input.press <;> simp [resume, isHeld, hw, hp]

/-- A delivered key touches the registers and the wait. -/
theorem resume_eq (m : Machine T) (press : Option Int) :
    m.resume press =
      { m with
        registers := (m.resume press).registers
        wait := (m.resume press).wait } := by
  unfold resume
  split <;> rfl

variable [Instant T]

/-- A tick touches the timers and its own instant. -/
theorem tickTimers_eq (m : Machine T) (now : T) :
    m.tickTimers now =
      { m with
        delay := (m.tickTimers now).delay
        sound := (m.tickTimers now).sound
        lastTick := (m.tickTimers now).lastTick } := by
  unfold tickTimers
  split <;> rfl

variable [Host σ T]

/-- The machine that executes the instruction of a step: a pressed key is delivered and
the timers have ticked. -/
def prepared (m : Machine T) (host : σ) (input : Input) : Machine T :=
  (m.resume input.press).tickTimers (Host.readClock host).1

@[simp] theorem pc_prepared (m : Machine T) (host : σ) (input : Input) :
    (m.prepared host input).pc = m.pc := by
  rw [prepared, tickTimers_eq, resume_eq]

@[simp] theorem index_prepared (m : Machine T) (host : σ) (input : Input) :
    (m.prepared host input).index = m.index := by
  rw [prepared, tickTimers_eq, resume_eq]

@[simp] theorem stack_prepared (m : Machine T) (host : σ) (input : Input) :
    (m.prepared host input).stack = m.stack := by
  rw [prepared, tickTimers_eq, resume_eq]

@[simp] theorem memory_prepared (m : Machine T) (host : σ) (input : Input) :
    (m.prepared host input).memory = m.memory := by
  rw [prepared, tickTimers_eq, resume_eq]

@[simp] theorem display_prepared (m : Machine T) (host : σ) (input : Input) :
    (m.prepared host input).display = m.display := by
  rw [prepared, tickTimers_eq, resume_eq]

/-- Neither a delivered key nor a tick changes the word that is executed. -/
@[simp] theorem fetch_prepared (m : Machine T) (host : σ) (input : Input) :
    (m.prepared host input).fetch = m.fetch := by
  simp [fetch]

/-- The random byte of a step and the host after the clock was read and the byte drawn. -/
def drawn (m : Machine T) (host : σ) : UInt8 × σ :=
  drawFor (Instruction.decode m.fetch) (Host.readClock host).2

/-- What the instruction of a step does, if the step is not held up. -/
def effect (m : Machine T) (host : σ) (input : Input) : Effect T :=
  (m.prepared host input).execute input.keys (m.drawn host).1 (Instruction.decode m.fetch)

/-- A step that is held up changes nothing and asks nothing of the host. -/
theorem step_of_isHeld {m : Machine T} {input : Input} (h : m.isHeld input = true)
    (host : σ) : m.step host input = ⟨m, host, m.snapshot false true, []⟩ := by
  obtain ⟨waits, unpressed⟩ : m.wait.isSome = true ∧ input.press = none := by
    simpa [isHeld] using h
  simp [step, unpressed, waits]

/-- Any other step executes the word at the program counter. -/
theorem step_of_not_isHeld {m : Machine T} {input : Input} (h : m.isHeld input = false)
    (host : σ) :
    m.step host input =
      ⟨(m.effect host input).machine, (m.drawn host).2,
        (m.effect host input).machine.snapshot (m.effect host input).redrawn false,
        .executed m.pc m.fetch :: (m.effect host input).notices⟩ := by
  have goes : (m.resume input.press).wait.isSome = false := by rw [isSome_wait_resume, h]
  have word := fetch_prepared m host input
  have address := pc_prepared m host input
  simp only [prepared] at word address
  simp only [step, goes, Bool.false_eq_true, if_false, proceed, effect, prepared, drawn,
    word, address]

/-- The machine and the host after the steps for a list of inputs. -/
def after (m : Machine T) (host : σ) : List Input → Machine T × σ
  | [] => (m, host)
  | input :: rest => (m.step host input).machine.after (m.step host input).host rest

/-- The machine and the host before step number `k` of a run. -/
def during (m : Machine T) (host : σ) (inputs : List Input) (k : Nat) : Machine T × σ :=
  m.after host (inputs.take k)

@[simp] theorem after_nil (m : Machine T) (host : σ) : m.after host [] = (m, host) := rfl

theorem after_cons (m : Machine T) (host : σ) (input : Input) (rest : List Input) :
    m.after host (input :: rest) =
      (m.step host input).machine.after (m.step host input).host rest := rfl

theorem after_append (m : Machine T) (host : σ) (first rest : List Input) :
    m.after host (first ++ rest) =
      (m.after host first).1.after (m.after host first).2 rest := by
  induction first generalizing m host with
  | nil => rfl
  | cons input first ih => simp only [List.cons_append, after_cons, ih]

@[simp] theorem during_zero (m : Machine T) (host : σ) (inputs : List Input) :
    m.during host inputs 0 = (m, host) := rfl

@[simp] theorem during_length (m : Machine T) (host : σ) (inputs : List Input) :
    m.during host inputs inputs.length = m.after host inputs := by
  rw [during, List.take_length]

/-- Step number `k` leads from the machine before it to the machine before the next. -/
theorem during_succ (m : Machine T) (host : σ) {inputs : List Input} {k : Nat}
    (h : k < inputs.length) :
    m.during host inputs (k + 1) =
      (((m.during host inputs k).1.step (m.during host inputs k).2 inputs[k]).machine,
        ((m.during host inputs k).1.step (m.during host inputs k).2 inputs[k]).host) := by
  simp only [during, List.take_succ_eq_append_getElem h, after_append, after_cons, after_nil]

/-- What holds at the start and is kept by every step holds after every run. -/
theorem after_of_step {P : Machine T → Prop}
    (kept : ∀ (m : Machine T) (host : σ) (input : Input), P m → P (m.step host input).machine)
    {m : Machine T} (start : P m) (host : σ) (inputs : List Input) :
    P (m.after host inputs).1 := by
  induction inputs generalizing m host with
  | nil => exact start
  | cons input rest ih => exact ih (kept m host input start) _

/-- What holds at the start and is kept by every step holds of every machine of a run. -/
theorem forall_trace_of_step {P : Machine T → Prop}
    (kept : ∀ (m : Machine T) (host : σ) (input : Input), P m → P (m.step host input).machine)
    {m : Machine T} (start : P m) (host : σ) (inputs : List Input) :
    ∀ s ∈ m.trace host inputs, P s.machine := by
  induction inputs generalizing m host with
  | nil => simp
  | cons input rest ih =>
      intro s hs
      rw [trace_cons] at hs
      obtain rfl | later := List.mem_cons.1 hs
      · exact kept m host input start
      · exact ih (kept m host input start) _ s later

/-- What holds of a first step and is kept by every further one holds of the last step. -/
theorem getLastD_trace_of_step {P : Step σ T → Prop}
    (kept : ∀ (s : Step σ T) (input : Input), P s → P (s.machine.step s.host input))
    {first : Step σ T} (start : P first) (inputs : List Input) :
    P ((first.machine.trace first.host inputs).getLastD first) := by
  induction inputs generalizing first with
  | nil => exact start
  | cons input rest ih =>
      rw [trace_cons, List.getLastD_cons]
      exact ih (kept first input start)

end Chip8.Machine
