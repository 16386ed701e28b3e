import Chip8.Machine.Execute

/-!
# Steps

A step delivers a pressed key to a pending wait, is held up if the wait still stands,
and otherwise lets the timers tick and executes the word at the program counter. A
step that is held up asks nothing of the host and changes nothing.
-/

namespace Chip8

/-- The outcome of a step. -/
structure Step (σ T : Type) where
  machine : Machine T
  host : σ
  snapshot : Snapshot
  /-- What happened, in order. -/
  notices : List Notice

namespace Machine

variable {σ T : Type}

/-- Stores the low four bits of a pressed key in the register that waits for it. -/
def resume (m : Machine T) (press : Option Int) : Machine T :=
  match m.wait, press with
  | some x, some key => { m.setReg x (UInt8.ofNat (key % 16).toNat) with wait := none }
  | _, _ => m

/-- A timer after a tick: one less, but it does not fall below zero. -/
def countDown (t : Int) : Int :=
  if 0 < t then t - 1 else t

/-- Counts both timers down if a tick is due. -/
def tickTimers [Instant T] (m : Machine T) (now : T) : Machine T :=
  if Instant.due m.lastTick now then
    { m with delay := countDown m.delay, sound := countDown m.sound, lastTick := now }
  else m

/-- A random byte if the instruction draws one, and zero without asking otherwise. -/
def drawFor [Host σ T] (op : Opcode) (host : σ) : UInt8 × σ :=
  if op.drawsByte then Host.drawByte host else (0, host)

variable [Instant T] [Host σ T]

/-- Ticks the timers and executes the word at the program counter. -/
def proceed (m : Machine T) (host : σ) (keys : Keyboard) : Step σ T :=
  let reading := Host.readClock host
  let m := m.tickTimers reading.1
  let word := m.fetch
  let op := Instruction.decode word
  let chance := drawFor op reading.2
  let effect := m.execute keys chance.1 op
  ⟨effect.machine, chance.2, effect.machine.snapshot effect.redrawn false,
    .executed m.pc word :: effect.notices⟩

/-- One step. -/
def step (m : Machine T) (host : σ) (input : Input) : Step σ T :=
  let m := m.resume input.press
  if m.wait.isSome then ⟨m, host, m.snapshot false true, []⟩
  else m.proceed host input.keys

/-- The steps for a list of inputs, each from where the one before ended. -/
def trace (m : Machine T) (host : σ) : List Input → List (Step σ T)
  | [] => []
  | input :: rest =>
      let s := m.step host input
      s :: s.machine.trace s.host rest

@[simp] theorem trace_nil (m : Machine T) (host : σ) : m.trace host [] = [] := rfl

theorem trace_cons (m : Machine T) (host : σ) (input : Input) (rest : List Input) :
    m.trace host (input :: rest) =
      m.step host input ::
        (m.step host input).machine.trace (m.step host input).host rest := rfl

@[simp] theorem length_trace (m : Machine T) (host : σ) (inputs : List Input) :
    (m.trace host inputs).length = inputs.length := by
  induction inputs generalizing m host with
  | nil => rfl
  | cons input rest ih => simp [trace_cons, ih]

omit [Instant T] in
@[simp] theorem resume_none (m : Machine T) : m.resume none = m := by
  simp only [resume]
  split <;> simp_all

end Machine

end Chip8
