import Chip8.Proofs.Command.Frames
import Chip8.Proofs.Machine.History

/-!
# Waits that are answered

A frame hands the pressed key to its first step only. So a wait that begins in a frame outlives
it: the step that begins it is the last one of the frame that executes anything. One press
answers one wait at most, also over many frames.
-/

namespace Chip8

/-- The steps of a frame after the first get no pressed key. -/
theorem Input.press_frame (input : Input) {n j : Nat} (later : 0 < j)
    (bound : j < (input.frame n).length) : (input.frame n)[j].press = none := by
  cases n with
  | zero => simp [frame] at bound
  | succ more =>
      obtain ⟨i, rfl⟩ : ∃ i, j = i + 1 := ⟨j - 1, by omega⟩
      simp [frame, Machine.laterInputs]

namespace Machine

variable {σ T : Type}

/-- The register whose wait is over as soon as the pressed key of a step is delivered. -/
def answered? (m : Machine T) (input : Input) : Option (Fin 16) :=
  if (m.resume input.press).wait.isNone then m.wait else none

/-- Without a pressed key no wait is answered. -/
theorem answered?_of_silent (m : Machine T) {input : Input} (silent : input.press = none) :
    m.answered? input = none := by
  rw [answered?, silent, resume_none]
  cases m.wait <;> rfl

/-- A pressed key answers the wait that it finds. -/
theorem answered?_of_press (m : Machine T) {input : Input} {key : Int}
    (press : input.press = some key) : m.answered? input = m.wait := by
  rw [answered?, press]
  cases waits : m.wait <;> simp [resume, waits]

variable [Instant T] [Host σ T]

/-- A step that executes a key wait begins the wait and moves on to the next word. -/
theorem step_of_waitKey {m : Machine T} {input : Input} {x : Fin 16}
    (executed : m.executed? input = some (.waitKey x)) (host : σ) :
    (m.step host input).machine =
      { m.prepared host input with pc := (m.pc + 2) % 65536, wait := some x } := by
  obtain ⟨goes, word⟩ : m.isHeld input = false ∧ Instruction.decode m.fetch = .waitKey x := by
    simpa [executed?] using executed
  rw [step_of_not_isHeld goes, effect, word, ← pc_prepared m host input]
  rfl

/-- A machine that waits stands still for as long as no key comes. -/
theorem during_of_waiting {m : Machine T} {host : σ} {inputs : List Input} {k : Nat} {x : Fin 16}
    (waits : (m.during host inputs k).1.wait = some x)
    (silent : ∀ j (bound : j < inputs.length), k ≤ j → inputs[j].press = none)
    {j : Nat} (later : k ≤ j) (bound : j ≤ inputs.length) :
    m.during host inputs j = m.during host inputs k := by
  -- The induction is on the steps since the wait began: each finds the wait that it leaves.
  induction later with
  | refl => rfl
  | @step j later ih =>
      have still := ih (Nat.le_of_succ_le bound)
      have held : (m.during host inputs k).1.isHeld inputs[j] = true := by
        simp [isHeld, waits, silent j bound later]
      rw [during_succ m host bound, still, step_of_isHeld held]

/-- The last of some steps is where they lead. -/
theorem getLastD_trace (first : Step σ T) (inputs : List Input) :
    let last := (first.machine.trace first.host inputs).getLastD first
    (last.machine, last.host) = first.machine.after first.host inputs := by
  induction inputs generalizing first with
  | nil => rfl
  | cons input rest ih =>
      rw [trace_cons, List.getLastD_cons]
      exact ih _

/-- A frame ends where its steps lead. -/
theorem frame_eq_after (m : Machine T) (host : σ) (input : Input) (more : Nat) :
    ((m.frame host input more).machine, (m.frame host input more).host) =
      m.after host (input.frame (more + 1)) :=
  getLastD_trace (m.step host input) (laterInputs input more)

/-- A machine that waits goes through steps without a pressed key as it is. -/
theorem trace_of_waiting {m : Machine T} {x : Fin 16} (waits : m.wait = some x) (host : σ)
    {inputs : List Input} (silent : ∀ input ∈ inputs, input.press = none) :
    m.trace host inputs = List.replicate inputs.length ⟨m, host, m.snapshot false true, []⟩ := by
  induction inputs with
  | nil => rfl
  | cons input rest ih =>
      have held : m.isHeld input = true := by
        simp [isHeld, waits, silent input List.mem_cons_self]
      have still := ih fun later member => silent later (List.mem_cons_of_mem input member)
      rw [trace_cons, step_of_isHeld held, still, List.length_cons, List.replicate_succ]

/-- A machine that waits goes through a frame without a pressed key as it is. -/
theorem frame_of_waiting {m : Machine T} {x : Fin 16} (waits : m.wait = some x) {input : Input}
    (silent : input.press = none) (host : σ) (more : Nat) :
    m.frame host input more = ⟨m, host, ⟨m.display, false, 0 < m.sound, true⟩, []⟩ := by
  have held : m.isHeld input = true := by simp [isHeld, waits, silent]
  have later : ∀ i ∈ laterInputs input more, i.press = none := by
    intro i member
    rw [List.eq_of_mem_replicate member]
  have last (s : Step σ T) (n : Nat) : (List.replicate n s).getLastD s = s := by
    cases n <;> simp [List.getLastD_eq_getLast?, List.getLast?_replicate]
  rw [frame, step_of_isHeld held, trace_of_waiting waits host later, Frame.ofSteps, last]
  simp [snapshot]

/-- Where a key wait begins, a frame stands still from the next step on. -/
theorem during_frame_of_waitKey {m : Machine T} {host : σ} {input : Input} {n k : Nat}
    {x : Fin 16} (bound : k < (input.frame n).length)
    (executed : (m.during host (input.frame n) k).1.executed? (input.frame n)[k] =
      some (.waitKey x))
    {j : Nat} (later : k < j) (within : j ≤ (input.frame n).length) :
    m.during host (input.frame n) j = m.during host (input.frame n) (k + 1) := by
  have waits : (m.during host (input.frame n) (k + 1)).1.wait = some x := by
    rw [during_succ m host bound, step_of_waitKey executed]
  refine during_of_waiting waits ?_ later within
  intro i inside past
  exact input.press_frame (Nat.lt_of_lt_of_le (Nat.succ_pos k) past) inside

/-- The registers whose waits a run answers, in order. -/
def answers (m : Machine T) (host : σ) (inputs : List Input) : List (Fin 16) :=
  m.history (fun m _ input => m.answered? input) host inputs

theorem answers_cons (m : Machine T) (host : σ) (input : Input) (rest : List Input) :
    m.answers host (input :: rest) =
      (m.answered? input).toList ++
        (m.step host input).machine.answers (m.step host input).host rest := rfl

/-- Without a pressed key a run answers no wait. -/
theorem answers_of_silent (m : Machine T) (host : σ) {inputs : List Input}
    (silent : ∀ input ∈ inputs, input.press = none) : m.answers host inputs = [] := by
  induction inputs generalizing m host with
  | nil => rfl
  | cons input rest ih =>
      rw [answers_cons, answered?_of_silent m (silent input List.mem_cons_self),
        ih _ _ fun later member => silent later (List.mem_cons_of_mem _ member)]
      rfl

/-- The steps of a frame answer what its first step answers. -/
theorem answers_frame (m : Machine T) (host : σ) (input : Input) (more : Nat) :
    m.answers host (input.frame (more + 1)) = (m.answered? input).toList := by
  rw [Input.frame, answers_cons, answers_of_silent, List.append_nil]
  intro later member
  rw [List.eq_of_mem_replicate member]

/-- Frames made one after another, each with the registers whose waits it answers. A turn comes
with the number of steps after the first one of its frame. -/
def frames (m : Machine T) (host : σ) : List (Turn σ × Nat) → List (Frame σ T × List (Fin 16))
  | [] => []
  | (turn, more) :: rest =>
      let f := m.frame (turn.pass host) turn.poll.input more
      (f, m.answers (turn.pass host) (turn.poll.input.frame (more + 1))) ::
        f.machine.frames f.host rest

/-- Frames answer no more waits than they are given keys. -/
theorem length_answers_frames (m : Machine T) (host : σ) (turns : List (Turn σ × Nat)) :
    ((m.frames host turns).flatMap Prod.snd).length ≤
      turns.countP fun t => t.1.poll.input.press.isSome := by
  induction turns generalizing m host with
  | nil => simp [frames]
  | cons turn rest ih =>
      obtain ⟨turn, more⟩ := turn
      have later := ih (m.frame (turn.pass host) turn.poll.input more).machine
        (m.frame (turn.pass host) turn.poll.input more).host
      have here : (m.answered? turn.poll.input).toList.length ≤
          if turn.poll.input.press.isSome then 1 else 0 := by
        cases press : turn.poll.input.press with
        | none => simp [answered?_of_silent m press]
        | some key => simp [Option.length_toList_le]
      rw [frames, List.flatMap_cons, List.length_append, answers_frame, List.countP_cons,
        Nat.add_comm]
      exact Nat.add_le_add later here

end Machine

variable {σ T : Type} [Instant T] [Host σ T]

/-- The frames of a session are frames made one after another, up to the first turn that does
not run. -/
theorem Session.frames_run (more : Nat) (m : Machine T) (host : σ) (turns : List (Turn σ)) :
    (run more m host (turns.map Turn.visit)).frames =
      (m.frames host ((turns.takeWhile fun t => t.poll.running).map (·, more))).map Prod.fst := by
  induction turns generalizing m host with
  | nil => rfl
  | cons turn rest ih =>
      cases running : turn.poll.running with
      | false =>
          rw [run_cons_of_not_running running, List.takeWhile_cons_of_neg (by simp [running])]
          rfl
      | true =>
          rw [run_cons_of_running running, List.takeWhile_cons_of_pos (by exact running), ih]
          rfl

namespace Machine

/-- A pressed key answers one wait at most in its frame. A machine in range makes the frame, and
if one of its steps executes a key wait, no later step of the frame executes anything: the frame
leaves what that step left, waiting at the next word. If the machine waits from the start and no
key is pressed, the frame changes nothing; if one is pressed, the first step answers this wait
and the frame answers no other. So frames made one after another, of any number of steps each,
answer no more waits than they are given keys; the frames of a session are such frames. -/
theorem press_answers_one_wait (m : Machine T) (host : σ) (input : Input) (more : Nat) :
    let steps := input.frame (more + 1)
    let before := m.during host steps
    let f := m.frame host input more
    (m.InRange → m.frame? host input (more + 1 : Nat) = .ok f) ∧
      (∀ k x (_ : k < steps.length), (before k).1.executed? steps[k] = some (.waitKey x) →
        (∀ j (_ : j < steps.length), k < j → (before j).1.executed? steps[j] = none) ∧
          (f.machine, f.host) = before (k + 1) ∧ f.machine.wait = some x ∧
          f.machine.pc = ((before k).1.pc + 2) % 65536) ∧
      (∀ x, m.wait = some x → input.press = none →
        f = ⟨m, host, ⟨m.display, false, 0 < m.sound, true⟩, []⟩) ∧
      (∀ x key, m.wait = some x → input.press = some key →
        m.answered? input = some x ∧ m.answers host steps = [x]) ∧
      (∀ turns : List (Turn σ × Nat),
        ((m.frames host turns).flatMap Prod.snd).length ≤
          turns.countP fun t => t.1.poll.input.press.isSome) ∧
      ∀ (rate : Int) (turns : List (Turn σ)),
        (Session.runAt rate m host (turns.map Turn.visit)).frames =
          (m.frames host ((turns.takeWhile fun t => t.poll.running).map
            (·, cyclesPerFrame rate - 1))).map Prod.fst := by
  intro steps before f
  have final : (f.machine, f.host) = before steps.length :=
    (frame_eq_after m host input more).trans (m.during_length host steps).symm
  refine ⟨fun range => range.frame? host input rfl, ?_, ?_, ?_,
    m.length_answers_frames host, fun rate => Session.frames_run _ m host⟩
  · intro k x bound executed
    have still : ∀ {j}, k < j → j ≤ steps.length → before j = before (k + 1) := fun later within =>
      during_frame_of_waitKey bound executed later within
    have next : (before (k + 1)).1 = _ :=
      congrArg Prod.fst (m.during_succ host bound)
    rw [step_of_waitKey executed] at next
    have left : (f.machine, f.host) = before (k + 1) := final.trans (still bound (Nat.le_refl _))
    have machine : f.machine = (before (k + 1)).1 := congrArg Prod.fst left
    refine ⟨?_, left, ?_, ?_⟩
    · intro j within later
      have silent : steps[j].press = none := input.press_frame (by omega) within
      rw [still later (Nat.le_of_lt within), executed?, next]
      simp [isHeld, silent]
    · rw [machine, next]
    · rw [machine, next]
  · intro x waits silent
    exact frame_of_waiting waits silent host more
  · intro x key waits press
    have answer : m.answered? input = some x := by rw [m.answered?_of_press press, waits]
    refine ⟨answer, ?_⟩
    rw [answers_frame, answer]
    rfl

end Machine

end Chip8
