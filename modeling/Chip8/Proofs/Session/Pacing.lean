import Chip8.Proofs.Session.Flat

/-!
# The pace of a session

The rate of a session decides how many steps a frame has, and that is all it decides. Two
sessions in which the same inputs are given to the steps, the clock shows the same instants and
the same random bytes are drawn leave the same machine, however they are cut into frames.
-/

namespace Chip8

namespace Request

/-- The input of a step that is asked for. -/
def input? : Request → Option Input
  | .step input => some input
  | _ => none

/-- The snapshot that is to be shown. -/
def snapshot? : Request → Option Snapshot
  | .follow snapshot => some snapshot
  | _ => none

/-- The rate that a pause keeps to. -/
def rate? : Request → Option Int
  | .tick rate => some rate
  | _ => none

/-- Whether a poll is asked for. -/
def isPoll : Request → Bool
  | .poll => true
  | _ => false

end Request

variable {σ T α : Type}

/-- The calls for all turns up to the first one that does not run. -/
def Turn.callsAt (rate : Int) (turns : List (Turn σ)) : List (Call σ) :=
  (turns.takeWhile fun t => t.poll.running).flatMap fun t => t.calls (cyclesPerFrame rate)

theorem cyclesPerFrame_eq (rate : Int) : (cyclesPerFrame rate : Int) = max 1 (rate / 60) := by
  unfold cyclesPerFrame
  omega

theorem cyclesPerFrame_pos (rate : Int) : 0 < cyclesPerFrame rate :=
  Nat.lt_of_lt_of_le Nat.zero_lt_one (Nat.le_max_left 1 _)

theorem Turn.length_calls (turn : Turn σ) (n : Nat) : (turn.calls n).length = n := by
  rw [← List.length_map, map_input_calls, Input.length_frame]

/-- Every turn that is taken has as many calls as the rate asks for. -/
theorem Turn.length_callsAt (rate : Int) (turns : List (Turn σ)) :
    (callsAt rate turns).length =
      (turns.takeWhile fun t => t.poll.running).length * cyclesPerFrame rate := by
  rw [callsAt, List.length_flatMap]
  simp [Turn.length_calls]

namespace Machine

/-- The machine that some calls leave, also if one of them broke off. -/
def leftIn (m : Machine T) (host : σ) :
    Except (Breakdown σ T) (List (Step σ T)) → Machine T
  | .error b => b.machine
  | .ok steps => (m.leftBy host steps).1

variable [Instant T] [Host σ T]

/-- The random byte that a step draws. -/
def draw? (m : Machine T) (host : σ) (input : Input) : Option UInt8 :=
  if m.isHeld input || !(Instruction.decode m.fetch).drawsByte then none
  else some (m.drawn host).1

/-- What some calls note in turn, up to one that breaks off. -/
def noted (note : Machine T → σ → Input → Option α) (m : Machine T) (host : σ) :
    List (Call σ) → List α
  | [] => []
  | call :: rest =>
      (note m (call.pass host) call.input).toList ++
        match m.step? (call.pass host) call.input with
        | .error _ => []
        | .ok s => s.machine.noted note s.host rest

/-- The machine that calls leave is told step by step. -/
theorem leftIn_flat?_cons (m : Machine T) (host : σ) (call : Call σ) (rest : List (Call σ)) :
    m.leftIn host (m.flat? host (call :: rest)) =
      match m.step? (call.pass host) call.input with
      | .error b => b.machine
      | .ok s => s.machine.leftIn s.host (s.machine.flat? s.host rest) := by
  rw [flat?]
  cases m.step? (call.pass host) call.input with
  | error b => rfl
  | ok s =>
      simp only []
      cases s.machine.flat? s.host rest <;> rfl

/-- A step that is held up does not break off. -/
theorem step?_of_isHeld {m : Machine T} {input : Input} (h : m.isHeld input = true) (host : σ) :
    m.step? host input = .ok ⟨m, host, m.snapshot false true, []⟩ := by
  have none : m.breakdown? host input = none := by
    rw [breakdown?]
    simp only [isSome_wait_resume, h, if_true]
  rw [step?, none, step_of_isHeld h]

/-- Any other step breaks off if its instruction cannot be executed. -/
theorem step?_of_not_isHeld {m : Machine T} {input : Input} (h : m.isHeld input = false)
    (host : σ) :
    m.step? host input =
      if (m.prepared host input).canExecute (Instruction.decode m.fetch) then
        .ok (m.step host input)
      else .error ⟨m.prepared host input, (Host.readClock host).2⟩ := by
  have word := fetch_prepared m host input
  rw [prepared] at word
  have off : m.breakdown? host input =
      if (m.prepared host input).canExecute (Instruction.decode m.fetch) then none
      else some ⟨m.prepared host input, (Host.readClock host).2⟩ := by
    simp only [breakdown?, isSome_wait_resume, h, Bool.false_eq_true, if_false, word, prepared]
    rfl
  rw [step?, off]
  by_cases can : (m.prepared host input).canExecute (Instruction.decode m.fetch) = true
  · rw [if_pos can, if_pos can]
  · rw [if_neg can, if_neg can]

section Congr

variable {m : Machine T} {host other : σ} {input : Input}

omit [Instant T] in
theorem isSome_reading? : (m.reading? host input).isSome = !m.isHeld input := by
  cases held : m.isHeld input <;> simp [reading?, held]

omit [Instant T] in
theorem isSome_draw? :
    (m.draw? host input).isSome =
      (!m.isHeld input && (Instruction.decode m.fetch).drawsByte) := by
  cases held : m.isHeld input <;> cases draws : (Instruction.decode m.fetch).drawsByte <;>
    simp [draw?, held, draws]

omit [Instant T] in
/-- The byte of a step is the one it draws, or zero. -/
theorem drawn_fst (held : m.isHeld input = false) :
    (m.drawn host).1 = (m.draw? host input).getD 0 := by
  cases draws : (Instruction.decode m.fetch).drawsByte <;>
    simp [draw?, held, draws, drawn, drawFor]

/-- A step is told by what it reads and draws, up to the host. -/
theorem step?_congr (readings : m.reading? host input = m.reading? other input)
    (draws : m.draw? host input = m.draw? other input) :
    (∃ b c, m.step? host input = .error b ∧ m.step? other input = .error c ∧
        b.machine = c.machine) ∨
      ∃ s t, m.step? host input = .ok s ∧ m.step? other input = .ok t ∧
        s.machine = t.machine := by
  cases held : m.isHeld input with
  | true =>
      exact .inr ⟨_, _, step?_of_isHeld held host, step?_of_isHeld held other, rfl⟩
  | false =>
      have now : (Host.readClock host).1 = (Host.readClock other).1 := by
        simpa [reading?, held] using readings
      have prepared : m.prepared host input = m.prepared other input := by
        rw [Machine.prepared, Machine.prepared, now]
      have chance : (m.drawn host).1 = (m.drawn other).1 := by
        rw [drawn_fst held, drawn_fst held, draws]
      rw [step?_of_not_isHeld held, step?_of_not_isHeld held, prepared]
      by_cases can : (m.prepared other input).canExecute (Instruction.decode m.fetch) = true
      · rw [if_pos can, if_pos can]
        refine .inr ⟨_, _, rfl, rfl, ?_⟩
        rw [step_of_not_isHeld held, step_of_not_isHeld held, effect, effect, prepared, chance]
      · rw [if_neg can, if_neg can]
        exact .inl ⟨_, _, rfl, rfl, rfl⟩

end Congr

/-- Lists that begin alike with at most one entry go on alike. -/
theorem toList_append_inj {a b : Option α} {xs ys : List α} (same : a.isSome = b.isSome)
    (h : a.toList ++ xs = b.toList ++ ys) : a = b ∧ xs = ys := by
  cases a <;> cases b <;> simp_all

/-- Calls with the same inputs, for which the clock shows the same instants and the same random
bytes are drawn, leave the same machine. -/
theorem leftIn_flat?_congr {m : Machine T} {host other : σ} {calls others : List (Call σ)}
    (inputs : calls.map Call.input = others.map Call.input)
    (readings : m.noted reading? host calls = m.noted reading? other others)
    (draws : m.noted draw? host calls = m.noted draw? other others) :
    m.leftIn host (m.flat? host calls) = m.leftIn other (m.flat? other others) := by
  induction calls generalizing m host other others with
  | nil =>
      cases others with
      | nil => rfl
      | cons call rest => cases inputs
  | cons call rest ih =>
      cases others with
      | nil => cases inputs
      | cons call' rest' =>
          have here : call.input = call'.input := (List.cons.inj inputs).1
          have later : rest.map Call.input = rest'.map Call.input := (List.cons.inj inputs).2
          rw [noted, noted, here] at readings draws
          obtain ⟨reading, readings⟩ := toList_append_inj
            (by rw [isSome_reading?, isSome_reading?]) readings
          obtain ⟨draw, draws⟩ := toList_append_inj (by rw [isSome_draw?, isSome_draw?]) draws
          rw [leftIn_flat?_cons, leftIn_flat?_cons, here]
          obtain ⟨b, c, off, off', same⟩ | ⟨s, t, on, on', same⟩ := step?_congr reading draw
          · rw [off, off']
            exact same
          · simp only [on, on', same] at readings draws ⊢
            exact ih later readings draws

/-- A step keeps a delay timer that holds a byte. -/
theorem isCount_delay_step {m : Machine T} (h : IsCount m.delay) (host : σ) (input : Input) :
    IsCount (m.step host input).machine.delay := by
  cases held : m.isHeld input with
  | true =>
      rw [step_of_isHeld held]
      exact h
  | false =>
      have resumed : IsCount (m.resume input.press).delay := by
        rw [delay_resume]
        exact h
      have prepared : IsCount (m.prepared host input).delay := by
        rw [Machine.prepared, tickTimers]
        split
        · exact isCount_countDown resumed
        · exact resumed
      rw [step_of_not_isHeld held]
      exact isCount_delay_execute input.keys _ _ prepared

/-- If the delay timer holds a byte, no call breaks off. -/
theorem flat?_of_isCount {m : Machine T} (h : IsCount m.delay) (host : σ)
    (calls : List (Call σ)) : ∃ steps, m.flat? host calls = .ok steps := by
  induction calls generalizing m host with
  | nil => exact ⟨[], rfl⟩
  | cons call rest ih =>
      have byte : 0 ≤ m.delay ∧ m.delay < 256 := ⟨h.1, Int.lt_add_one_of_le h.2⟩
      obtain ⟨steps, later⟩ := ih (isCount_delay_step h (call.pass host) call.input)
        (m.step (call.pass host) call.input).host
      refine ⟨m.step (call.pass host) call.input :: steps, ?_⟩
      simp only [flat?, step?_of_byte byte, later]
      rfl

end Machine

/-- A session whose polls are not interrupted ends at the first one that does not run. -/
theorem Session.ending_run [Instant T] [Host σ T] (more : Nat) (m : Machine T) (host : σ)
    (turns : List (Turn σ)) :
    let session := run more m host (turns.map Turn.visit)
    session.ending = .quit ∧
      session.left = turns.length - ((turns.takeWhile fun t => t.poll.running).length + 1) := by
  induction turns generalizing m host with
  | nil => exact ⟨rfl, rfl⟩
  | cons turn rest ih =>
      cases running : turn.poll.running with
      | false =>
          rw [run_cons_of_not_running running]
          simp [running]
      | true =>
          rw [run_cons_of_running running, List.takeWhile_cons_of_pos (by exact running)]
          obtain ⟨ending, left⟩ := ih (m.frame (turn.pass host) turn.poll.input more).machine
            (m.frame (turn.pass host) turn.poll.input more).host
          refine ⟨ending, left.trans ?_⟩
          rw [List.length_cons, List.length_cons]
          omega

namespace Driver

/-- The machine that a driver leaves, also if a step broke off. -/
def machineLeft : Except (FrameError σ T) (Driver σ T) → Option (Machine T)
  | .error .noSteps => none
  | .error (.breakdown b) => some b.machine
  | .ok d => some d.machine

/-- A driver has gone through turns: it asked for what they need, and for one poll more. -/
structure Made (d : Driver σ T) (c : Nat) (taken : List (Turn σ)) (frames : List (Frame σ T))
    (steps : List (Step σ T)) : Prop where
  /-- Each turn has its frame. -/
  complete : frames.length = taken.length
  /-- Each frame sums up its share of the steps. -/
  chunks : ∃ chunks, steps = chunks.flatten ∧ List.Forall₂ (Frame.SumsUp c) frames chunks
  requests : d.requests =
    ((taken.zip frames).flatMap fun p => requestsFor c p.1 p.2) ++ [.poll]
  /-- The steps get the inputs of the calls. -/
  inputs : d.requests.filterMap Request.input? =
    (taken.flatMap fun t => t.calls c).map Call.input
  snapshots : d.requests.filterMap Request.snapshot? = frames.map fun f => f.snapshot
  rates : d.requests.filterMap Request.rate? = List.replicate taken.length 60
  polls : d.requests.countP Request.isPoll = taken.length + 1

section Requests

variable (c : Nat) (turn : Turn σ) (f : Frame σ T)

theorem filterMap_input?_requestsFor :
    (requestsFor c turn f).filterMap Request.input? = turn.poll.input.frame c := by
  simp [requestsFor, List.filterMap_cons, List.filterMap_map, Function.comp_def, Request.input?]

theorem filterMap_snapshot?_requestsFor :
    (requestsFor c turn f).filterMap Request.snapshot? = [f.snapshot] := by
  simp [requestsFor, List.filterMap_cons, List.filterMap_map, Function.comp_def,
    Request.snapshot?]

theorem filterMap_rate?_requestsFor :
    (requestsFor c turn f).filterMap Request.rate? = [60] := by
  simp [requestsFor, List.filterMap_cons, List.filterMap_map, Function.comp_def, Request.rate?]

theorem countP_isPoll_requestsFor : (requestsFor c turn f).countP Request.isPoll = 1 := by
  simp [requestsFor, List.countP_cons, List.countP_map, Function.comp_def, Request.isPoll]

end Requests

/-- What is asked for in some turns, by kind. -/
theorem requests_by_kind (c : Nat) {taken : List (Turn σ)} {frames : List (Frame σ T)}
    (h : frames.length = taken.length) :
    let asked := (taken.zip frames).flatMap fun p => requestsFor c p.1 p.2
    asked.filterMap Request.input? = (taken.flatMap fun t => t.calls c).map Call.input ∧
      asked.filterMap Request.snapshot? = frames.map (fun f => f.snapshot) ∧
      asked.filterMap Request.rate? = List.replicate taken.length 60 ∧
      asked.countP Request.isPoll = taken.length := by
  induction taken generalizing frames with
  | nil =>
      obtain rfl := List.length_eq_zero_iff.1 h
      exact ⟨rfl, rfl, rfl, rfl⟩
  | cons turn taken ih =>
      cases frames with
      | nil => cases h
      | cons f frames =>
          obtain ⟨inputs, snapshots, rates, polls⟩ := ih (Nat.succ.inj h)
          simp only [List.zip_cons_cons, List.flatMap_cons, List.filterMap_append,
            List.countP_append, filterMap_input?_requestsFor, filterMap_snapshot?_requestsFor,
            filterMap_rate?_requestsFor, countP_isPoll_requestsFor, inputs, snapshots, rates,
            polls]
          refine ⟨?_, rfl, rfl, Nat.add_comm 1 _⟩
          rw [List.map_append, Turn.map_input_calls]

variable [Instant T] [Host σ T]

/-- A driver runs at a rate as its flat list of calls does. -/
theorem run_agrees (m : Machine T) (host : σ) (rate : Int) (turns : List (Turn σ)) :
    Agrees (cyclesPerFrame rate) m host [] (turns.takeWhile fun t => t.poll.running)
      (Session.runAt rate m host (turns.map Turn.visit))
      (m.flat? host (Turn.callsAt rate turns)) (run rate m host turns) := by
  have split : cyclesPerFrame rate - 1 + 1 = cyclesPerFrame rate :=
    Nat.sub_add_cancel (cyclesPerFrame_pos rate)
  have flat := loop_flat (cyclesPerFrame rate - 1) turns m host []
  rw [split, cyclesPerFrame_eq] at flat
  exact flat

omit [Instant T] [Host σ T] in
/-- A driver leaves the machine that the calls leave. -/
theorem Agrees.machineLeft {c : Nat} {m : Machine T} {host : σ} {earlier : List Request}
    {taken : List (Turn σ)} {session : Session σ T}
    {flat : Except (Breakdown σ T) (List (Step σ T))} {ran : Except (FrameError σ T) (Driver σ T)}
    (h : Agrees c m host earlier taken session flat ran) :
    Driver.machineLeft ran = some (m.leftIn host flat) := by
  cases h with
  | brokeOff b => rfl
  | made chunks summed frames left => exact congrArg some left.symm

omit [Instant T] [Host σ T] in
/-- A driver that was not broken off has gone through its turns. -/
theorem Agrees.made_of_ok {c : Nat} {m : Machine T} {host : σ} {taken : List (Turn σ)}
    {session : Session σ T} {steps : List (Step σ T)} {ran : Except (FrameError σ T) (Driver σ T)}
    (h : Agrees c m host [] taken session (.ok steps) ran) :
    ∃ d, ran = .ok d ∧ d.Made c taken session.frames steps ∧ d.machine = session.machine ∧
      (m.leftBy host steps).1 = session.machine := by
  cases h with
  | made chunks summed frames left =>
      obtain ⟨inputs, snapshots, rates, polls⟩ := requests_by_kind c frames
      refine ⟨_, rfl, ?_, rfl, left⟩
      exact {
        complete := frames
        chunks := ⟨chunks, rfl, summed⟩
        requests := rfl
        inputs := by simp [inputs, Request.input?]
        snapshots := by simp [snapshots, Request.snapshot?]
        rates := by simp [rates, Request.rate?]
        polls := by simp [polls, Request.isPoll] }

/-- A driver makes a flat sequence of steps, whatever the machine and the rate. Up to the first
turn that does not run, each turn has `c` calls, at least one; the first of them gets the
pressed key, and all of them get the keys of the turn. If a call breaks off, so does the driver;
otherwise it asks for one poll, `c` steps, one snapshot and one pause in each turn, for one poll
more, and for nothing else, and its frames sum up their steps. A frame never has no steps, and
no call breaks off if the delay timer holds a byte. Rates that lead to the same inputs, clock
readings and random bytes leave the same machine. -/
theorem run_flat (m : Machine T) (host : σ) (rate : Int) (turns : List (Turn σ)) :
    let c := cyclesPerFrame rate
    let taken := turns.takeWhile fun t => t.poll.running
    let calls := Turn.callsAt rate turns
    let session := Session.runAt rate m host (turns.map Turn.visit)
    (c : Int) = max 1 (rate / 60) ∧ calls.length = taken.length * c ∧
      run rate m host turns ≠ .error .noSteps ∧
      (IsCount m.delay → ∃ steps, m.flat? host calls = .ok steps) ∧
      (∀ b, m.flat? host calls = .error b → run rate m host turns = .error (.breakdown b)) ∧
      (∀ steps, m.flat? host calls = .ok steps →
        ∃ d, run rate m host turns = .ok d ∧ d.Made c taken session.frames steps ∧
          d.machine = session.machine ∧ (m.leftBy host steps).1 = session.machine) ∧
      session.ending = .quit ∧ session.left = turns.length - (taken.length + 1) ∧
      ∀ (host' : σ) (rate' : Int) (turns' : List (Turn σ)),
        let calls' := Turn.callsAt rate' turns'
        calls'.map Call.input = calls.map Call.input →
        m.noted Machine.reading? host' calls' = m.noted Machine.reading? host calls →
        m.noted Machine.draw? host' calls' = m.noted Machine.draw? host calls →
        machineLeft (run rate' m host' turns') = machineLeft (run rate m host turns) := by
  intro c taken calls session
  have agrees := run_agrees m host rate turns
  have ended := Session.ending_run (c - 1) m host turns
  refine ⟨cyclesPerFrame_eq rate, Turn.length_callsAt rate turns, ?_,
    fun byte => Machine.flat?_of_isCount byte host calls, ?_, ?_, ended.1, ended.2, ?_⟩
  · intro none
    have left := agrees.machineLeft
    rw [none] at left
    cases left
  · intro b off
    rw [off] at agrees
    generalize run rate m host turns = ran at agrees
    cases agrees with
    | brokeOff b => rfl
  · intro steps on
    rw [on] at agrees
    exact agrees.made_of_ok
  · intro host' rate' turns' calls' inputs readings draws
    rw [agrees.machineLeft, (run_agrees m host' rate' turns').machineLeft,
      Machine.leftIn_flat?_congr inputs readings draws]

/-- A program that counts in register 0. Two turns of one step do what one turn of two steps
does; the turn after the one that stops is left over. -/
theorem run_flat_counter :
    let m : Machine Rat := Machine.start [0x70, 0x01, 0x70, 0x01] 0
    let tape : Tape Rat := ⟨fun n => n, fun _ => 0, 0, 0⟩
    let pressed : Turn (Tape Rat) := ⟨id, ⟨{ press := some 7 }, true⟩⟩
    let free : Turn (Tape Rat) := ⟨id, ⟨{}, true⟩⟩
    let stop : Turn (Tape Rat) := ⟨id, ⟨{}, false⟩⟩
    (∃ d, run 60 m tape [pressed, free, stop, free] = .ok d ∧
        d.requests.countP Request.isPoll = 3 ∧ d.machine.reg 0 = 2) ∧
      machineLeft (run 120 m tape [pressed, stop]) =
        machineLeft (run 60 m tape [pressed, free, stop, free]) := by
  intro m tape pressed free stop
  obtain ⟨-, -, -, whole, -, made, -, -, alike⟩ :=
    run_flat m tape 60 [pressed, free, stop, free]
  have byte : IsCount m.delay := ⟨by decide, by decide⟩
  obtain ⟨steps, on⟩ := whole byte
  obtain ⟨d, ran, asked, machine, -⟩ := made steps on
  refine ⟨⟨d, ran, asked.polls, ?_⟩, ?_⟩
  · rw [machine]
    decide +kernel
  · exact alike tape 120 [pressed, stop] rfl (by decide +kernel) (by decide +kernel)

end Driver

end Chip8
