import Chip8.Proofs.Bare.Legal
import Chip8.Proofs.Command.Course
import Chip8.Proofs.Console.KeyHistory
import Chip8.Proofs.Session.Pacing

/-!
# The loop of frames

The loop polls, makes a frame, shows it and pauses, until a poll asks to stop or is interrupted.
On a started machine no frame fails, so the loop goes through the frames of a session. What it
does is put down as a list, from which the log, the output and the pictures are read off.
-/

namespace Chip8

namespace Machine

variable {σ T : Type} [Instant T] [Host σ T] {m : Machine T}

/-- A machine in range makes every frame that has a step. -/
theorem InRange.frame? (h : m.InRange) (host : σ) (input : Input) {cycles : Int} {more : Nat}
    (count : cycles.toNat = more + 1) :
    m.frame? host input cycles = .ok (m.frame host input more) := by
  have first := step?_of_byte h.delay_byte host input
  have rest := (h.step host input).trace? (m.step host input).host (laterInputs input more)
  rw [Machine.frame?, count]
  simp only [first, rest]
  rfl

/-- A frame keeps all ranges. -/
theorem InRange.frame (h : m.InRange) (host : σ) (input : Input) (more : Nat) :
    (m.frame host input more).machine.InRange := by
  apply getLastD_trace_of_step (P := fun s => s.machine.InRange)
  · intro s input range
    exact range.step s.host input
  · exact h.step host input

end Machine

namespace Happening

variable {σ : Type}

/-- Whether a poll lets the run go on: it is not interrupted, and no event asks to stop. -/
def goesOn : Happening σ → Bool
  | .events _ reported => !reported.any KeyEvent.stops
  | .interrupt => false

def isInterrupt : Happening σ → Bool
  | .events _ _ => false
  | .interrupt => true

/-- How a script ends a run: by its first poll that does not let the run go on. A script without
such a poll is followed by one that asks to stop. -/
def ending (script : List (Happening σ)) : Ending :=
  if (script.find? fun h => !h.goesOn).any isInterrupt then .interrupted else .quit

end Happening

/-- A poll goes on running if no event asks to stop. -/
theorem Keypad.running_poll_eq (p : Keypad) (events : List KeyEvent) :
    (p.poll events).running = !events.any KeyEvent.stops := by
  have stopped := p.running_poll events
  cases running : (p.poll events).running with
  | false => simpa using stopped.1 running
  | true =>
    rw [running] at stopped
    simpa using stopped

namespace Session

variable {σ T : Type} [Instant T] [Host σ T]

/-- A session makes a frame for each poll that lets it go on, up to the first one that does not,
and ends as that one tells. -/
theorem run_visits (more : Nat) (m : Machine T) (host : σ) (pad : Keypad)
    (script : List (Happening σ)) :
    (run more m host (pad.visits script)).frames.length =
        (script.takeWhile Happening.goesOn).length ∧
      (run more m host (pad.visits script)).ending = Happening.ending script := by
  induction script generalizing m host pad with
  | nil => exact ⟨rfl, rfl⟩
  | cons happening rest ih =>
      cases happening with
      | interrupt => exact ⟨rfl, rfl⟩
      | events pass events =>
          have running := pad.running_poll_eq events
          have goes : (Happening.events pass events).goesOn = (pad.poll events).running :=
            running.symm
          cases on : (pad.poll events).running with
          | false =>
              rw [on] at goes
              simp [Keypad.visits, run, on, goes, Happening.ending, Happening.isInterrupt]
          | true =>
              rw [on] at goes
              simp [Keypad.visits, run, on, goes, Happening.ending, ih]

end Session

namespace Command

variable {σ T : Type}

/-- What is done about some frames: for each a poll, the steps' log, the picture and a pause. -/
def turns (c : Console) : List (Frame σ T) → List (Deed σ T)
  | [] => []
  | f :: rest =>
      let next := c.follow f.snapshot
      [.polled] ++ (f.notices.map Notice.entry).map .logged ++
        [.shown f next.1.window next.2, .paused] ++ turns next.1 rest

/-- Log entries are read off as what they are, and as nothing else. -/
theorem readings_logged (entries : List LogEntry) :
    let deeds : List (Deed σ T) := entries.map .logged
    deeds.filterMap Deed.entry? = entries ∧ deeds.filterMap Deed.text? = [] ∧
      deeds.filterMap Deed.action? = [] ∧ deeds.filter (fun d => !d.isLogged) = [] := by
  induction entries with
  | nil => exact ⟨rfl, rfl, rfl, rfl⟩
  | cons e rest ih =>
      obtain ⟨log, text, actions, others⟩ := ih
      exact ⟨congrArg (e :: ·) log, text, actions, others⟩

/-- What is read off the turns of some frames: the notices of the frames, nothing printed, and
the pictures of the frames. -/
theorem readings_turns (c : Console) (frames : List (Frame σ T)) :
    (turns c frames).filterMap Deed.entry? =
        (frames.flatMap fun f => f.notices).map Notice.entry ∧
      (turns c frames).filterMap Deed.text? = [] ∧
      (turns c frames).filterMap Deed.action? = showAll c frames := by
  induction frames generalizing c with
  | nil => exact ⟨rfl, rfl, rfl⟩
  | cons f rest ih =>
      obtain ⟨log, text, actions⟩ := ih (c.follow f.snapshot).1
      obtain ⟨noted, untold, unseen, -⟩ :=
        readings_logged (σ := σ) (T := T) (f.notices.map Notice.entry)
      have first : showAll c (f :: rest) =
          .shown f (c.follow f.snapshot).1.window (c.follow f.snapshot).2 ::
            showAll (c.follow f.snapshot).1 rest := rfl
      simp only [turns, List.filterMap_append, List.filterMap_cons, List.filterMap_nil,
        Deed.entry?, Deed.text?, Deed.action?, noted, untold, unseen, log, text, actions, first,
        List.flatMap_cons, List.map_append, List.append_nil, List.nil_append, List.cons_append]
      trivial

/-- Apart from the log, what is done about some frames is a poll, a picture and a pause for each
of them. -/
theorem unlogged_turns (c : Console) (frames : List (Frame σ T)) :
    ∃ shown : List (Deed σ T), shown.length = frames.length ∧ (∀ d ∈ shown, d.isShown = true) ∧
      ((turns c frames).filter fun d => !d.isLogged) =
        shown.flatMap fun d => [.polled, d, .paused] := by
  induction frames generalizing c with
  | nil => exact ⟨[], rfl, by simp, rfl⟩
  | cons f rest ih =>
      obtain ⟨shown, count, pictures, others⟩ := ih (c.follow f.snapshot).1
      obtain ⟨-, -, -, noted⟩ :=
        readings_logged (σ := σ) (T := T) (f.notices.map Notice.entry)
      let picture : Deed σ T :=
        .shown f (c.follow f.snapshot).1.window (c.follow f.snapshot).2
      refine ⟨picture :: shown, congrArg (· + 1) count, ?_, ?_⟩
      · intro d member
        obtain rfl | later := List.mem_cons.1 member
        · rfl
        · exact pictures d later
      · rw [turns, List.filter_append, List.filter_append, List.filter_append, others, noted]
        rfl

/-- How a loop of frames ends. -/
def leaving : Ending → Except (Cause σ T) Unit
  | .quit => .ok ()
  | .interrupted => .error .interrupted

/-- What is done when a session ends, besides closing the console. -/
def goodbye : Ending → List (Deed σ T)
  | .quit => []
  | .interrupted => [.printed "\nExiting.\n"]

/-- What is done about a session, from the opening of the console to its closing. -/
def sessionDeeds (c : Console × List MixerCall) (session : Session σ T) : List (Deed σ T) :=
  [.opened c.2, .booted] ++ turns c.1 session.frames ++ [.polled] ++ goodbye session.ending ++
    [.closed]

/-- What is read off a session: its notices, a farewell, and what becomes of the console. -/
theorem readings_sessionDeeds (c : Console × List MixerCall) (session : Session σ T) :
    (sessionDeeds c session).filterMap Deed.entry? =
        (session.frames.flatMap fun f => f.notices).map Notice.entry ∧
      String.join ((sessionDeeds c session).filterMap Deed.text?) = farewell session.ending ∧
      (sessionDeeds c session).filterMap Deed.action? =
        .opened c.2 :: showAll c.1 session.frames ++ [.closed] := by
  obtain ⟨noted, untold, pictures⟩ := readings_turns c.1 session.frames
  simp only [sessionDeeds, List.filterMap_append, noted, untold, pictures]
  cases session.ending with
  | quit => simp [goodbye, farewell, List.filterMap_cons, Deed.entry?, Deed.text?, Deed.action?]
  | interrupted =>
      simp [goodbye, farewell, List.filterMap_cons, Deed.entry?, Deed.text?, Deed.action?]

/-- Apart from the log, a session opens the console, starts a machine, polls, shows and pauses
once for each frame, polls once more, and closes the console. -/
theorem unlogged_sessionDeeds (c : Console × List MixerCall) (session : Session σ T) :
    ∃ shown : List (Deed σ T), shown.length = session.frames.length ∧
      (∀ d ∈ shown, d.isShown = true) ∧
      ((sessionDeeds c session).filter fun d => !d.isLogged) =
        [.opened c.2, .booted] ++ (shown.flatMap fun d => [.polled, d, .paused]) ++ [.polled] ++
          goodbye session.ending ++ [.closed] := by
  obtain ⟨shown, count, pictures, others⟩ := unlogged_turns c.1 session.frames
  refine ⟨shown, count, pictures, ?_⟩
  simp only [sessionDeeds, List.filter_append, others]
  cases session.ending <;> rfl

/-- A loop of frames that is interrupted is left with a goodbye. -/
theorem rescue_onLeaving (ending : Ending) (deeds : List (Deed σ T)) :
    (⟨leaving ending, deeds⟩ : Course σ T Unit).rescue onLeaving =
      ⟨.ok (), deeds ++ goodbye ending⟩ := by
  cases ending with
  | quit => simp [leaving, Course.rescue, goodbye]
  | interrupted => rfl

variable [Instant T] [Host σ T]

/-- The loop of frames goes through the frames of a session and polls once more. -/
theorem frameLoop_eq {cycles : Int} {more : Nat} (count : cycles.toNat = more + 1)
    {m : Machine T} (range : m.InRange) (host : σ) (pad : Keypad) (c : Console)
    (script : List (Happening σ)) :
    frameLoop cycles m host pad c script =
      ⟨leaving (Session.run more m host (pad.visits script)).ending,
        turns c (Session.run more m host (pad.visits script)).frames ++ [.polled]⟩ := by
  induction script generalizing m host pad c with
  | nil => rfl
  | cons happening rest ih =>
      cases happening with
      | interrupt => rfl
      | events pass events =>
          cases on : (pad.poll events).running with
          | false =>
              simp only [frameLoop, Keypad.visits, Session.run, on]
              rfl
          | true =>
              have frame := range.frame? (pass host) (pad.poll events).input count
              have later := ih (range.frame (pass host) (pad.poll events).input more)
              simp only [frameLoop, Keypad.visits, Session.run, on, if_true, makeFrame, frame,
                turns]
              simp [Course.perform, Course.ok_bind, Course.pure_def, later]

/-- Frames at an instruction rate are those of a session, and an interrupt does not get out. -/
theorem drive_of_rate (rate : Int) {m : Machine T} (range : m.InRange) (host : σ) (c : Console)
    (script : List (Happening σ)) :
    (drive (some rate) m host c script).rescue onLeaving =
      let session := Session.runAt rate m host (Keypad.released.visits script)
      ⟨.ok (), turns c session.frames ++ [.polled] ++ goodbye session.ending⟩ := by
  have count : (max 1 (rate / 60)).toNat = cyclesPerFrame rate - 1 + 1 := by
    have positive := cyclesPerFrame_pos rate
    have same := cyclesPerFrame_eq rate
    omega
  rw [drive, frameLoop_eq count range, rescue_onLeaving]
  rfl

end Command

end Chip8
