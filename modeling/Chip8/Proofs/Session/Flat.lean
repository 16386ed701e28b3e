import Chip8.Proofs.Machine.Range
import Chip8.Proofs.Session.Driver
import Chip8.Proofs.Timer.Ticks
import Mathlib.Data.List.Forall2

/-!
# Sessions as sequences of steps

The turns of a driver can be laid out flat: a list of calls, of which the first one of each turn
gets the pressed key. The steps of these calls are the steps of the session, and a frame sums up
as many of them as the rate asks for. How the calls are dealt out to frames makes no difference
to the machine.
-/

namespace Chip8

variable {σ T : Type}

/-- A call of a step: what happens to the host beforehand, and the input. -/
structure Call (σ : Type) where
  pass : σ → σ
  input : Input

/-- The calls for the steps of a turn. -/
def Turn.calls (turn : Turn σ) : Nat → List (Call σ)
  | 0 => []
  | more + 1 =>
      ⟨turn.pass, turn.poll.input⟩ ::
        List.replicate more ⟨id, { turn.poll.input with press := none }⟩

/-- A turn has the inputs of its frame. -/
theorem Turn.map_input_calls (turn : Turn σ) (n : Nat) :
    (turn.calls n).map Call.input = turn.poll.input.frame n := by
  cases n with
  | zero => rfl
  | succ more => simp [calls, Input.frame, Machine.laterInputs]

/-- A frame sums up some steps: it ends where the last of them does and shows what the last of
them shows, redrawn if any of them redrew. -/
structure Frame.SumsUp (c : Nat) (f : Frame σ T) (steps : List (Step σ T)) : Prop where
  length : steps.length = c
  last : ∃ s, steps.getLast? = some s ∧ f.machine = s.machine ∧ f.host = s.host ∧
    f.snapshot.display = s.snapshot.display ∧ f.snapshot.sound = s.snapshot.sound ∧
    f.snapshot.waiting = s.snapshot.waiting
  changed : f.snapshot.changed = steps.any fun s => s.snapshot.changed

theorem Frame.sumsUp_ofSteps (first : Step σ T) (rest : List (Step σ T)) :
    (ofSteps first rest).SumsUp (rest.length + 1) (first :: rest) where
  length := rfl
  last := by
    refine ⟨rest.getLastD first, ?_, rfl, rfl, rfl, rfl, rfl⟩
    rw [List.getLast?_cons, List.getLastD_eq_getLast?]
  changed := rfl

namespace Machine

/-- Where some steps lead from a machine and its host. -/
def leftBy (m : Machine T) (host : σ) (steps : List (Step σ T)) : Machine T × σ :=
  steps.foldl (fun _ s => (s.machine, s.host)) (m, host)

/-- Steps that a frame sums up lead where the frame does. -/
theorem leftBy_of_sumsUp (m : Machine T) (host : σ) {c : Nat} {f : Frame σ T}
    {steps : List (Step σ T)} (h : f.SumsUp c steps) :
    m.leftBy host steps = (f.machine, f.host) := by
  obtain ⟨s, last, sameMachine, sameHost, -⟩ := h.last
  obtain ⟨earlier, rfl⟩ := List.getLast?_eq_some_iff.1 last
  rw [leftBy, List.foldl_append, sameMachine, sameHost]
  rfl

theorem leftBy_append (m : Machine T) (host : σ) (xs ys : List (Step σ T)) :
    m.leftBy host (xs ++ ys) = (m.leftBy host xs).1.leftBy (m.leftBy host xs).2 ys := by
  rw [leftBy, List.foldl_append]
  rfl

variable [Instant T] [Host σ T]

/-- The steps of a list of calls, unless one breaks off. -/
def flat? (m : Machine T) (host : σ) : List (Call σ) → Except (Breakdown σ T) (List (Step σ T))
  | [] => .ok []
  | call :: rest =>
      match m.step? (call.pass host) call.input with
      | .error b => .error b
      | .ok s => (s.machine.flat? s.host rest).map (s :: ·)

/-- Calls go on from where the calls before them led. -/
theorem flat?_append (m : Machine T) (host : σ) (xs ys : List (Call σ)) :
    m.flat? host (xs ++ ys) =
      match m.flat? host xs with
      | .error b => .error b
      | .ok first =>
          ((m.leftBy host first).1.flat? (m.leftBy host first).2 ys).map (first ++ ·) := by
  induction xs generalizing m host with
  | nil => cases h : m.flat? host ys <;> simp [flat?, leftBy, Except.map, h]
  | cons call xs ih =>
      rw [List.cons_append, flat?, flat?]
      cases m.step? (call.pass host) call.input with
      | error b => rfl
      | ok s =>
          simp only [ih]
          cases s.machine.flat? s.host xs with
          | error b => rfl
          | ok first =>
              have onward : m.leftBy host (s :: first) = s.machine.leftBy s.host first := rfl
              simp only [Except.map, onward]
              cases (s.machine.leftBy s.host first).1.flat? (s.machine.leftBy s.host first).2 ys <;>
                rfl

theorem step?_eq_ok {m : Machine T} {host : σ} {input : Input} {s : Step σ T}
    (h : m.step? host input = .ok s) : s = m.step host input := by
  unfold step? at h
  split at h
  · cases h
  · exact (Except.ok.inj h).symm

/-- Calls without anything in between are the steps of a list of inputs. -/
theorem flat?_replicate (m : Machine T) (host : σ) (input : Input) (n : Nat) :
    m.flat? host (List.replicate n ⟨id, input⟩) =
      m.trace? id host (List.replicate n input) := by
  induction n generalizing m host with
  | zero => rfl
  | succ n ih =>
      simp only [List.replicate_succ, flat?, trace?]
      cases m.step? (id host) input with
      | error b => rfl
      | ok s => simp only [ih]

theorem trace?_eq_ok {m : Machine T} {host : σ} {inputs : List Input} {steps : List (Step σ T)}
    (h : m.trace? id host inputs = .ok steps) : steps = m.trace host inputs := by
  induction inputs generalizing m host steps with
  | nil => exact (Except.ok.inj h).symm
  | cons input rest ih =>
      rw [trace?, id_eq] at h
      cases first : m.step? host input with
      | error b => rw [first] at h; cases h
      | ok s =>
          rw [first] at h
          cases later : s.machine.trace? id s.host rest with
          | error b => simp only [later] at h; cases h
          | ok others =>
              simp only [later] at h
              rw [← Except.ok.inj h, ih later, step?_eq_ok first]
              rfl

/-- The calls of a turn break off where the frame of the turn does; otherwise the frame sums up
their steps. -/
theorem flat?_calls (m : Machine T) (host : σ) (turn : Turn σ) (more : Nat) :
    let f? := m.frame? (turn.pass host) turn.poll.input (more + 1 : Nat)
    let f := m.frame (turn.pass host) turn.poll.input more
    (∃ b, m.flat? host (turn.calls (more + 1)) = .error b ∧ f? = .error (.breakdown b)) ∨
      ∃ chunk, m.flat? host (turn.calls (more + 1)) = .ok chunk ∧ f? = .ok f ∧
        f.SumsUp (more + 1) chunk := by
  intro f? f
  simp only [f?, f, frame?, Int.toNat_natCast, Turn.calls, flat?, flat?_replicate, laterInputs]
  cases first : m.step? (turn.pass host) turn.poll.input with
  | error b => exact .inl ⟨b, rfl, rfl⟩
  | ok s =>
      simp only []
      cases later : s.machine.trace? id s.host
          (List.replicate more { turn.poll.input with press := none }) with
      | error b => exact .inl ⟨b, rfl, rfl⟩
      | ok rest =>
          obtain rfl := step?_eq_ok first
          obtain rfl := trace?_eq_ok later
          have summed := Frame.sumsUp_ofSteps (m.step (turn.pass host) turn.poll.input)
            ((m.step (turn.pass host) turn.poll.input).machine.trace
              (m.step (turn.pass host) turn.poll.input).host
              (laterInputs turn.poll.input more))
          rw [length_trace, laterInputs, List.length_replicate] at summed
          exact .inr ⟨_, rfl, rfl, summed⟩

end Machine

namespace Session

variable [Instant T] [Host σ T]

/-- A session goes on after the frame of a turn that runs. -/
theorem run_cons_of_running {turn : Turn σ} (h : turn.poll.running = true) (more : Nat)
    (m : Machine T) (host : σ) (rest : List (Turn σ)) :
    let f := m.frame (turn.pass host) turn.poll.input more
    let later := run more f.machine f.host (rest.map Turn.visit)
    run more m host ((turn :: rest).map Turn.visit) =
      { later with frames := f :: later.frames } := by
  simp [run, Turn.visit, h]

/-- A session ends at a turn that does not run. -/
theorem run_cons_of_not_running {turn : Turn σ} (h : turn.poll.running = false) (more : Nat)
    (m : Machine T) (host : σ) (rest : List (Turn σ)) :
    run more m host ((turn :: rest).map Turn.visit) = ⟨[], m, .quit, rest.length⟩ := by
  simp [run, Turn.visit, h]

end Session

namespace Driver

/-- What comes of a flat list of calls and of the turns of a driver: both break off, or each
frame of a session sums up its share of the steps of the calls, and the driver has asked for
what the turns need and for the poll that asks to stop. -/
inductive Agrees (c : Nat) (m : Machine T) (host : σ) (earlier : List Request)
    (taken : List (Turn σ)) (session : Session σ T) :
    Except (Breakdown σ T) (List (Step σ T)) → Except (FrameError σ T) (Driver σ T) → Prop where
  | brokeOff (b : Breakdown σ T) : Agrees c m host earlier taken session (.error b)
      (.error (.breakdown b))
  | made (chunks : List (List (Step σ T)))
      (summed : List.Forall₂ (Frame.SumsUp c) session.frames chunks)
      (frames : session.frames.length = taken.length)
      (left : (m.leftBy host chunks.flatten).1 = session.machine) :
      Agrees c m host earlier taken session (.ok chunks.flatten)
        (.ok ⟨session.machine, (m.leftBy host chunks.flatten).2,
          earlier ++ ((taken.zip session.frames).flatMap fun p => requestsFor c p.1 p.2) ++
            [.poll]⟩)

/-- Without a turn there is only the poll that asks to stop. -/
theorem Agrees.stop (c : Nat) (m : Machine T) (host : σ) (earlier : List Request)
    (ending : Ending) (left : Nat) :
    Agrees c m host earlier [] ⟨[], m, ending, left⟩ (.ok [])
      (.ok ⟨m, host, earlier ++ [.poll]⟩) := by
  have none : Agrees c m host earlier [] ⟨[], m, ending, left⟩ _ _ := .made [] .nil rfl rfl
  simpa [Machine.leftBy] using none

/-- One turn more, before the others. -/
theorem Agrees.turn {c : Nat} (m : Machine T) (host : σ) {f : Frame σ T}
    {chunk : List (Step σ T)} (summed : f.SumsUp c chunk) (turn : Turn σ)
    {earlier : List Request} {taken : List (Turn σ)} {session : Session σ T}
    {flat : Except (Breakdown σ T) (List (Step σ T))} {ran : Except (FrameError σ T) (Driver σ T)}
    (h : Agrees c f.machine f.host (earlier ++ requestsFor c turn f) taken session flat ran) :
    Agrees c m host earlier (turn :: taken) { session with frames := f :: session.frames }
      (flat.map (chunk ++ ·)) ran := by
  cases h with
  | brokeOff b => exact .brokeOff b
  | made chunks others frames left =>
      have onward : m.leftBy host (chunk ++ chunks.flatten) =
          f.machine.leftBy f.host chunks.flatten := by
        rw [Machine.leftBy_append, Machine.leftBy_of_sumsUp m host summed]
      have whole : Agrees c m host earlier (turn :: taken)
          { session with frames := f :: session.frames } _ _ :=
        .made (chunk :: chunks) (.cons summed others) (by simp [frames])
          (by rw [List.flatten_cons, onward, left])
      simpa [onward, Except.map] using whole

variable [Instant T] [Host σ T]

/-- The driver makes the steps of the turns up to the first one that does not run. -/
theorem loop_flat (more : Nat) (turns : List (Turn σ)) (m : Machine T) (host : σ)
    (earlier : List Request) :
    let taken := turns.takeWhile fun t => t.poll.running
    Agrees (more + 1) m host earlier taken (Session.run more m host (turns.map Turn.visit))
      (m.flat? host (taken.flatMap fun t => t.calls (more + 1)))
      (loop (more + 1 : Nat) ⟨m, host, earlier⟩ turns) := by
  induction turns generalizing m host earlier with
  | nil => exact Agrees.stop (more + 1) m host earlier .quit 0
  | cons turn rest ih =>
      cases running : turn.poll.running with
      | false =>
          rw [List.takeWhile_cons_of_neg (by simp [running]),
            Session.run_cons_of_not_running running, loop, if_neg (by simp [running])]
          exact Agrees.stop (more + 1) m host earlier .quit rest.length
      | true =>
          rw [List.takeWhile_cons_of_pos (by exact running), Session.run_cons_of_running running,
            loop_cons_of_running running]
          simp only [List.flatMap_cons, Machine.flat?_append]
          obtain ⟨b, off, broken⟩ | ⟨chunk, on, made, summed⟩ := m.flat?_calls host turn more
          · rw [off, broken]
            exact .brokeOff b
          · simp only [on, made, Machine.leftBy_of_sumsUp m host summed]
            exact (ih _ _ _).turn m host summed turn

end Driver

end Chip8
