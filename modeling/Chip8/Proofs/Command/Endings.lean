import Chip8.Proofs.Arguments.Values
import Chip8.Proofs.Command.Frames

/-!
# How runs of the command end

A program file that is missing or too long ends a run before there is a console. A listing needs
none. Any other run opens one console, shows a frame for each poll up to the one that stops it,
and closes the console at the end, however it came to an end. The reports of the command agree
with that.
-/

namespace Chip8

theorem Rom.read_of_missing {disk : Disk} {path there : Path}
    (h : disk path = .error (.missing there)) :
    read disk path = .error (.unreadable (.missing there)) := by
  rw [read, h]

/-- A file that is there is accepted if it has at most 3584 bytes. -/
theorem Rom.read_of_present {disk : Disk} {path : Path} {bytes : List UInt8}
    (h : disk path = .ok bytes) :
    read disk path =
      if 3584 < bytes.length then .error (.tooLarge bytes.length) else .ok bytes := by
  rw [read, h]
  rfl

namespace Command

variable {σ T : Type} [Instant T] [Host σ T]

section Course

variable {disk : Disk} {mixer : Mixer} {host : σ} {script : List (Happening σ)} {o : Options}

/-- A program file that is missing or too long is reported, and nothing else is done. -/
theorem course_of_refused {e : RomError} (refused : Rom.read disk (Path.ofText o.rom) = .error e)
    (reported : (∃ path, e = .unreadable (.missing path)) ∨ ∃ size, e = .tooLarge size) :
    (course disk mixer host script o : Course σ T Nat) =
      ⟨.ok 1, [.logged ⟨.error, .command, "Cannot load ROM: " ++ e.message⟩]⟩ := by
  unfold course loadProgram
  rw [refused]
  obtain ⟨path, rfl⟩ | ⟨size, rfl⟩ := reported <;> rfl

/-- Any other failure to read the program file is left to the caller. -/
theorem course_of_unreadable {cause : FileError}
    (unread : Rom.read disk (Path.ofText o.rom) = .error (.unreadable cause))
    (other : ∀ path, cause ≠ .missing path) :
    (course disk mixer host script o : Course σ T Nat) = ⟨.error (.failure (.file cause)), []⟩ := by
  unfold course loadProgram
  rw [unread]
  cases cause with
  | missing path => exact absurd rfl (other path)
  | _ => rfl

/-- A listing is printed and nothing else is done. -/
theorem course_of_disassemble {bytes : List UInt8}
    (accepted : Rom.read disk (Path.ofText o.rom) = .ok bytes) (listing : o.disassemble = true) :
    (course disk mixer host script o : Course σ T Nat) =
      ⟨.ok 0, [.logged (Rom.loadedEntry bytes),
        .printed (Listing.text bytes Listing.defaultOrigin ++ "\n")]⟩ := by
  unfold course loadProgram
  rw [accepted, listing]
  rfl

/-- An accepted program is logged and run. -/
theorem course_of_running {bytes : List UInt8}
    (accepted : Rom.read disk (Path.ofText o.rom) = .ok bytes) (running : o.disassemble = false) :
    (course disk mixer host script o : Course σ T Nat) =
      ⟨(runProgram mixer host script o bytes : Course σ T Nat).outcome,
        .logged (Rom.loadedEntry bytes) :: (runProgram mixer host script o bytes).deeds⟩ := by
  unfold course loadProgram
  rw [accepted, running]
  rfl

variable {bytes : List UInt8}

/-- If there is no console for the options, nothing is done. -/
theorem runProgram_of_no_console {e : Failure} (failed : console mixer o = .error e) :
    (runProgram mixer host script o bytes : Course σ T Nat) = ⟨.error (.failure e), []⟩ := by
  unfold runProgram openConsole
  rw [failed]
  rfl

variable {c : Console × List MixerCall} (opened : console mixer o = .ok c)
include opened

omit [Instant T] [Host σ T] in
theorem openConsole_eq :
    (openConsole mixer o : Course σ T Console) =
      ⟨.ok c.1, (Console.mixerLog mixer).map .logged ++ [.opened c.2]⟩ := by
  unfold openConsole
  rw [opened]
  rfl

/-- Without an instruction rate the console is opened and closed again. -/
theorem runProgram_of_empty_clock (empty : o.clock = none) :
    (runProgram mixer host script o bytes : Course σ T Nat) =
      ⟨.error (.failure (.emptyOption .clock)),
        (Console.mixerLog mixer).map .logged ++ [.opened c.2, .booted, .closed]⟩ := by
  unfold runProgram
  rw [openConsole_eq opened, empty, Course.ok_bind, List.append_assoc]
  rfl

/-- Any other run goes through the frames of a session, says goodbye and closes the console. -/
theorem runProgram_of_rate {rate : Int} (given : o.clock = some rate) :
    (runProgram mixer host script o bytes : Course σ T Nat) =
      let booted := Machine.boot bytes host
      let session := Session.runAt rate booted.1 booted.2 (Keypad.released.visits script)
      ⟨.ok 0, (Console.mixerLog mixer).map .logged ++ sessionDeeds c session⟩ := by
  have range : (Machine.boot bytes host).1.InRange := Machine.inRange_start bytes _
  unfold runProgram
  rw [openConsole_eq opened, given, Course.ok_bind]
  dsimp only
  rw [drive_of_rate rate range]
  simp [Course.perform, Course.ensuring, Course.ok_bind, Course.pure_def, sessionDeeds]

end Course

/-- The report read off a run with frames is that of the command. -/
theorem report_eq_play (mixer : Mixer) (host : σ) (script : List (Happening σ)) (o : Options)
    (bytes : List UInt8) (c : Console × List MixerCall) (rate : Int) :
    let booted := Machine.boot bytes host
    let session := Session.runAt rate booted.1 booted.2 (Keypad.released.visits script)
    (⟨.ok 0, .logged (Rom.loadedEntry bytes) ::
        ((Console.mixerLog mixer).map .logged ++ sessionDeeds c session)⟩ :
          Course σ T Nat).report (threshold o) =
      .ok (play mixer host script o bytes c rate) := by
  intro booted session
  obtain ⟨noted, told, seen⟩ := readings_sessionDeeds c session
  obtain ⟨log, text, actions, -⟩ :=
    readings_logged (σ := σ) (T := T) (Console.mixerLog mixer)
  simp only [Course.report, Course.output, Except.map, List.filterMap_cons, List.filterMap_append,
    Deed.entry?, Deed.text?, Deed.action?, noted, told, seen, log, text, actions, List.nil_append]
  rfl

/-- The command reports what its course amounts to, and fails as its course does. -/
theorem report_course (disk : Disk) (mixer : Mixer) (host : σ) (script : List (Happening σ))
    (o : Options) :
    (course disk mixer host script o : Course σ T Nat).report (threshold o) =
      (obey disk mixer host script o).mapError .failure := by
  unfold obey
  cases read : Rom.read disk (Path.ofText o.rom) with
  | error e =>
      cases e with
      | tooLarge size =>
          rw [course_of_refused read (.inr ⟨size, rfl⟩)]
          rfl
      | unreadable cause =>
          cases cause with
          | missing path =>
              rw [course_of_refused read (.inl ⟨path, rfl⟩)]
              rfl
          | _ =>
              rw [course_of_unreadable read (by simp)]
              rfl
  | ok bytes =>
      cases listing : o.disassemble with
      | true =>
          rw [course_of_disassemble read listing]
          simp [Course.report, Course.output, list, List.filterMap_cons, Deed.entry?, Deed.text?,
            Deed.action?, Except.map, Except.mapError]
      | false =>
          rw [course_of_running read listing]
          simp only [Bool.false_eq_true, if_false, launch]
          cases opened : console mixer o with
          | error e =>
              rw [runProgram_of_no_console opened]
              rfl
          | ok c =>
              cases clock : o.clock with
              | none =>
                  rw [runProgram_of_empty_clock opened clock]
                  rfl
              | some rate =>
                  rw [runProgram_of_rate opened clock]
                  exact report_eq_play mixer host script o bytes c rate

section Ends

variable {disk : Disk} {mixer : Mixer} {host : σ} {script : List (Happening σ)} {o : Options}

theorem endsWith_of_refused {e : RomError}
    (refused : Rom.read disk (Path.ofText o.rom) = .error e)
    (reported : (∃ path, e = .unreadable (.missing path)) ∨ ∃ size, e = .tooLarge size) :
    (course disk mixer host script o : Course σ T Nat).EndsWith 1 "" [] := by
  rw [course_of_refused refused reported]
  exact ⟨rfl, rfl, rfl⟩

variable {bytes : List UInt8} (accepted : Rom.read disk (Path.ofText o.rom) = .ok bytes)
include accepted

theorem endsWith_of_disassemble (listing : o.disassemble = true) :
    (course disk mixer host script o : Course σ T Nat).EndsWith 0
      (Listing.text bytes Listing.defaultOrigin ++ "\n")
      [.printed (Listing.text bytes Listing.defaultOrigin ++ "\n")] := by
  rw [course_of_disassemble accepted listing]
  refine ⟨rfl, ?_, rfl⟩
  simp [Course.output, List.filterMap_cons, Deed.text?]

variable (running : o.disassemble = false) {c : Console × List MixerCall}
  (opened : console mixer o = .ok c)
include running opened

/-- A run shows a frame for each poll that lets it go on, up to the first one that does not. -/
theorem endsWith_of_rate {rate : Int} (given : o.clock = some rate) :
    ∃ shown : List (Deed σ T),
      shown.length = (script.takeWhile Happening.goesOn).length ∧
      (∀ d ∈ shown, d.isShown = true) ∧
      (course disk mixer host script o).EndsWith 0 (farewell (Happening.ending script))
        ([.opened c.2, .booted] ++ (shown.flatMap fun d => [.polled, d, .paused]) ++ [.polled] ++
          goodbye (Happening.ending script) ++ [.closed]) := by
  let booted := Machine.boot bytes host
  obtain ⟨count, ended⟩ := Session.run_visits (cyclesPerFrame rate - 1) booted.1 booted.2
    .released script
  obtain ⟨shown, same, pictures, others⟩ := unlogged_sessionDeeds c
    (Session.runAt rate booted.1 booted.2 (Keypad.released.visits script))
  obtain ⟨-, told, -⟩ := readings_sessionDeeds c
    (Session.runAt rate booted.1 booted.2 (Keypad.released.visits script))
  obtain ⟨-, text, -, noted⟩ := readings_logged (σ := σ) (T := T) (Console.mixerLog mixer)
  rw [Session.runAt, ended] at others told
  refine ⟨shown, same.trans count, pictures, ?_⟩
  rw [course_of_running accepted running, runProgram_of_rate opened given]
  refine ⟨rfl, ?_, ?_⟩
  · simp only [Course.output, List.filterMap_cons, List.filterMap_append, Deed.text?, text,
      List.nil_append]
    exact told
  · rw [Course.unlogged, List.filter_cons_of_neg (by simp [Deed.isLogged]), List.filter_append,
      noted]
    exact others

/-- Without an instruction rate a run fails before its first poll; the console is closed. -/
theorem unlogged_of_empty_clock (empty : o.clock = none) :
    (course disk mixer host script o : Course σ T Nat).outcome =
        .error (.failure (.emptyOption .clock)) ∧
      (course disk mixer host script o : Course σ T Nat).unlogged =
        [.opened c.2, .booted, .closed] := by
  rw [course_of_running accepted running, runProgram_of_empty_clock opened empty]
  refine ⟨rfl, ?_⟩
  simp [Course.unlogged, Deed.isLogged]

end Ends

/-- The command from its arguments to its end. Let the arguments be read, and let the program file
be there or missing. The reports of the command are read off its course, which is the following.
If the file is missing or has more than 3584 bytes, the exit code is one, nothing is printed, and
no console, machine or frame is made. Otherwise a listing is printed if that is asked for, and
again nothing is made. Otherwise, if a console can be opened and the options hold an instruction
rate, the exit code is zero, whatever the script is: for each poll before the first one that is
interrupted or asks to stop, one frame is shown, then that poll is made, and the console is closed
once, at the very end. A farewell is printed only if that poll was interrupted. The options hold an
instruction rate unless the last value given for it is the bare separator, which is no integer;
without a rate the run fails before its first poll, and the console is closed all the same. -/
theorem run_ends {arguments : List String} {o : Options}
    (parsed : Options.parse arguments = .ok o) (disk : Disk) (mixer : Mixer) (host : σ)
    (script : List (Happening σ)) :
    let course : Course σ T Nat := course disk mixer host script o
    let file := disk (Path.ofText o.rom)
    (run disk mixer host script arguments).mapError .failure = course.report (threshold o) ∧
      (o.clock = none ↔ Options.lastText? .clock arguments = some "--") ∧
      (∀ path, file = .error (.missing path) → course.EndsWith 1 "" []) ∧
      ∀ bytes, file = .ok bytes →
        (3584 < bytes.length → course.EndsWith 1 "" []) ∧
        (bytes.length ≤ 3584 → o.disassemble = true →
          course.EndsWith 0 (Listing.text bytes Listing.defaultOrigin ++ "\n")
            [.printed (Listing.text bytes Listing.defaultOrigin ++ "\n")]) ∧
        (bytes.length ≤ 3584 → o.disassemble = false → ∀ c, console mixer o = .ok c →
          (∀ rate, o.clock = some rate →
            ∃ shown : List (Deed σ T),
              shown.length = (script.takeWhile Happening.goesOn).length ∧
              (∀ d ∈ shown, d.isShown = true) ∧
              course.EndsWith 0 (farewell (Happening.ending script))
                ([.opened c.2, .booted] ++ (shown.flatMap fun d => [.polled, d, .paused]) ++
                  [.polled] ++ goodbye (Happening.ending script) ++ [.closed])) ∧
          (o.clock = none →
            course.outcome = .error (.failure (.emptyOption .clock)) ∧
              course.unlogged = [.opened c.2, .booted, .closed])) := by
  intro course file
  refine ⟨?_, Options.valueOf_eq_none_iff (s := .clock) parsed rfl, ?_, ?_⟩
  · rw [report_course, run, parsed]
  · intro path missing
    exact endsWith_of_refused (Rom.read_of_missing missing) (.inl ⟨path, rfl⟩)
  · intro bytes present
    have read := Rom.read_of_present present
    refine ⟨?_, ?_, ?_⟩
    · intro long
      rw [if_pos long] at read
      exact endsWith_of_refused read (.inr ⟨bytes.length, rfl⟩)
    · intro short listing
      rw [if_neg (by omega)] at read
      exact endsWith_of_disassemble read listing
    · intro short running c opened
      rw [if_neg (by omega)] at read
      constructor
      · intro rate given
        exact endsWith_of_rate read running opened given
      · intro empty
        exact unlogged_of_empty_clock read running opened empty

/-- A run of a program that jumps to itself, interrupted after one frame; the script goes on with
a poll that is never made. -/
theorem run_ends_interrupted :
    let disk : Disk := fun _ => .ok [0x12, 0x00]
    let mixer : Mixer := .missing "no mixer"
    let tape : Tape Rat := ⟨fun _ => 0, fun _ => 0, 0, 0⟩
    let script : List (Happening (Tape Rat)) := [.events id [], .interrupt, .events id [.quit]]
    let o : Options := { rom := "g" }
    Options.parse ["g"] = .ok o ∧
      (course disk mixer tape script o).report (threshold o) =
        (run disk mixer tape script ["g"]).mapError .failure ∧
      ∃ calls shown, shown.isShown = true ∧
        (course disk mixer tape script o).EndsWith 0 "\nExiting.\n"
          [.opened calls, .booted, .polled, shown, .paused, .polled, .printed "\nExiting.\n",
            .closed] := by
  intro disk mixer tape script o
  have parsed : Options.parse ["g"] = .ok o := by decide +kernel
  obtain ⟨reported, -, -, present⟩ := run_ends parsed disk mixer tape script
  obtain ⟨-, -, running⟩ := present [0x12, 0x00] rfl
  have opened : console mixer o =
      .ok (Console.create mixer 15 440) := by decide +kernel
  obtain ⟨frames, -⟩ := running (by decide) rfl _ opened
  obtain ⟨shown, count, pictures, ended⟩ := frames 1200 rfl
  obtain ⟨picture, rfl⟩ := List.length_eq_one_iff.1 count
  exact ⟨parsed, reported.symm, _, picture, pictures picture List.mem_cons_self, ended⟩

end Command

end Chip8
