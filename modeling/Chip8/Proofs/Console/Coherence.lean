import Chip8.Console.Basic
import Chip8.Proofs.Console.Picture
import Chip8.Proofs.Machine.Run
import Chip8.Session
import Mathlib.Data.List.Forall2

/-!
# The window keeps up with the display

A window is redrawn only for a snapshot that says that the display was redrawn. That is
enough: a step that does not say so leaves the display alone, a frame says so if any of its
steps does, and the snapshot of a frame holds the display that its last step left.
-/

namespace Chip8

namespace Machine

variable {σ T : Type} [Instant T] [Host σ T]

/-- A snapshot shows the display that the step leaves. -/
theorem display_snapshot_step (m : Machine T) (host : σ) (input : Input) :
    (m.step host input).snapshot.display = (m.step host input).machine.display := by
  cases h : m.isHeld input with
  | true => rw [step_of_isHeld h]; rfl
  | false => rw [step_of_not_isHeld h]; rfl

/-- A step that does not report a change leaves the display alone. -/
theorem display_step {m : Machine T} {host : σ} {input : Input}
    (h : (m.step host input).snapshot.changed = false) :
    (m.step host input).machine.display = m.display := by
  cases held : m.isHeld input with
  | true => rw [step_of_isHeld held]
  | false =>
      rw [step_of_not_isHeld held] at h ⊢
      calc
        (m.effect host input).machine.display = (m.prepared host input).display :=
          display_execute h
        _ = m.display := display_prepared m host input

/-- Steps of which none reports a change leave the display alone. -/
theorem display_last (first : Step σ T) (inputs : List Input)
    (h : ((first.machine.trace first.host inputs).any fun s => s.snapshot.changed) = false) :
    ((first.machine.trace first.host inputs).getLastD first).machine.display =
      first.machine.display := by
  induction inputs generalizing first with
  | nil => rfl
  | cons input rest ih =>
      rw [trace_cons, List.any_cons, Bool.or_eq_false_iff] at h
      rw [trace_cons, List.getLastD_cons, ih _ h.2]
      exact display_step h.1

/-- The snapshot of a frame shows the display that the frame leaves. -/
theorem display_snapshot_frame (m : Machine T) (host : σ) (input : Input) (more : Nat) :
    (m.frame host input more).snapshot.display = (m.frame host input more).machine.display := by
  apply getLastD_trace_of_step (P := fun s => s.snapshot.display = s.machine.display)
  · intro s input _
    exact display_snapshot_step s.machine s.host input
  · exact display_snapshot_step m host input

/-- A frame that does not report a change leaves the display alone. -/
theorem display_frame {m : Machine T} {host : σ} {input : Input} {more : Nat}
    (h : (m.frame host input more).snapshot.changed = false) :
    (m.frame host input more).machine.display = m.display := by
  simp only [frame, Frame.ofSteps, Bool.or_eq_false_iff] at h
  calc
    (m.frame host input more).machine.display = (m.step host input).machine.display :=
      display_last (m.step host input) (laterInputs input more) h.2
    _ = m.display := display_step h.1

end Machine

/-- A window that shows the display of a machine shows it again after it took in a frame. -/
theorem Window.shows_follow {σ T : Type} [Instant T] [Host σ T] {w : Window} (fits : w.Fits)
    {m : Machine T} (shown : w.canvas.Shows w.scale m.display) (host : σ) (input : Input)
    (more : Nat) :
    (w.follow (m.frame host input more).snapshot).Fits ∧
      (w.follow (m.frame host input more).snapshot).scale = w.scale ∧
      (w.follow (m.frame host input more).snapshot).canvas.Shows w.scale
        (m.frame host input more).machine.display := by
  cases h : (m.frame host input more).snapshot.changed with
  | true =>
      rw [follow, if_pos h, Machine.display_snapshot_frame]
      exact ⟨fits.redraw _, rfl, fits.shows_redraw _⟩
  | false =>
      -- nothing was painted, so the old picture has to do
      rw [follow, if_neg (by simp [h]), Machine.display_frame h]
      exact ⟨fits, rfl, shown⟩

/-- A console is opened with the window that is opened for its scale. -/
theorem Console.window_of_create? {mixer : Mixer} {scale : Number} {tone : Int}
    {opened : Console × List MixerCall} (h : create? mixer scale tone = .ok opened) :
    Window.create? scale = .ok opened.1.window := by
  unfold create? at h
  cases hw : Window.create? scale with
  | error e => rw [hw] at h; cases h
  | ok window =>
      cases hs : Speaker.create? mixer tone with
      | error e => rw [hw, hs] at h; cases h
      | ok speaker => rw [hw, hs] at h; rw [← Except.ok.inj h]

/-- Whether the window of a console shows, after each of some frames, the display that the
frame leaves: a pixel is white if the cell is lit that it lies on when the window is divided
into squares of a side, and black otherwise. -/
def Console.KeepsUp {σ T : Type} (c : Console) (side : Nat) (frames : List (Frame σ T)) : Prop :=
  List.Forall₂
    (fun frame shown => ∀ px py, px < Display.width * side → py < Display.height * side →
      shown.1.window.canvas.isWhite px py = frame.machine.display.lit (px / side) (py / side))
    frames (c.followAll (frames.map fun f => f.snapshot))

namespace Session

variable {σ T : Type} [Instant T] [Host σ T]

/-- A console whose window shows the display of a machine keeps up with its frames. -/
theorem keepsUp_run (more : Nat) {side : Nat} (visits : List (Visit σ)) (m : Machine T)
    (host : σ) (c : Console) (fits : c.window.Fits) (scale : c.window.scale = side)
    (shown : c.window.canvas.Shows side m.display) :
    c.KeepsUp side (run more m host visits).frames := by
  induction visits generalizing m host c with
  | nil => exact .nil
  | cons visit rest ih =>
      cases visit with
      | interrupt => exact .nil
      | poll pass result =>
          cases running : result.running with
          | false => simp [Console.KeepsUp, run, running, Console.followAll]
          | true =>
              subst scale
              have next := Window.shows_follow fits shown (pass host) result.input more
              simp only [Console.KeepsUp, run, running, if_true, List.map_cons,
                Console.followAll]
              exact .cons next.2.2 (ih _ _ _ next.1 next.2.1 next.2.2)

/-- The window keeps up with the display through a whole session of a program, for every
instruction rate, every scale and every list of visits. This holds of a console with a window
of the full size, and so of every console that can be opened without losing a part of it. -/
theorem window_shows_display (program : List UInt8) (host : σ) (rate : Int)
    (visits : List (Visit σ)) (mixer : Mixer) (scale tone : Int) :
    let booted := Machine.boot program host
    let frames := (runAt rate booted.1 booted.2 visits).frames
    (Console.create mixer scale tone).1.KeepsUp (Window.side scale) frames ∧
      ∀ number opened, Console.create? mixer number tone = .ok opened →
        opened.1.window.isFull = true →
        ∃ z, number.toInt = .ok z ∧ opened.1.KeepsUp (Window.side z) frames := by
  intro booted frames
  have fresh (c : Console) (z : Int) (h : c.window = Window.create z) :
      c.KeepsUp (Window.side z) frames := by
    apply keepsUp_run
    · rw [h]
      exact Window.fits_create z
    · rw [h]
      rfl
    · -- the display of a machine that was just started is blank, like the window
      rw [h]
      exact Window.shows_create z
  constructor
  · exact fresh _ scale rfl
  · intro number opened h full
    obtain ⟨z, hz, created⟩ := Window.create?_of_isFull (Console.window_of_create? h) full
    exact ⟨z, hz, fresh opened.1 z created⟩

end Session

end Chip8
