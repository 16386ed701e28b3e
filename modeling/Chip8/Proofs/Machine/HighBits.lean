import Chip8.Proofs.Machine.Range
import Mathlib.Data.Int.ModEq
import Mathlib.Data.List.Forall2

/-!
# The high bits of addresses

Memory has 4096 places, so only the low twelve bits of an address say where it points.
Machines that differ at most in the higher bits of the program counter, the index register
and the saved addresses are alike: they take the same steps, and they stay alike. What
tells them apart is the log, which prints addresses in full.
-/

namespace Chip8

namespace Memory

theorem read_congr {a c : Int} (h : a ≡ c [ZMOD 4096]) (m : Memory) : m.read a = m.read c := by
  rw [← read_mod m a, h.eq, read_mod]

theorem write_congr {a c : Int} (h : a ≡ c [ZMOD 4096]) (m : Memory) (b : UInt8) :
    m.write a b = m.write c b := by
  apply ext_read
  intro e
  rw [read_write, read_write, h.eq]

theorem writeAll_congr {a c : Int} (h : a ≡ c [ZMOD 4096]) (m : Memory) (bytes : List UInt8) :
    m.writeAll a bytes = m.writeAll c bytes := by
  induction bytes generalizing m a c with
  | nil => rfl
  | cons b rest ih => rw [writeAll_cons, writeAll_cons, write_congr h, ih (h.add_right 1)]

theorem readAll_congr {a c : Int} (h : a ≡ c [ZMOD 4096]) (m : Memory) (n : Nat) :
    m.readAll a n = m.readAll c n := by
  apply List.map_congr_left
  intro k _
  exact read_congr (h.add_right k) m

end Memory

/-- Cutting addresses to sixteen bits keeps the places they point at. -/
theorem modEq_mod {a c : Int} (h : a ≡ c [ZMOD 4096]) :
    a % 65536 ≡ c % 65536 [ZMOD 4096] := by
  unfold Int.ModEq at *
  omega

/-- Reports of the same event, at addresses that point at the same place. -/
inductive Notice.Alike : Notice → Notice → Prop where
  | executed {a c : Int} (h : a ≡ c [ZMOD 4096]) (word : Word) :
      Alike (.executed a word) (.executed c word)
  | ignoredReturn {a c : Int} (h : a ≡ c [ZMOD 4096]) :
      Alike (.ignoredReturn a) (.ignoredReturn c)

variable {σ T : Type}

/-- Machines that differ at most in the high bits of addresses. -/
structure Machine.Alike (m k : Machine T) : Prop where
  registers : m.registers = k.registers
  index : m.index ≡ k.index [ZMOD 4096]
  pc : m.pc ≡ k.pc [ZMOD 4096]
  delay : m.delay = k.delay
  sound : m.sound = k.sound
  stack : List.Forall₂ (fun a c => a ≡ c [ZMOD 4096]) m.stack k.stack
  memory : m.memory = k.memory
  display : m.display = k.display
  wait : m.wait = k.wait
  lastTick : m.lastTick = k.lastTick

/-- Effects with alike machines and reports. -/
structure Effect.Alike (e f : Effect T) : Prop where
  machine : e.machine.Alike f.machine
  redrawn : e.redrawn = f.redrawn
  notices : List.Forall₂ Notice.Alike e.notices f.notices

/-- Steps to alike machines with the same use of the host, the same snapshot and alike
reports. -/
structure Step.Alike (s t : Step σ T) : Prop where
  machine : s.machine.Alike t.machine
  host : s.host = t.host
  snapshot : s.snapshot = t.snapshot
  notices : List.Forall₂ Notice.Alike s.notices t.notices

/-- Breakdowns that leave alike machines and the same host behind. -/
structure Breakdown.Alike (b c : Breakdown σ T) : Prop where
  machine : b.machine.Alike c.machine
  host : b.host = c.host

/-- Runs that both break off, in like ways, or both go through, in like steps. -/
inductive RunsAlike :
    Except (Breakdown σ T) (List (Step σ T)) → Except (Breakdown σ T) (List (Step σ T)) → Prop
    where
  | brokenOff {b c : Breakdown σ T} (h : b.Alike c) : RunsAlike (.error b) (.error c)
  | finished {s t : List (Step σ T)} (h : List.Forall₂ Step.Alike s t) :
      RunsAlike (.ok s) (.ok t)

namespace Effect.Alike

variable {m k : Machine T}

theorem quiet (h : m.Alike k) : (Effect.quiet m).Alike (.quiet k) :=
  ⟨h, rfl, .nil⟩

theorem redraw (h : m.Alike k) : (Effect.redraw m).Alike (.redraw k) :=
  ⟨h, rfl, .nil⟩

end Effect.Alike

namespace Machine.Alike

variable {m k : Machine T} (h : m.Alike k)
include h

theorem reg (x : Fin 16) : m.reg x = k.reg x := by
  rw [Machine.reg, Machine.reg, h.registers]

theorem fetch : m.fetch = k.fetch := by
  rw [Machine.fetch, Machine.fetch, h.memory, Memory.read_congr h.pc,
    Memory.read_congr (h.pc.add_right 1)]

theorem isHeld (input : Input) : m.isHeld input = k.isHeld input := by
  rw [Machine.isHeld, Machine.isHeld, h.wait]

theorem canExecute (op : Opcode) : m.canExecute op = k.canExecute op := by
  cases op with
  | readDelay x => rw [Machine.canExecute, Machine.canExecute, h.delay]
  | _ => rfl

theorem snapshot (changed waiting : Bool) :
    m.snapshot changed waiting = k.snapshot changed waiting := by
  rw [Machine.snapshot, Machine.snapshot, h.display, h.sound]

theorem advance : m.advance.Alike k.advance :=
  { h with pc := modEq_mod (h.pc.add_right 2) }

theorem skipIf (c : Bool) : (m.skipIf c).Alike (k.skipIf c) :=
  { h with pc := modEq_mod (h.pc.add_right _) }

theorem goto (a : Int) : (m.goto a).Alike (k.goto a) :=
  { h with pc := rfl }

theorem setReg (x : Fin 16) (b : UInt8) : (m.setReg x b).Alike (k.setReg x b) :=
  { h with registers := by simp only [Machine.setReg, h.registers] }

theorem setFlagged (x : Fin 16) (r : Flagged) : (m.setFlagged x r).Alike (k.setFlagged x r) :=
  (h.setReg 15 r.flagByte).setReg x r.result

theorem loadRegisters (x : Nat) (bytes : List UInt8) :
    (m.loadRegisters x bytes).Alike (k.loadRegisters x bytes) := by
  induction bytes generalizing m k x with
  | nil => exact h
  | cons b rest ih =>
      simp only [Machine.loadRegisters]
      split
      · exact ih (h.setReg _ b) (x + 1)
      · exact h

theorem drawSprite (x y : Fin 16) (n : Nat) : (m.drawSprite x y n).Alike (k.drawSprite x y n) := by
  have sprite : m.sprite n = k.sprite n := by
    rw [sprite, sprite, h.memory, Memory.readAll_congr h.index]
  simp only [Machine.drawSprite, sprite, h.display, h.reg]
  exact { h.setReg 15 _ with display := rfl }

/-- Storing bytes where the index registers point leaves the same memory. -/
theorem writeAll (bytes : List UInt8) :
    m.memory.writeAll m.index bytes = k.memory.writeAll k.index bytes := by
  rw [h.memory, Memory.writeAll_congr h.index]

/-- A return goes on after addresses that point at the same place, or both machines have no
pending call and say so. -/
theorem execute_ret (keys : Keyboard) (chance : UInt8) :
    (m.execute keys chance .ret).Alike (k.execute keys chance .ret) := by
  have stack := h.stack
  simp only [Machine.execute]
  cases hm : m.stack with
  | nil =>
      rw [hm, List.forall₂_nil_left_iff] at stack
      rw [stack]
      exact ⟨h.advance, rfl, .cons (.ignoredReturn h.pc) .nil⟩
  | cons a below =>
      rw [hm, List.forall₂_cons_left_iff] at stack
      obtain ⟨c, below', top, deeper, hk⟩ := stack
      rw [hk]
      exact .quiet { h with pc := modEq_mod (top.add_right 2), stack := deeper }

/-- Every instruction does the same to machines that are alike. -/
theorem execute (keys : Keyboard) (chance : UInt8) (op : Opcode) :
    (m.execute keys chance op).Alike (k.execute keys chance op) := by
  cases op with
  | noop => exact .quiet h.advance
  | clear => exact .redraw { h.advance with display := rfl }
  | ret => exact h.execute_ret keys chance
  | jump addr => exact .quiet (h.goto addr)
  | call addr => exact .quiet { h with pc := rfl, stack := .cons h.pc h.stack }
  | jumpV0 addr =>
      simp only [Machine.execute, h.reg]
      exact .quiet (h.goto _)
  | skipEqByte _ _ | skipNeByte _ _ | skipEqReg _ _ | skipNeReg _ _ =>
      simp only [Machine.execute, h.reg]
      exact .quiet (h.skipIf _)
  | skipKey _ | skipNoKey _ =>
      simp only [Machine.execute, keyHeld, h.reg]
      exact .quiet (h.skipIf _)
  | loadByte _ _ | addByte _ _ | random _ _ | move _ _ | or _ _ | and _ _ | xor _ _ =>
      simp only [Machine.execute, h.reg]
      exact .quiet (h.setReg _ _).advance
  | add _ _ | sub _ _ | shiftRight _ _ | subFrom _ _ | shiftLeft _ _ =>
      simp only [Machine.execute, h.reg]
      exact .quiet (h.setFlagged _ _).advance
  | loadIndex addr => exact .quiet { h.advance with index := rfl }
  | draw x y rows => exact .redraw (h.drawSprite x y rows).advance
  | readDelay _ =>
      simp only [Machine.execute, h.delay]
      exact .quiet (h.setReg _ _).advance
  | waitKey x => exact .quiet { h.advance with wait := rfl }
  | setDelay _ =>
      simp only [Machine.execute, h.reg]
      exact .quiet { h.advance with delay := rfl }
  | setSound _ =>
      simp only [Machine.execute, h.reg]
      exact .quiet { h.advance with sound := rfl }
  | addIndex _ =>
      simp only [Machine.execute, h.reg]
      exact .quiet { h.advance with index := modEq_mod (h.index.add_right _) }
  | glyph _ =>
      simp only [Machine.execute, h.reg]
      exact .quiet { h.advance with index := rfl }
  | storeDigits _ =>
      simp only [Machine.execute, h.reg]
      exact .quiet { h.advance with memory := h.writeAll _ }
  | store x =>
      simp only [Machine.execute, registersTo, h.registers]
      exact .quiet { h.advance with memory := h.writeAll _ }
  | load x =>
      simp only [Machine.execute, h.memory, Memory.readAll_congr h.index]
      exact .quiet (h.loadRegisters _ _).advance

theorem resume (press : Option Int) : (m.resume press).Alike (k.resume press) := by
  simp only [Machine.resume, h.wait]
  split
  · exact { h.setReg _ _ with wait := rfl }
  · exact h

theorem tickTimers [Instant T] (now : T) : (m.tickTimers now).Alike (k.tickTimers now) := by
  simp only [Machine.tickTimers, h.delay, h.sound, h.lastTick]
  split
  · exact { h with delay := rfl, sound := rfl, lastTick := rfl }
  · exact h

section Runs

variable [Instant T] [Host σ T] (host : σ)

theorem prepared (input : Input) : (m.prepared host input).Alike (k.prepared host input) :=
  (h.resume input.press).tickTimers _

/-- Machines that are alike take the same step and stay alike. -/
theorem step (input : Input) : (m.step host input).Alike (k.step host input) := by
  cases held : m.isHeld input with
  | true =>
      rw [step_of_isHeld held, step_of_isHeld (h.isHeld input ▸ held)]
      exact ⟨h, rfl, h.snapshot false true, .nil⟩
  | false =>
      have effect : (m.effect host input).Alike (k.effect host input) := by
        rw [Machine.effect, Machine.effect, drawn, drawn, h.fetch]
        exact (h.prepared host input).execute _ _ _
      rw [step_of_not_isHeld held, step_of_not_isHeld (h.isHeld input ▸ held), drawn, drawn,
        h.fetch, effect.redrawn]
      exact ⟨effect.machine, rfl, effect.machine.snapshot _ _,
        .cons (.executed h.pc _) effect.notices⟩

/-- Machines that are alike take the same run and stay alike all the time. -/
theorem trace (inputs : List Input) :
    List.Forall₂ Step.Alike (m.trace host inputs) (k.trace host inputs) := by
  induction inputs generalizing m k host with
  | nil => exact .nil
  | cons input rest ih =>
      have first := h.step host input
      rw [trace_cons, trace_cons, ← first.host]
      exact .cons first (ih first.machine _)

/-- A step of a machine breaks off exactly if that of a machine that is alike does. -/
theorem breakdown? (input : Input) :
    Option.Rel Breakdown.Alike (m.breakdown? host input) (k.breakdown? host input) := by
  have resumed := h.resume input.press
  have ticked := resumed.tickTimers (Host.readClock host).1
  simp only [Machine.breakdown?, resumed.wait, ticked.fetch, ticked.canExecute]
  split
  · exact .none
  · split
    · exact .none
    · exact .some ⟨ticked, rfl⟩

/-- Machines that are alike take the same run, as far as it goes. -/
theorem trace? (pass : σ → σ) (inputs : List Input) :
    RunsAlike (m.trace? pass host inputs) (k.trace? pass host inputs) := by
  induction inputs generalizing m k host with
  | nil => exact .finished .nil
  | cons input rest ih =>
      have off := h.breakdown? (pass host) input
      have first := h.step (pass host) input
      simp only [Machine.trace?, step?]
      generalize m.breakdown? (pass host) input = b at off
      generalize k.breakdown? (pass host) input = c at off
      cases off with
      | some left => exact .brokenOff left
      | none =>
          have later := ih first.machine (m.step (pass host) input).host
          simp only [← first.host]
          generalize Machine.trace? pass (m.step (pass host) input).machine _ rest = u at later ⊢
          generalize Machine.trace? pass (k.step (pass host) input).machine _ rest = v at later ⊢
          cases later with
          | brokenOff left => exact .brokenOff left
          | finished steps => exact .finished (.cons first steps)

end Runs

end Machine.Alike

namespace Machine

variable [Instant T] [Host σ T]

/-- The high bits of addresses cannot be observed. Let two machines differ at most in the bits
above the low twelve of the program counter, the index register and the saved addresses. Then
their runs on the same inputs consist of like steps: the same snapshots, the same use of the
clock and of the random bytes, the same events at addresses that point at the same place, and
again machines that differ in no other way. Where one run breaks off, so does the other one.
Addresses of sixteen bits stay so. -/
theorem high_bits_unobservable {m k : Machine T} (alike : m.Alike k) (host : σ)
    (inputs : List Input) :
    List.Forall₂ Step.Alike (m.trace host inputs) (k.trace host inputs) ∧
      (∀ pass, RunsAlike (m.trace? pass host inputs) (k.trace? pass host inputs)) ∧
      (m.Addressed → k.Addressed →
        ∀ s ∈ m.trace host inputs ++ k.trace host inputs, s.machine.Addressed) := by
  refine ⟨alike.trace host inputs, fun pass => alike.trace? host pass inputs, ?_⟩
  intro hm hk s hs
  have kept (m : Machine T) (host : σ) (input : Input) (h : m.Addressed) :
      (m.step host input).machine.Addressed := h.step host input
  obtain left | right := List.mem_append.1 hs
  · exact forall_trace_of_step kept hm host inputs s left
  · exact forall_trace_of_step kept hk host inputs s right

/-- A machine with stores, jumps, calls and returns in its program, and with its addresses as
given. -/
def addressedAt (pc index back : Int) : Machine Rat :=
  { start [0xF3, 0x55, 0xF3, 0x1E, 0x22, 0x08, 0x00, 0xEE, 0x63, 0x07, 0x00, 0xEE] 0 with
    pc, index, stack := [back] }

/-- The second machine has higher bits set in all its addresses. -/
theorem high_bits_unobservable_stack :
    let low := addressedAt 0x200 0xFFE 0x20A
    let high := addressedAt 0x1200 0x3FFE 0xF20A
    let tape : Tape Rat := ⟨fun k => k, fun _ => 0, 0, 0⟩
    low.Alike high ∧ low.Addressed ∧ high.Addressed ∧
      List.Forall₂ Step.Alike (low.trace tape (List.replicate 6 {}))
        (high.trace tape (List.replicate 6 {})) ∧
      ∀ s ∈ low.trace tape (List.replicate 6 {}) ++ high.trace tape (List.replicate 6 {}),
        s.machine.Addressed := by
  intro low high tape
  have alike : low.Alike high := {
    registers := rfl, index := by decide, pc := by decide, delay := rfl, sound := rfl
    stack := .cons (by decide) .nil
    memory := rfl, display := rfl, wait := rfl, lastTick := rfl }
  have addressed (pc index back : Int) (hp : IsAddress pc) (hi : IsAddress index)
      (hb : IsAddress back) : (addressedAt pc index back).Addressed :=
    ⟨hi, hp, by simpa [addressedAt] using hb⟩
  have hl : low.Addressed := addressed _ _ _ ⟨by decide, by decide⟩ ⟨by decide, by decide⟩
    ⟨by decide, by decide⟩
  have hh : high.Addressed := addressed _ _ _ ⟨by decide, by decide⟩ ⟨by decide, by decide⟩
    ⟨by decide, by decide⟩
  obtain ⟨steps, -, range⟩ := high_bits_unobservable alike tape (List.replicate 6 {})
  exact ⟨alike, hl, hh, steps, range hl hh⟩

end Machine

end Chip8
