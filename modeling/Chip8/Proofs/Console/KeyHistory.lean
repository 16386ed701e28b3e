import Chip8.Proofs.Console.KeyTable
import Mathlib.Data.List.Basic

/-!
# What a keypad remembers

The state of a key is told by the last event for its code in all polls so far, the pressed key
by the events of the latest poll alone. Events that are no strokes of one of the sixteen keys
change neither.
-/

namespace Chip8

namespace KeyEvent

/-- Whether one of the sixteen keys went down or up. -/
def isStroke : KeyEvent → Bool
  | .down c | .up c => decide (∃ k, Keypad.code k = c)
  | .quit | .other => false

/-- Whether the event asks to stop. -/
def stops : KeyEvent → Bool
  | .quit => true
  | .down c | .up c => c = Keypad.escapeCode
  | .other => false

/-- A key goes down, it goes up, or the event is no stroke. -/
theorem stroke_cases (e : KeyEvent) :
    (∃ k, e = .down (Keypad.code k)) ∨ (∃ k, e = .up (Keypad.code k)) ∨ e.isStroke = false := by
  cases e with
  | quit | other => exact .inr (.inr rfl)
  | down c =>
      by_cases mapped : ∃ k, Keypad.code k = c
      · obtain ⟨k, rfl⟩ := mapped
        exact .inl ⟨k, rfl⟩
      · exact .inr (.inr (decide_eq_false mapped))
  | up c =>
      by_cases mapped : ∃ k, Keypad.code k = c
      · obtain ⟨k, rfl⟩ := mapped
        exact .inr (.inl ⟨k, rfl⟩)
      · exact .inr (.inr (decide_eq_false mapped))

/-- The strokes of a key are strokes. -/
theorem isStroke_code (k : Fin 16) :
    (down (Keypad.code k)).isStroke = true ∧ (up (Keypad.code k)).isStroke = true :=
  ⟨decide_eq_true ⟨k, rfl⟩, decide_eq_true ⟨k, rfl⟩⟩

theorem stops_iff {events : List KeyEvent} :
    (∃ e ∈ events, e.stops = true) ↔
      .quit ∈ events ∨ .down Keypad.escapeCode ∈ events ∨ .up Keypad.escapeCode ∈ events := by
  constructor
  · rintro ⟨e, member, h⟩
    cases e with
    | quit => exact .inl member
    | down c => exact .inr (.inl (of_decide_eq_true h ▸ member))
    | up c => exact .inr (.inr (of_decide_eq_true h ▸ member))
    | other => cases h
  · rintro (member | member | member) <;> exact ⟨_, member, rfl⟩

/-- Of the events with a property, the last one is a given one. -/
def IsLast (P : KeyEvent → Prop) (x : KeyEvent) (events : List KeyEvent) : Prop :=
  ∃ earlier later, events = earlier ++ x :: later ∧ ∀ e ∈ later, ¬ P e

theorem not_isLast_nil {P : KeyEvent → Prop} {x : KeyEvent} : ¬ IsLast P x [] := by
  rintro ⟨earlier, later, split, -⟩
  simp at split

theorem isLast_cons {P : KeyEvent → Prop} {x e : KeyEvent} {rest : List KeyEvent} :
    IsLast P x (e :: rest) ↔ IsLast P x rest ∨ e = x ∧ ∀ y ∈ rest, ¬ P y := by
  constructor
  · rintro ⟨earlier, later, split, none⟩
    cases earlier with
    | nil =>
        obtain ⟨rfl, rfl⟩ := List.cons.inj split
        exact .inr ⟨rfl, none⟩
    | cons first earlier =>
        obtain ⟨rfl, rfl⟩ := List.cons.inj split
        exact .inl ⟨earlier, later, rfl, none⟩
  · rintro (⟨earlier, later, rfl, none⟩ | ⟨rfl, none⟩)
    · exact ⟨e :: earlier, later, rfl, none⟩
    · exact ⟨[], rest, rfl, none⟩

/-- The strokes of a key. -/
def IsOf (k : Fin 16) (e : KeyEvent) : Prop :=
  e = .down (Keypad.code k) ∨ e = .up (Keypad.code k)

/-- One of the sixteen keys goes down. -/
def IsDown (e : KeyEvent) : Prop :=
  ∃ k, e = .down (Keypad.code k)

end KeyEvent

open KeyEvent

namespace Keypad

theorem code_ne_escapeCode (k : Fin 16) : code k ≠ escapeCode := by
  revert k
  decide

theorem code_inj {j k : Fin 16} : code j = code k ↔ j = k :=
  ⟨code_injective j k, fun same => same ▸ rfl⟩

end Keypad

namespace KeyPoll

theorem take_down_code (p : KeyPoll) (k : Fin 16) :
    p.take (.down (Keypad.code k)) = { p with pad := p.pad.set k true, press := some k } := by
  simp [take, Keypad.code_ne_escapeCode, Keypad.keyFor_code]

theorem take_up_code (p : KeyPoll) (k : Fin 16) :
    p.take (.up (Keypad.code k)) = { p with pad := p.pad.set k false } := by
  simp [take, Keypad.code_ne_escapeCode, Keypad.keyFor_code]

/-- An event that is no stroke can only stop a poll. -/
theorem take_of_not_isStroke (p : KeyPoll) {e : KeyEvent} (h : e.isStroke = false) :
    p.take e = { p with running := p.running && !e.stops } := by
  cases e with
  | quit | other => simp [take, stops]
  | down c | up c =>
      have unmapped : Keypad.keyFor c = none := by
        refine Option.eq_none_iff_forall_ne_some.2 fun k found => ?_
        exact of_decide_eq_false h ⟨k, Keypad.keyFor_eq_some_iff.1 found⟩
      by_cases escape : c = Keypad.escapeCode
      · simp [take, stops, escape]
      · simp [take, stops, escape, unmapped]

/-- A key is held after its code went down, and after events of other codes if it was. -/
theorem isHeld_take (k : Fin 16) (p : KeyPoll) (e : KeyEvent) :
    (p.take e).pad.isHeld k = true ↔
      e = .down (Keypad.code k) ∨ ¬ IsOf k e ∧ p.pad.isHeld k = true := by
  obtain ⟨j, rfl⟩ | ⟨j, rfl⟩ | still := e.stroke_cases
  · by_cases here : j = k <;>
      simp [take_down_code, Keypad.isHeld_set, IsOf, Keypad.code_inj, here]
  · by_cases here : j = k <;>
      simp [take_up_code, Keypad.isHeld_set, IsOf, Keypad.code_inj, here]
  · have foreign : ¬ IsOf k e := by
      rintro (rfl | rfl) <;> simp [isStroke_code] at still
    have different : e ≠ .down (Keypad.code k) := fun same => foreign (.inl same)
    simp [take_of_not_isStroke p still, foreign, different]

/-- The press is the key that went down, or what it was before if none did. -/
theorem press_take (p : KeyPoll) (e : KeyEvent) :
    (∃ k, e = .down (Keypad.code k) ∧ (p.take e).press = some k) ∨
      ¬ IsDown e ∧ (p.take e).press = p.press := by
  obtain ⟨j, rfl⟩ | ⟨j, rfl⟩ | still := e.stroke_cases
  · exact .inl ⟨j, rfl, by rw [take_down_code]⟩
  · exact .inr ⟨by simp [IsDown], by rw [take_up_code]⟩
  · refine .inr ⟨?_, by rw [take_of_not_isStroke p still]⟩
    rintro ⟨k, rfl⟩
    simp [isStroke_code] at still

theorem running_take (p : KeyPoll) (e : KeyEvent) :
    (p.take e).running = (p.running && !e.stops) := by
  obtain ⟨j, rfl⟩ | ⟨j, rfl⟩ | still := e.stroke_cases
  · simp [take_down_code, stops, Keypad.code_ne_escapeCode]
  · simp [take_up_code, stops, Keypad.code_ne_escapeCode]
  · rw [take_of_not_isStroke p still]

/-- What one sort of event sets and the others of its kind clear is told by the last event of
the kind. -/
theorem foldl_take_iff_isLast (holds : KeyPoll → Prop) {P : KeyEvent → Prop} {x : KeyEvent}
    (one : ∀ p e, holds (p.take e) ↔ e = x ∨ ¬ P e ∧ holds p) (p : KeyPoll)
    (events : List KeyEvent) :
    holds (events.foldl take p) ↔ IsLast P x events ∨ holds p ∧ ∀ e ∈ events, ¬ P e := by
  induction events generalizing p with
  | nil => simp [not_isLast_nil]
  | cons e rest ih =>
      rw [List.foldl_cons, ih, one, isLast_cons, List.forall_mem_cons]
      rw [or_and_right, or_assoc, and_assoc, and_left_comm]

/-- The poll of the later events, with what the earlier ones left: their press if there is no
later one, and their wish to stop. -/
def onto (later earlier : KeyPoll) : KeyPoll :=
  ⟨later.pad, later.press.or earlier.press, earlier.running && later.running⟩

theorem take_onto (later earlier : KeyPoll) (e : KeyEvent) :
    (later.onto earlier).take e = (later.take e).onto earlier := by
  obtain ⟨j, rfl⟩ | ⟨j, rfl⟩ | still := e.stroke_cases
  · simp [take_down_code, onto]
  · simp [take_up_code, onto]
  · simp [take_of_not_isStroke _ still, onto, Bool.and_assoc]

/-- Going on with more events is polling them and joining the results. -/
theorem foldl_take_eq_onto (p : KeyPoll) (events : List KeyEvent) :
    events.foldl take p = (p.pad.poll events).onto p := by
  have onward (later : KeyPoll) : events.foldl take (later.onto p) =
      (events.foldl take later).onto p := by
    induction events generalizing later with
    | nil => rfl
    | cons e rest ih => rw [List.foldl_cons, take_onto, ih, List.foldl_cons]
  have begun : p = (⟨p.pad, none, true⟩ : KeyPoll).onto p := by
    simp [onto]
  calc events.foldl take p = events.foldl take ((⟨p.pad, none, true⟩ : KeyPoll).onto p) := by
        rw [← begun]
    _ = (p.pad.poll events).onto p := onward _

end KeyPoll

namespace Keypad

theorem poll_append (p : Keypad) (xs ys : List KeyEvent) :
    p.poll (xs ++ ys) = ((p.poll xs).pad.poll ys).onto (p.poll xs) := by
  rw [poll, List.foldl_append]
  exact KeyPoll.foldl_take_eq_onto (p.poll xs) ys

theorem poll_cons (p : Keypad) (e : KeyEvent) (rest : List KeyEvent) :
    p.poll (e :: rest) = ((p.poll [e]).pad.poll rest).onto (p.poll [e]) :=
  poll_append p [e] rest

/-- Polls leave the keypad that one poll of all their events leaves. -/
theorem afterPolls_eq (p : Keypad) (polls : List (List KeyEvent)) :
    p.afterPolls polls = (p.poll polls.flatten).pad := by
  induction polls generalizing p with
  | nil => rfl
  | cons events rest ih =>
      rw [List.flatten_cons, poll_append]
      exact ih _

/-- A key is held after the polls if its last stroke so far took it down. -/
theorem isHeld_poll (polls : List (List KeyEvent)) (events : List KeyEvent) (k : Fin 16) :
    ((released.afterPolls polls).poll events).pad.isHeld k = true ↔
      IsLast (IsOf k) (.down (code k)) (polls.flatten ++ events) := by
  have joined : ((released.afterPolls polls).poll events).pad =
      (released.poll (polls.flatten ++ events)).pad := by
    rw [afterPolls_eq, poll_append]
    rfl
  have fresh : released.isHeld k = false := by
    revert k
    decide
  have last := KeyPoll.foldl_take_iff_isLast (fun q => q.pad.isHeld k = true)
    (KeyPoll.isHeld_take k) ⟨released, none, true⟩ (polls.flatten ++ events)
  rw [joined]
  simpa [poll, fresh] using last

/-- The press is the key of the last stroke of the poll that took a key down. -/
theorem press_poll (p : Keypad) (events : List KeyEvent) (k : Fin 16) :
    (p.poll events).press = some k ↔ IsLast IsDown (.down (code k)) events := by
  have one (q : KeyPoll) (e : KeyEvent) : (q.take e).press = some k ↔
      e = .down (code k) ∨ ¬ IsDown e ∧ q.press = some k := by
    obtain ⟨j, rfl, pressed⟩ | ⟨up, kept⟩ := q.press_take e
    · simp [pressed, code_inj, IsDown]
    · have different : e ≠ .down (code k) := fun same => up ⟨k, same⟩
      simp [kept, up, different]
  have last := KeyPoll.foldl_take_iff_isLast (fun q => q.press = some k) one
    ⟨p, none, true⟩ events
  simpa [poll] using last

/-- There is no press if no key went down in the poll. -/
theorem press_poll_eq_none (p : Keypad) (events : List KeyEvent) :
    (p.poll events).press = none ↔ ∀ e ∈ events, ¬ IsDown e := by
  induction events generalizing p with
  | nil => simp [poll]
  | cons e rest ih =>
      rw [poll_cons, List.forall_mem_cons, ← ih (p.poll [e]).pad]
      have only : (p.poll [e]).press = none ↔ ¬ IsDown e := by
        obtain ⟨k, rfl, pressed⟩ | ⟨up, kept⟩ := KeyPoll.press_take ⟨p, none, true⟩ e
        · simp [poll, pressed, IsDown, code_inj]
        · simp [poll, kept, up]
      simp [KeyPoll.onto, only, and_comm]

/-- A poll stops running at an event that asks to stop. -/
theorem running_poll (p : Keypad) (events : List KeyEvent) :
    (p.poll events).running = false ↔ ∃ e ∈ events, e.stops = true := by
  induction events generalizing p with
  | nil => simp [poll]
  | cons e rest ih =>
      have first : (p.poll [e]).running = !e.stops := KeyPoll.running_take ⟨p, none, true⟩ e
      rw [poll_cons, List.exists_mem_cons_iff, ← ih (p.poll [e]).pad]
      cases asked : e.stops <;> simp [KeyPoll.onto, first, asked]

/-- Leaving out the events that are no strokes changes neither keypad nor press. -/
theorem poll_filter_isStroke (p : Keypad) (events : List KeyEvent) :
    (p.poll (events.filter isStroke)).pad = (p.poll events).pad ∧
      (p.poll (events.filter isStroke)).press = (p.poll events).press := by
  induction events generalizing p with
  | nil => exact ⟨rfl, rfl⟩
  | cons e rest ih =>
      obtain ⟨samePad, samePress⟩ := ih (p.poll [e]).pad
      cases kept : e.isStroke with
      | true =>
          rw [List.filter_cons_of_pos kept, poll_cons, poll_cons p e rest]
          simp [KeyPoll.onto, samePad, samePress]
      | false =>
          have still : p.poll [e] = ⟨p, none, true && !e.stops⟩ :=
            KeyPoll.take_of_not_isStroke ⟨p, none, true⟩ kept
          rw [still] at samePad samePress
          rw [List.filter_cons_of_neg (by simp [kept]), poll_cons p e rest, still]
          simp [KeyPoll.onto, samePad, samePress]

/-- After any polls, a further poll leaves a table of the sixteen keys in which a key is held
just if the last stroke for its code in all polls took it down. It returns the key of its own
last stroke that took a key down, and it runs on unless it was asked to stop. What is no stroke
does not count, and the events of a poll may as well come in two polls. -/
theorem poll_after_polls (polls : List (List KeyEvent)) (events : List KeyEvent) :
    let polled := (released.afterPolls polls).poll events
    (Table.released.afterPolls polls).poll events = polled.table ∧
      polled.pad.table.map Prod.fst = (List.range 16).map Int.ofNat ∧
      (∀ k : Fin 16, polled.pad.table.lookup (k.val : Int) = some (polled.pad.isHeld k) ∧
        (polled.pad.isHeld k = true ↔
          IsLast (IsOf k) (.down (code k)) (polls.flatten ++ events))) ∧
      (∀ k, polled.press = some k ↔ IsLast IsDown (.down (code k)) events) ∧
      (polled.press = none ↔ ∀ e ∈ events, ¬ IsDown e) ∧
      (polled.running = false ↔
        .quit ∈ events ∨ .down escapeCode ∈ events ∨ .up escapeCode ∈ events) ∧
      (∀ (p : Keypad) (mixed : List KeyEvent),
        (p.poll (mixed.filter isStroke)).pad = (p.poll mixed).pad ∧
          (p.poll (mixed.filter isStroke)).press = (p.poll mixed).press) ∧
      ∀ (p : Keypad) (xs ys : List KeyEvent),
        let first := p.poll xs
        let second := first.pad.poll ys
        (p.poll (xs ++ ys)).pad = second.pad ∧
          (p.poll (xs ++ ys)).press = second.press.or first.press ∧
          (p.poll (xs ++ ys)).running = (first.running && second.running) := by
  intro polled
  refine ⟨?_, keys_table _, fun k => ⟨lookup_table _ k, isHeld_poll polls events k⟩,
    press_poll _ events, press_poll_eq_none _ events, ?_, poll_filter_isStroke, ?_⟩
  · rw [← table_released, afterPolls_table, poll_table]
  · rw [running_poll, stops_iff]
  · intro p xs ys first second
    rw [poll_append]
    exact ⟨rfl, rfl, rfl⟩

end Keypad

end Chip8
