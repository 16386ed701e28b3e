import Chip8.Console.Keypad

/-!
# The key table

A keypad has sixteen keys by its type. A table has not: it gets an entry for every number that
is put in. A poll of a table finds the number of a key by its code, in the table of codes turned
round, and puts in what it finds. Starting with the keys 0 to 15, it never gets another entry:
it is the layout of a keypad all the time.
-/

namespace Chip8

/-- Entries for numbers, in the order in which the numbers were first put in. -/
abbrev Table (α : Type) := List (Int × α)

namespace Table

variable {α ι : Type}

/-- Replaces the entry of a number; a new number gets an entry behind the others. -/
def put (t : Table α) (key : Int) (value : α) : Table α :=
  if t.any fun e => e.1 = key then t.map fun e => if e.1 = key then (key, value) else e
  else t ++ [(key, value)]

/-- A table of the values of a function has for a number the value of the first argument that
has it. -/
theorem lookup_map (key : ι → Int) (value : ι → α) (xs : List ι) (n : Int) :
    (xs.map fun x => (key x, value x)).lookup n = (xs.find? fun x => key x = n).map value := by
  induction xs with
  | nil => rfl
  | cons x rest ih =>
      rw [List.map_cons, List.lookup_cons, List.find?_cons, ih]
      by_cases here : key x = n
      · simp [here]
      · have other : (n == key x) = false := beq_false_of_ne fun same => here same.symm
        simp [here, other]

/-- The code of each key. -/
def codes : Table Int :=
  (List.finRange 16).map fun k => ((k.val : Int), Keypad.code k)

/-- The key with each code. -/
def keys : Table Int :=
  codes.foldl (fun t e => t.put e.2 e.1) []

/-- All sixteen keys, released. -/
def released : Table Bool :=
  (List.range 16).map fun k : Nat => ((k : Int), false)

theorem keys_eq : keys = (List.finRange 16).map fun k => (Keypad.code k, (k.val : Int)) := by
  decide

/-- The codes turned round lead to the keys that have them. -/
theorem lookup_keys (c : Int) : keys.lookup c = (Keypad.keyFor c).map fun k => (k.val : Int) := by
  rw [keys_eq, lookup_map, Keypad.keyFor]

end Table

/-- The state of a poll of a table while it goes through its events. -/
structure TablePoll where
  table : Table Bool
  /-- The last key that went down in this poll. -/
  press : Option Int
  /-- Whether nothing has asked to stop. -/
  running : Bool
deriving DecidableEq

namespace TablePoll

/-- Takes in that the key with a code went down or up. -/
def stroke (p : TablePoll) (c : Int) (down : Bool) : TablePoll :=
  if c = Keypad.escapeCode then { p with running := false }
  else
    match Table.keys.lookup c with
    | none => p
    | some key =>
        { p with table := p.table.put key down, press := if down then some key else p.press }

/-- Takes in one event. -/
def take (p : TablePoll) : KeyEvent → TablePoll
  | .quit => { p with running := false }
  | .other => p
  | .down c => p.stroke c true
  | .up c => p.stroke c false

end TablePoll

namespace Table

/-- Polls: takes in the events since the last poll. -/
def poll (t : Table Bool) (events : List KeyEvent) : TablePoll :=
  events.foldl TablePoll.take ⟨t, none, true⟩

/-- The table after polls. -/
def afterPolls (t : Table Bool) (polls : List (List KeyEvent)) : Table Bool :=
  polls.foldl (fun t events => (t.poll events).table) t

end Table

namespace Keypad

/-- The keypad after polls. -/
def afterPolls (p : Keypad) (polls : List (List KeyEvent)) : Keypad :=
  polls.foldl (fun p events => (p.poll events).pad) p

/-- The layout of a keypad as a table. -/
def table (p : Keypad) : Table Bool :=
  (List.finRange 16).map fun k => ((k.val : Int), p.isHeld k)

theorem table_released : released.table = Table.released := by
  decide

/-- A layout has the keys 0 to 15 and no others. -/
theorem keys_table (p : Keypad) : p.table.map Prod.fst = (List.range 16).map Int.ofNat := by
  rw [table, List.map_map]
  rfl

/-- A layout tells which keys are held. -/
theorem lookup_table (p : Keypad) (k : Fin 16) :
    p.table.lookup (k.val : Int) = some (p.isHeld k) := by
  have found : ((List.finRange 16).find? fun j => (j.val : Int) = k.val) = some k := by
    revert k
    decide
  rw [table, Table.lookup_map, found]
  rfl

/-- Putting in one of the sixteen keys does what setting it does. -/
theorem put_table (p : Keypad) (k : Fin 16) (down : Bool) :
    p.table.put (k.val : Int) down = (p.set k down).table := by
  have present : (p.table.any fun e => e.1 = (k.val : Int)) = true := by
    simp [table]
  rw [Table.put, if_pos present, table, table, List.map_map]
  apply List.map_congr_left
  intro j _
  by_cases here : k = j
  · simp [here, isHeld_set]
  · have other : ¬ (j.val : Int) = k.val := by omega
    simp [here, other, isHeld_set]

end Keypad

namespace KeyPoll

/-- The layout of a poll of a keypad as a poll of a table. -/
def table (p : KeyPoll) : TablePoll :=
  ⟨p.pad.table, p.press.map fun k => (k.val : Int), p.running⟩

/-- A layout takes in an event as the poll does. -/
theorem take_table (p : KeyPoll) (e : KeyEvent) : p.table.take e = (p.take e).table := by
  cases e with
  | quit | other => rfl
  | down c | up c =>
      simp only [TablePoll.take, TablePoll.stroke, take, Table.lookup_keys]
      by_cases stops : c = Keypad.escapeCode
      · simp only [if_pos stops]
        rfl
      · simp only [if_neg stops]
        cases Keypad.keyFor c with
        | none => rfl
        | some k => simp [table, Keypad.put_table]

end KeyPoll

namespace Keypad

/-- A poll of a layout is the layout of the poll. -/
theorem poll_table (p : Keypad) (events : List KeyEvent) :
    p.table.poll events = (p.poll events).table := by
  have onward (q : KeyPoll) : events.foldl TablePoll.take q.table =
      (events.foldl KeyPoll.take q).table := by
    induction events generalizing q with
    | nil => rfl
    | cons e rest ih => rw [List.foldl_cons, List.foldl_cons, KeyPoll.take_table, ih]
  exact onward ⟨p, none, true⟩

/-- After any polls a layout is the layout of the keypad after them. -/
theorem afterPolls_table (p : Keypad) (polls : List (List KeyEvent)) :
    p.table.afterPolls polls = (p.afterPolls polls).table := by
  induction polls generalizing p with
  | nil => rfl
  | cons events rest ih =>
      have first : (p.table.poll events).table = (p.poll events).pad.table := by
        rw [poll_table]
        rfl
      rw [Table.afterPolls, List.foldl_cons, first]
      exact ih _

end Keypad

end Chip8
