import Chip8.Display

/-!
# Snapshots

A snapshot is what a step shows to the outside: the display, whether it was redrawn,
whether the tone sounds and whether the machine waits for a key.
-/

namespace Chip8

/-- What a step shows to the outside. -/
structure Snapshot where
  display : Display
  /-- Whether the step cleared or drew. -/
  changed : Bool
  sound : Bool
  /-- Whether the step was held up by a pending key wait. -/
  waiting : Bool
deriving DecidableEq

namespace Display

/-- The text of one row: a marker for each cell, then a bar. -/
def rowText (on off : String) (row : List Bool) : String :=
  row.foldr (fun cell text => (if cell then on else off) ++ text) "|"

/-- The rows as text, separated by line breaks. -/
def picture (d : Display) (on off : String) : String :=
  "\n".intercalate (d.rows.map (rowText on off))

/-- A row as a number whose top bit is the leftmost cell. -/
def rowNumber (row : List Bool) : Nat :=
  row.foldl (fun n cell => 2 * n + cell.toNat) 0

/-- The rows with a lit cell: place and number. -/
def litRows (d : Display) : List (Nat × Nat) :=
  ((List.range height).map fun y => (y, rowNumber (d.row y))).filter fun r => r.2 ≠ 0

end Display

end Chip8
