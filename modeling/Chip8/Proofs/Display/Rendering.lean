import Chip8.Proofs.Text.Joined
import Chip8.Snapshot

/-!
# Rendered displays

The text of a display is a grid. Its rows have one length, and in a row the cells have one
length, so both are found by counting alone, whatever characters the markers hold. A text shows
one display only.
-/

namespace Chip8

namespace Display

/-- The marker of a cell. -/
def marker (on off : String) (cell : Bool) : List Char :=
  (if cell then on else off).toList

/-- What is printed below row `y`. -/
def below (d : Display) (on off : String) (y : Nat) : List Char :=
  (d.rows.drop (y + 1)).flatMap fun row => '\n' :: (rowText on off row).toList

theorem toList_rowText_nil (on off : String) : (rowText on off []).toList = ['|'] := by
  simp [rowText]

theorem toList_rowText_cons (on off : String) (cell : Bool) (row : List Bool) :
    (rowText on off (cell :: row)).toList =
      marker on off cell ++ (rowText on off row).toList := by
  rw [rowText, List.foldr_cons, String.toList_append]
  rfl

theorem toList_picture (d : Display) (on off : String) :
    (d.picture on off).toList =
      ['\n'].intercalate (d.rows.map fun row => (rowText on off row).toList) := by
  simp [picture, String.toList_intercalate, Function.comp_def]

@[simp] theorem length_row (d : Display) (y : Nat) : (d.row y).length = 64 := by
  simp [row, width]

@[simp] theorem length_rows (d : Display) : d.rows.length = 32 := by
  simp [rows, height]

/-- The rows from row `y` on begin with it. -/
theorem drop_rows (d : Display) {y : Nat} (inside : y < 32) :
    d.rows.drop y = d.row y :: d.rows.drop (y + 1) := by
  have there : y < d.rows.length := by simpa using inside
  rw [List.drop_eq_getElem_cons there]
  simp [rows]

/-- A line break follows each row but the last. -/
theorem below_of_lt (d : Display) (on off : String) {y : Nat} (inside : y < 31) :
    ∃ rest, d.below on off y = '\n' :: rest := by
  rw [below, d.drop_rows (by omega)]
  exact ⟨_, rfl⟩

section Markers

variable {on off : String} (same : on.length = off.length)
include same

theorem length_marker (cell : Bool) : (marker on off cell).length = on.length := by
  cases cell <;> simp [marker, same, String.length_toList]

theorem length_rowText (row : List Bool) :
    (rowText on off row).toList.length = row.length * on.length + 1 := by
  induction row with
  | nil => simp [toList_rowText_nil]
  | cons cell row ih =>
      rw [toList_rowText_cons, List.length_append, length_marker same, ih, List.length_cons,
        Nat.succ_mul]
      omega

/-- Behind `x` markers stands the text of the other cells. -/
theorem drop_rowText {row : List Bool} {x : Nat} (inside : x ≤ row.length) :
    (rowText on off row).toList.drop (x * on.length) = (rowText on off (row.drop x)).toList := by
  induction row generalizing x with
  | nil =>
      obtain rfl : x = 0 := by simpa using inside
      simp
  | cons cell row ih =>
      cases x with
      | zero => simp
      | succ x =>
          rw [toList_rowText_cons, Nat.succ_mul, Nat.add_comm, ← List.drop_drop,
            List.drop_left' (length_marker same cell), List.drop_succ_cons,
            ih (Nat.le_of_succ_le_succ inside)]

theorem length_of_mem_rowTexts (d : Display) :
    ∀ t ∈ d.rows.map fun row => (rowText on off row).toList, t.length = 64 * on.length + 1 := by
  intro t member
  simp only [rows, List.map_map, List.mem_map, Function.comp_def] at member
  obtain ⟨y, -, rfl⟩ := member
  rw [length_rowText same, length_row]

theorem length_picture (d : Display) :
    (d.picture on off).length = 32 * (64 * on.length + 1) + 31 := by
  have whole := length_intercalate ['\n'] (d.length_of_mem_rowTexts same)
    (by simp [rows, height])
  rw [← toList_picture, String.length_toList] at whole
  simp only [List.length_map, length_rows, List.length_singleton] at whole
  omega

/-- Row `y` starts where the number of rows before it says, and the rows below follow. -/
theorem drop_picture_row (d : Display) {y : Nat} (inside : y < 32) :
    (d.picture on off).toList.drop (y * (64 * on.length + 2)) =
      (rowText on off (d.row y)).toList ++ d.below on off y := by
  have found := drop_intercalate ['\n'] (d.length_of_mem_rowTexts same) y
  rw [← toList_picture, ← List.map_drop, d.drop_rows inside, List.map_cons, intercalate_cons,
    List.flatMap_map] at found
  exact found

/-- In a row the cells from column `x` on start where the number of cells before them says. -/
theorem drop_picture (d : Display) {x y : Nat} (column : x ≤ 64) (inside : y < 32) :
    (d.picture on off).toList.drop (y * (64 * on.length + 2) + x * on.length) =
      (rowText on off ((d.row y).drop x)).toList ++ d.below on off y := by
  have fits : x * on.length ≤ (rowText on off (d.row y)).toList.length := by
    rw [length_rowText same, length_row]
    exact Nat.le_succ_of_le (Nat.mul_le_mul_right _ column)
  rw [← List.drop_drop, drop_picture_row same d inside, List.drop_append_of_le_length fits,
    drop_rowText same (by simpa using column)]

/-- Each cell is found at its place. -/
theorem marker_of_picture (d : Display) {x y : Nat} (column : x < 64) (inside : y < 32) :
    ((d.picture on off).toList.drop (y * (64 * on.length + 2) + x * on.length)).take on.length =
      marker on off (d.lit x y) := by
  have cells : (d.row y).drop x = d.lit x y :: (d.row y).drop (x + 1) := by
    rw [List.drop_eq_getElem_cons (by simpa using column)]
    simp [row]
  rw [drop_picture same d (Nat.le_of_lt column) inside, cells, toList_rowText_cons,
    List.append_assoc, List.take_left' (length_marker same _)]

/-- A bar follows each row. -/
theorem bar_of_picture (d : Display) {y : Nat} (inside : y < 32) :
    (d.picture on off).toList.drop (y * (64 * on.length + 2) + 64 * on.length) =
      '|' :: d.below on off y := by
  rw [drop_picture same d (Nat.le_refl 64) inside, List.drop_of_length_le (by simp),
    toList_rowText_nil]
  rfl

end Markers

theorem marker_injective {on off : String} (distinct : on ≠ off) {a b : Bool}
    (alike : marker on off a = marker on off b) : a = b := by
  cases a <;> cases b <;> simp_all [marker, String.toList_inj, eq_comm]

/-- The text of a display is faithful, whatever characters the two markers hold, as long as they
are different and of one length. Row `y` starts behind `y` rows of 64 markers, a bar and a line
break, and in it the marker of column `x` starts behind `x` markers. A bar follows the cells of
each row, and a line break each bar but the last. So no two displays have the same text. -/
theorem picture_faithful {on off : String} (distinct : on ≠ off) (same : on.length = off.length)
    (d : Display) :
    (d.picture on off).length = 32 * (64 * on.length + 1) + 31 ∧
      (∀ x < 64, ∀ y < 32,
        ((d.picture on off).toList.drop (y * (64 * on.length + 2) + x * on.length)).take on.length =
          (if d.lit x y then on else off).toList) ∧
      (∀ y < 32, (d.picture on off).toList[y * (64 * on.length + 2) + 64 * on.length]? = some '|') ∧
      (∀ y < 31,
        (d.picture on off).toList[y * (64 * on.length + 2) + 64 * on.length + 1]? = some '\n') ∧
      ∀ e : Display, d.picture on off = e.picture on off → d = e := by
  refine ⟨length_picture same d, fun x column y inside => marker_of_picture same d column inside,
    ?_, ?_, ?_⟩
  · intro y inside
    rw [← List.head?_drop, bar_of_picture same d inside]
    rfl
  · intro y inside
    obtain ⟨rest, broken⟩ := d.below_of_lt on off inside
    rw [← List.head?_drop, ← List.drop_drop, bar_of_picture same d (by omega), broken]
    rfl
  · intro e alike
    apply ext_lit
    intro x y
    have column : x % 64 < 64 := Nat.mod_lt x (by decide)
    have inside : y % 32 < 32 := Nat.mod_lt y (by decide)
    have cell := marker_of_picture same d column inside
    rw [alike, marker_of_picture same e column inside] at cell
    simpa only [lit_mod] using (marker_injective distinct cell).symm

/-- With a bar and a line break as markers, the text of a display with its last cell lit ends in
two bars, and it is not the text of a dark display. -/
theorem picture_faithful_bars :
    "|" ≠ "\n" ∧ "|".length = "\n".length ∧
      ((blank.light 63 31).picture "|" "\n").length = 2111 ∧
      (((blank.light 63 31).picture "|" "\n").toList.drop (31 * 66 + 63)).take 1 = ['|'] ∧
      ((blank.light 63 31).picture "|" "\n").toList[31 * 66 + 64]? = some '|' ∧
      (blank.light 63 31).picture "|" "\n" ≠ blank.picture "|" "\n" := by
  have distinct : "|" ≠ "\n" := by decide
  obtain ⟨length, cells, bars, -, alike⟩ := picture_faithful distinct rfl (blank.light 63 31)
  have one : "|".length = 1 := rfl
  simp only [one, Nat.mul_one, Nat.reduceMul, Nat.reduceAdd] at length cells bars
  have lit : (blank.light 63 31).lit 63 31 = true := by simp [lit_light]
  refine ⟨distinct, rfl, length, ?_, bars 31 (by decide), ?_⟩
  · have cell := cells 63 (by decide) 31 (by decide)
    rwa [if_pos lit] at cell
  · intro same
    rw [alike blank same, lit_blank] at lit
    exact Bool.false_ne_true lit

end Display

end Chip8
