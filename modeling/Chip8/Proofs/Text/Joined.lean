/-!
# Joined texts

Texts are joined with a separator between them. They are found again by counting if they have one
length, and by the separator if they do not hold it.
-/

namespace Chip8

/-- Behind the first of joined texts stand the others, each behind a separator. -/
theorem intercalate_cons (separator t : List Char) (ts : List (List Char)) :
    separator.intercalate (t :: ts) = t ++ ts.flatMap (separator ++ ·) := by
  induction ts generalizing t with
  | nil => simp
  | cons u us ih =>
      rw [List.intercalate_cons_cons, ih, List.flatMap_cons]
      simp only [List.append_assoc]

/-- What neither the separator nor the joined texts hold, the whole text does not hold. -/
theorem not_mem_intercalate {c : Char} {separator : List Char} (free : c ∉ separator)
    {texts : List (List Char)} (each : ∀ t ∈ texts, c ∉ t) : c ∉ separator.intercalate texts := by
  cases texts with
  | nil => simp
  | cons t ts =>
      rw [intercalate_cons, List.mem_append, List.mem_flatMap]
      rintro (here | ⟨u, member, behind⟩)
      · exact each t List.mem_cons_self here
      · exact (List.mem_append.1 behind).elim free (each u (List.mem_cons_of_mem t member))

section Grids

variable (separator : List Char) {n : Nat} {texts : List (List Char)}

/-- Of joined texts of one length, those from the `k`-th on begin where `k` texts with their
separators end. -/
theorem drop_intercalate (each : ∀ t ∈ texts, t.length = n) (k : Nat) :
    (separator.intercalate texts).drop (k * (n + separator.length)) =
      separator.intercalate (texts.drop k) := by
  induction texts generalizing k with
  | nil => simp
  | cons t ts ih =>
      have here : t.length = n := each t List.mem_cons_self
      cases k with
      | zero => simp
      | succ k =>
          rw [List.drop_succ_cons, ← ih (fun u member => each u (List.mem_cons_of_mem t member)) k,
            Nat.succ_mul, Nat.add_comm, ← List.drop_drop]
          congr 1
          cases ts with
          | nil => simp [here]
          | cons u us =>
              have first : (t ++ separator).length = n + separator.length := by simp [here]
              rw [List.intercalate_cons_cons, List.drop_left' first]

/-- The length of joined texts of one length, with a separator counted behind each. -/
theorem length_intercalate (each : ∀ t ∈ texts, t.length = n) (nonempty : texts ≠ []) :
    (separator.intercalate texts).length + separator.length =
      texts.length * (n + separator.length) := by
  induction texts with
  | nil => contradiction
  | cons t ts ih =>
      have here : t.length = n := each t List.mem_cons_self
      cases ts with
      | nil => simp [here]
      | cons u us =>
          have rest := ih (fun v member => each v (List.mem_cons_of_mem t member)) (by simp)
          rw [List.intercalate_cons_cons, List.length_append, List.length_append, here,
            Nat.add_assoc, rest, List.length_cons (a := t), Nat.succ_mul, Nat.add_comm]

end Grids

/-- The first place of a character cuts a text in one way. -/
theorem append_cons_inj {c : Char} {a b r s : List Char} (first : c ∉ a) (second : c ∉ b)
    (same : a ++ c :: r = b ++ c :: s) : a = b ∧ r = s := by
  induction a generalizing b with
  | nil =>
      cases b with
      | nil => exact ⟨rfl, (List.cons.inj same).2⟩
      | cons d b => exact absurd ((List.cons.inj same).1 ▸ List.mem_cons_self) second
  | cons d a ih =>
      cases b with
      | nil => exact absurd ((List.cons.inj same).1 ▸ List.mem_cons_self) first
      | cons e b =>
          obtain ⟨head, tail⟩ := List.cons.inj same
          obtain ⟨rfl, rest⟩ := ih (fun member => first (List.mem_cons_of_mem d member))
            (fun member => second (List.mem_cons_of_mem e member)) tail
          exact ⟨by rw [head], rest⟩

/-- Commas followed by blanks are commas between texts that begin with blanks. -/
theorem blank_cons_intercalate (t : List Char) (ts : List (List Char)) :
    ' ' :: [',', ' '].intercalate (t :: ts) = [','].intercalate ((t :: ts).map (' ' :: ·)) := by
  rw [List.map_cons, intercalate_cons, intercalate_cons, List.flatMap_map]
  rfl

/-- Cut at its commas, such a text falls into the texts that were joined. -/
theorem splitOn_blank_cons_intercalate {t : List Char} {ts : List (List Char)}
    (free : ∀ u ∈ t :: ts, ',' ∉ u) :
    (' ' :: [',', ' '].intercalate (t :: ts)).splitOn ',' = (t :: ts).map (' ' :: ·) := by
  have each : ∀ v ∈ (t :: ts).map (' ' :: ·), ',' ∉ v := by
    intro v member
    obtain ⟨u, among, rfl⟩ := List.mem_map.1 member
    simp [free u among]
  rw [blank_cons_intercalate]
  exact List.splitOn_intercalate ',' each (by simp)

/-- No other texts give the same text when they are joined by commas and blanks, as long as none is
empty or holds a comma itself. -/
theorem commas_inj {ts us : List (List Char)} (left : ∀ t ∈ ts, ',' ∉ t ∧ t ≠ [])
    (right : ∀ u ∈ us, ',' ∉ u ∧ u ≠ [])
    (same : [',', ' '].intercalate ts = [',', ' '].intercalate us) : ts = us := by
  cases ts with
  | nil =>
      cases us with
      | nil => rfl
      | cons u us =>
          rw [intercalate_cons] at same
          exact absurd (List.append_eq_nil_iff.1 same.symm).1 (right u List.mem_cons_self).2
  | cons t ts =>
      cases us with
      | nil =>
          rw [intercalate_cons] at same
          exact absurd (List.append_eq_nil_iff.1 same).1 (left t List.mem_cons_self).2
      | cons u us =>
          have cut := splitOn_blank_cons_intercalate fun v member => (left v member).1
          rw [same, splitOn_blank_cons_intercalate fun v member => (right v member).1] at cut
          exact ((List.map_inj_right fun _ _ => List.tail_eq_of_cons_eq).1 cut).symm

theorem intercalate_inj {ts us : List String} (left : ∀ t ∈ ts, ',' ∉ t.toList ∧ t.toList ≠ [])
    (right : ∀ u ∈ us, ',' ∉ u.toList ∧ u.toList ≠ [])
    (same : ", ".intercalate ts = ", ".intercalate us) : ts = us := by
  have characters := congrArg String.toList same
  rw [String.toList_intercalate, String.toList_intercalate] at characters
  have texts := commas_inj (List.forall_mem_map.2 left) (List.forall_mem_map.2 right) characters
  exact (List.map_inj_right fun _ _ => String.toList_inj.1).1 texts

end Chip8
