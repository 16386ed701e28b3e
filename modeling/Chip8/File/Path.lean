/-!
# Paths

A path is a root and a list of names. The name of the place itself and empty names say
nothing; they are left out of a path in short form, while the name of the place above is
kept. Exactly two slashes in front form a root of their own, any other number is one root.
-/

namespace Chip8

/-- Where a path starts. -/
inductive PathRoot where
  /-- At the working directory. -/
  | relative
  | absolute
  /-- At the root that is written with two slashes. -/
  | double
deriving DecidableEq, Repr

/-- A path. -/
structure Path where
  root : PathRoot
  names : List String
deriving DecidableEq, Repr

namespace Path

/-- The pieces between slashes; there is one more piece than slashes. -/
def pieces : List Char → List (List Char)
  | [] => [[]]
  | '/' :: rest => [] :: pieces rest
  | c :: rest =>
      match pieces rest with
      | [] => [[c]]
      | p :: ps => (c :: p) :: ps

/-- The root that a text begins with. -/
def rootOf : List Char → PathRoot
  | '/' :: '/' :: '/' :: _ => .absolute
  | '/' :: '/' :: _ => .double
  | '/' :: _ => .absolute
  | _ => .relative

/-- Reads a path in short form. -/
def ofText (s : String) : Path :=
  ⟨rootOf s.toList,
    ((pieces s.toList).map String.ofList).filter fun n => n ≠ "" ∧ n ≠ "."⟩

/-- Reads a path with all names after the root. -/
def asWritten (s : String) : Path :=
  ⟨rootOf s.toList,
    (pieces (if rootOf s.toList = .relative then s.toList else s.toList.dropWhile (· = '/'))).map
      String.ofList⟩

/-- A list of names without the empty ones at its end. -/
def trimEnd (names : List String) : List String :=
  (names.reverse.dropWhile (· = "")).reverse

theorem length_trimEnd_le (names : List String) : (trimEnd names).length ≤ names.length := by
  have h := (List.dropWhile_sublist (fun n => decide (n = "")) (l := names.reverse)).length_le
  simpa [trimEnd] using h

/-- The names before the last one that is not empty. -/
def above (names : List String) : List String :=
  trimEnd (trimEnd names).dropLast

theorem length_above_lt {names : List String} (h : above names ≠ []) :
    (above names).length < names.length := by
  have dropped := length_trimEnd_le (trimEnd names).dropLast
  rw [List.length_dropLast] at dropped
  have trimmed := length_trimEnd_le names
  have some : (above names).length ≠ 0 := fun none => h (List.eq_nil_of_length_eq_zero none)
  unfold above at some ⊢
  omega

/-- The text of a root. -/
def rootText : PathRoot → String
  | .relative => ""
  | .absolute => "/"
  | .double => "//"

/-- The text of a path; the path that leads nowhere is a point. -/
def text (p : Path) : String :=
  if p.root = .relative ∧ p.names = [] then "."
  else rootText p.root ++ "/".intercalate p.names

end Path

end Chip8
