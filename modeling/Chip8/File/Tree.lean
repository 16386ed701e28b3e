import Chip8.File.Error
import Chip8.File.Node

/-!
# File trees

A file tree holds files and directories below a working directory, above it and below
the root. A path is followed name by name, so every name but the last has to lead to a
directory, also if the next one leads back up or stays. Making a file makes the
directories on the way to it.
-/

namespace Chip8

/-- Where names start: so many directories above the working directory, or, if there is no
number, at the root. -/
abbrev Base := Option Nat

/-- A place that a path leads to. -/
structure Place where
  base : Base
  /-- The names that lead there, the last one first. -/
  names : List String
  node : Option FileNode

/-- What is known of the files: the directories in which names start. -/
structure FileTree where
  /-- The directories; those that are not listed are empty. -/
  bases : List (Base × FileNode)

namespace FileTree

/-- The most bytes of a name. -/
def maxNameBytes : Nat := 255

/-- The most bytes of a path. -/
def maxPathBytes : Nat := 4095

/-- A tree without files. -/
def empty : FileTree :=
  ⟨[]⟩

/-- The directory in which names start. -/
def start (t : FileTree) (base : Base) : FileNode :=
  (t.bases.lookup base).getD .empty

/-- Follows names from a place. The second argument holds the directories that lead to the
place, the nearest first. -/
def walk (t : FileTree) (path : Path) :
    Place → List FileNode → List String → Except FileError Place
  | place, _, [] => .ok place
  | place, trail, name :: rest =>
      match place.node with
      | none => .error (.missing path)
      | some (.file _) => .error (.notDirectory path)
      | some (.directory entries) =>
          if maxNameBytes < name.utf8ByteSize then .error (.nameTooLong path)
          else if name = "." then t.walk path place trail rest
          else if name = ".." then
            match trail with
            | [] =>
                let above := place.base.map (· + 1)
                t.walk path ⟨above, [], some (t.start above)⟩ [] rest
            | directory :: older =>
                t.walk path ⟨place.base, place.names.drop 1, some directory⟩ older rest
          else
            t.walk path ⟨place.base, name :: place.names, entries.lookup name⟩
              (.directory entries :: trail) rest

/-- Where the names of a path start. -/
def baseOf (p : Path) : Base :=
  if p.root = .relative then some 0 else none

/-- The place a path leads to; there need not be anything. A path without text leads
nowhere. -/
def placeOf (t : FileTree) (p : Path) : Except FileError Place :=
  if p.text.toList.contains '\x00' then .error .nulCharacter
  else if p.text = "" then .error (.missing p)
  else if maxPathBytes < p.text.utf8ByteSize then .error (.nameTooLong p)
  else
    t.walk p ⟨baseOf p, [], some (t.start (baseOf p))⟩ [] (p.names.filter (· ≠ ""))

/-- Whether there is something at a path. -/
def hasPath (t : FileTree) (p : Path) : Bool :=
  match t.placeOf p with
  | .error _ => false
  | .ok place => place.node.isSome

/-- Reads the file at a path. -/
def read (t : FileTree) (p : Path) : Except FileError (List UInt8) :=
  match t.placeOf p with
  | .error e => .error e
  | .ok place =>
      match place.node with
      | none => .error (.missing p)
      | some (.file bytes) => .ok bytes
      | some (.directory _) => .error (.isDirectory p)

/-- Puts a node at a place. -/
def put (t : FileTree) (p : Place) (node : FileNode) : FileTree :=
  ⟨(p.base, node.put p.names.reverse (t.start p.base)) ::
    t.bases.filter fun e => e.1 ≠ p.base⟩

/-- Makes a directory in one that exists, or leaves the one that is there. The second part
tells why there is no directory, if there is none. -/
def ensureDirectory (t : FileTree) (p : Path) : FileTree × Option FileError :=
  match t.placeOf p with
  | .error e => (t, some e)
  | .ok place =>
      match place.node with
      | none => (t.put place .empty, none)
      | some (.file _) => (t, some (.alreadyThere p))
      | some (.directory _) => (t, none)

/-- Makes a directory and those on the way to it, or leaves the ones that are there. Names
are taken off the end until something is there. That it is a file is not a failure before
the next name is followed, and it is none if that name stays at the place. -/
def ensureDirectories (t : FileTree) (root : PathRoot) (names : List String) :
    FileTree × Option FileError :=
  if h : Path.above names = [] ∨ t.hasPath ⟨root, Path.above names⟩ then
    t.ensureDirectory ⟨root, names⟩
  else
    have : (Path.above names).length < names.length :=
      Path.length_above_lt fun none => h (.inl none)
    let next (ready : FileTree) :=
      if (Path.trimEnd names).getLast? = some "." then (ready, none)
      else ready.ensureDirectory ⟨root, names⟩
    match t.ensureDirectories root (Path.above names) with
    | (ready, none) => next ready
    | (ready, some (.alreadyThere _)) => next ready
    | failed => failed
termination_by names.length

/-- Makes a file in a directory that exists, or replaces the one that is there. -/
def writeFile (t : FileTree) (p : Path) (bytes : List UInt8) : Except FileError FileTree :=
  match t.placeOf p with
  | .error e => .error e
  | .ok place =>
      match place.node with
      | some (.directory _) => .error (.isDirectory p)
      | _ => .ok (t.put place (.file bytes))

/-- Makes a file of bytes or, without bytes, a directory, with the directories on the way
to it. -/
def make (t : FileTree) (p : Path) : Option (List UInt8) → Except FileError FileTree
  | none =>
      match t.ensureDirectories p.root p.names with
      | (_, some e) => .error e
      | (made, none) => .ok made
  | some bytes =>
      let above := Path.trimEnd p.names.dropLast
      if above = [] then t.writeFile p bytes
      else
        match t.ensureDirectories p.root above with
        | (_, some e) => .error e
        | (ready, none) => ready.writeFile p bytes

/-- Makes files and directories in order. -/
def makeAll (t : FileTree) : List (Path × Option (List UInt8)) → Except FileError FileTree
  | [] => .ok t
  | (p, bytes) :: rest =>
      match t.make p bytes with
      | .error e => .error e
      | .ok made => made.makeAll rest

end FileTree

end Chip8
