/-!
# Files and directories

A node is a file with its bytes or a directory with named nodes. Putting a node where
names lead replaces what is there and keeps all else.
-/

namespace Chip8

/-- A file or a directory. -/
inductive FileNode where
  | file (bytes : List UInt8)
  | directory (entries : List (String × FileNode))

namespace FileNode

/-- A directory without entries. -/
def empty : FileNode :=
  .directory []

/-- The entries of a node; a file has none. -/
def entries : FileNode → List (String × FileNode)
  | file _ => []
  | directory entries => entries

/-- The entry of a name. -/
def entry (n : FileNode) (name : String) : Option FileNode :=
  n.entries.lookup name

/-- Puts a node where names lead. -/
def put (new : FileNode) : List String → FileNode → FileNode
  | [], _ => new
  | name :: rest, n =>
      .directory ((name, put new rest ((n.entry name).getD empty)) ::
        n.entries.filter fun e => e.1 ≠ name)

end FileNode

end Chip8
