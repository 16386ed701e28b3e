import Chip8.File.Path
import Chip8.Text.Quoted

/-!
# Failures to read or make a file
-/

namespace Chip8

/-- Why a file could not be read or made. -/
inductive FileError where
  | missing (path : Path)
  | isDirectory (path : Path)
  /-- The path leads on from something that is no directory. -/
  | notDirectory (path : Path)
  /-- There is something else at the path already. -/
  | alreadyThere (path : Path)
  /-- The path or a name in it is too long. -/
  | nameTooLong (path : Path)
  /-- The path holds a character with the code zero. -/
  | nulCharacter
deriving DecidableEq, Repr

namespace FileError

/-- The text of a failure with a number. -/
def numbered (number : Nat) (text : String) (path : Path) : String :=
  "[Errno " ++ Numeral.decimal number ++ "] " ++ text ++ ": " ++ Quoted.text path.text

/-- The text of a failure. -/
def message : FileError → String
  | missing path => numbered 2 "No such file or directory" path
  | isDirectory path => numbered 21 "Is a directory" path
  | notDirectory path => numbered 20 "Not a directory" path
  | alreadyThere path => numbered 17 "File exists" path
  | nameTooLong path => numbered 36 "File name too long" path
  | nulCharacter => "embedded null byte"

end FileError

end Chip8
