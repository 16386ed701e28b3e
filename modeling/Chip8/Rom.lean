import Chip8.File.Error
import Chip8.Log
import Chip8.Memory

/-!
# Program files

A program file is accepted if it fits between the program's start and the end of
memory.
-/

namespace Chip8

/-- Reads the bytes of the file at a path. -/
abbrev Disk := Path → Except FileError (List UInt8)

/-- Why a program file was not accepted. -/
inductive RomError where
  | unreadable (cause : FileError)
  | tooLarge (size : Nat)
deriving DecidableEq, Repr

namespace RomError

/-- The text of a refusal. -/
def message : RomError → String
  | unreadable cause => cause.message
  | tooLarge size =>
      "ROM is too large for memory (" ++ Numeral.decimal size ++ " bytes, max " ++
        Numeral.decimal Memory.programLimit ++ ")"

end RomError

namespace Rom

/-- Reads a program file. -/
def read (disk : Disk) (path : Path) : Except RomError (List UInt8) :=
  match disk path with
  | .error cause => .error (.unreadable cause)
  | .ok bytes =>
      if Memory.programLimit < bytes.length then .error (.tooLarge bytes.length) else .ok bytes

/-- What there is to log about an accepted program. -/
def loadedEntry (bytes : List UInt8) : LogEntry :=
  ⟨.info, .rom, "ROM loaded (" ++ Numeral.decimal bytes.length ++ " bytes)"⟩

/-- An accepted program fits into memory. -/
theorem length_of_read {disk : Disk} {path : Path} {bytes : List UInt8}
    (h : read disk path = .ok bytes) : bytes.length ≤ Memory.programLimit := by
  unfold read at h
  split at h
  · simp at h
  · split at h
    · simp at h
    · rename_i size
      simp only [Except.ok.injEq] at h
      subst h
      omega

end Rom

end Chip8
