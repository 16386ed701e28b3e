import Chip8.Instruction.Mnemonic
import Chip8.Machine.Execute

/-!
# Log entries

A log entry has a level, the part of the program it comes from and a message. A
threshold leaves out the entries of lower levels.
-/

namespace Chip8

/-- How grave an entry is. -/
inductive Level where
  /-- Of interest when looking for faults. -/
  | debug
  /-- Of general interest. -/
  | info
  /-- Unexpected, but dealt with. -/
  | warning
  | error
deriving DecidableEq, Repr

namespace Level

/-- The printed name. -/
def name : Level → String
  | debug => "DEBUG"
  | info => "INFO"
  | warning => "WARNING"
  | error => "ERROR"

/-- Levels in increasing order. -/
def rank : Level → Nat
  | debug => 0
  | info => 1
  | warning => 2
  | error => 3

end Level

/-- The parts of the program that write entries. -/
inductive Source where
  /-- The running machine. -/
  | machine
  /-- The reader of program files. -/
  | rom
  /-- The window and the speaker. -/
  | console
  /-- The command line. -/
  | command
deriving DecidableEq, Repr

namespace Source

/-- The printed name. -/
def name : Source → String
  | machine => "chipvm.machine"
  | rom => "chipvm.rom"
  | console => "chipvm.frontend"
  | command => "chipvm.cli"

end Source

/-- A line of the log. -/
structure LogEntry where
  level : Level
  source : Source
  message : String
deriving DecidableEq, Repr

namespace LogEntry

/-- The printed line. -/
def text (e : LogEntry) : String :=
  "[" ++ e.level.name ++ "] " ++ e.source.name ++ ": " ++ e.message

/-- The printed lines of the entries from a level on, each ended by a line break. -/
def report (threshold : Level) (entries : List LogEntry) : String :=
  String.join ((entries.filter fun e => threshold.rank ≤ e.level.rank).map fun e =>
    e.text ++ "\n")

end LogEntry

namespace Notice

/-- The level of a notice. -/
def level : Notice → Level
  | executed _ _ => .debug
  | ignoredReturn _ => .warning

/-- What a notice says. -/
def message : Notice → String
  | executed address word =>
      Numeral.signedHex 3 address ++ ": " ++ Numeral.hex 4 word.toNat ++ " " ++
        (Instruction.decode word).mnemonic
  | ignoredReturn address =>
      "RET with empty stack at PC " ++ Numeral.signedHex 3 address ++ ", ignored"

/-- The log entry of a notice. -/
def entry (n : Notice) : LogEntry :=
  ⟨n.level, .machine, n.message⟩

end Notice

end Chip8
