import Chip8.Command
import Chip8.File.Tree
import Chip8.Machine.Edit
import Chip8.Machine.Status
import Chip8.Main
import Chip8.Proofs.Arguments.Groups
import Chip8.Proofs.Arguments.Spelling
import Chip8.Proofs.Bare.Legal
import Chip8.Proofs.Command.Endings
import Chip8.Proofs.Console.Coherence
import Chip8.Proofs.Console.KeyHistory
import Chip8.Proofs.Console.Tone
import Chip8.Proofs.Console.Waveform
import Chip8.Proofs.Display.Rendering
import Chip8.Proofs.Instruction.Line
import Chip8.Proofs.Instruction.Table
import Chip8.Proofs.Listing.Agreement
import Chip8.Proofs.Listing.Reading
import Chip8.Proofs.Machine.Arithmetic
import Chip8.Proofs.Machine.Calls
import Chip8.Proofs.Machine.Flow
import Chip8.Proofs.Machine.HighBits
import Chip8.Proofs.Machine.LastWriter
import Chip8.Proofs.Machine.Noninterference
import Chip8.Proofs.Machine.Parts
import Chip8.Proofs.Machine.Range
import Chip8.Proofs.Machine.Sprites
import Chip8.Proofs.Machine.Stamps
import Chip8.Proofs.Machine.StatusLine
import Chip8.Proofs.Machine.Transfers
import Chip8.Proofs.Machine.Waiting
import Chip8.Proofs.Session.Answers
import Chip8.Proofs.Session.Pacing
import Chip8.Proofs.Text.Integer
import Chip8.Proofs.Text.Numeral
import Chip8.Proofs.Timer.Rate
