import ChipEight.Hexadecimal
import ChipEight.Opcode
import ChipEight.Instruction
import ChipEight.Memory
import ChipEight.Font
import ChipEight.Fault
import ChipEight.Rom
import ChipEight.Frame
import ChipEight.Picture
import ChipEight.Sprite
import ChipEight.Keypad
import ChipEight.State
import ChipEight.Execution
import ChipEight.Machine
import ChipEight.Operation
import ChipEight.Event
import ChipEight.Journal
import ChipEight.Repetition
import ChipEight.Session
import ChipEight.File
import ChipEight.Options
import ChipEight.Run
import ChipEight.Arguments
import ChipEight.Program
import ChipEight.Reader
import ChipEight.Main
import ChipEight.Proofs.Covering
import ChipEight.Proofs.History
import ChipEight.Proofs.Reachability
import ChipEight.Proofs.Manual
import ChipEight.Proofs.Control
import ChipEight.Proofs.Halting
import ChipEight.Proofs.Parity
import ChipEight.Proofs.Hosting
import ChipEight.Proofs.Interference
import ChipEight.Proofs.Refusal
import ChipEight.Proofs.Limits
import ChipEight.Proofs.Accounting
import ChipEight.Proofs.Polling
import ChipEight.Proofs.Pictures
import ChipEight.Proofs.Story
import ChipEight.Proofs.Bookkeeping
import ChipEight.Proofs.Footprint
import ChipEight.Proofs.Loading
import ChipEight.Proofs.Keyboard
import ChipEight.Proofs.Stages
import ChipEight.Proofs.Drawing
import ChipEight.Proofs.Redrawing
import ChipEight.Proofs.Conservation
import ChipEight.Proofs.Registers
import ChipEight.Proofs.StraightLine
import ChipEight.Proofs.Chords
import ChipEight.Proofs.Legibility
import ChipEight.Proofs.Pressing
import ChipEight.Proofs.Checking
import ChipEight.Proofs.Crashing
import ChipEight.Proofs.Numerals
import ChipEight.Proofs.Spelling
import ChipEight.Proofs.Rules
import ChipEight.Proofs.Reading
import ChipEight.Proofs.Choosing
import ChipEight.Proofs.Messages
