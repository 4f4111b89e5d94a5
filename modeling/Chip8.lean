import Chip8.Main
import Chip8.Progress
import Chip8.Sprite
import Chip8.Proofs.Opcode
import Chip8.Proofs.Perform
import Chip8.Proofs.Hazard
import Chip8.Proofs.Frame
import Chip8.Proofs.Invariant
import Chip8.Proofs.Calls
import Chip8.Proofs.BoundedList
import Chip8.Proofs.Stream
import Chip8.Proofs.Plot
import Chip8.Proofs.Keyboard
import Chip8.Proofs.KeypadCalls
import Chip8.Proofs.Arithmetic
import Chip8.Proofs.Drawings
import Chip8.Proofs.LitCells
import Chip8.Proofs.Registers
import Chip8.Proofs.Mode
import Chip8.Proofs.Loading
import Chip8.Proofs.Cells
import Chip8.Proofs.Writes
import Chip8.Proofs.Program
import Chip8.Proofs.FrameSize
import Chip8.Proofs.Pixels
import Chip8.Proofs.FramePixels
import Chip8.Proofs.RegisterLine
import Chip8.Proofs.Threshold
import Chip8.Proofs.Session.Exec
import Chip8.Proofs.Session.Replay
import Chip8.Proofs.Session.Burst
import Chip8.Proofs.Session.Devices
import Chip8.Proofs.Session.Frames
import Chip8.Proofs.ToneEdges
import Chip8.Proofs.Session.Exclusion
import Chip8.Proofs.Session.Moves
import Chip8.Proofs.Session.Account
import Chip8.Proofs.Session.Operations
import Chip8.Proofs.Session.Waiting
import Chip8.Proofs.Session.Keyring
import Chip8.Proofs.Session.Lockstep
import Chip8.Proofs.Session.Alike
import Chip8.Proofs.Session.Loop
import Chip8.Proofs.Session.Outcome
import Chip8.Proofs.Session.Recording
import Chip8.Proofs.Session.Iterate
import Chip8.Proofs.Session.Interruption
import Chip8.Proofs.Session.Reset
import Chip8.Proofs.Session.Suspension
import Chip8.Proofs.Session.Timers
import Chip8.Proofs.Session.Tuned
import Chip8.Proofs.Session.Abreast
import Chip8.Proofs.Session.Pacing
import Chip8.Proofs.Session.Unheard
