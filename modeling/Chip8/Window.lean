import Chip8.Image
import Chip8.Peripherals
import Chip8.Tone
import Chip8.Value

/-!
# The window

An interactive machine's devices: a window that shows the display, the host's keyboard, and a mixer
that loops the tone.  Keys of the host are known by their names; several of them may stand for one
key of the keypad.  Closing the window, or Escape, asks the machine to stop.

The tone is started in a frame that sounds unless it is already playing, and stopped when a frame is
rendered that did not sound.
-/

namespace Chip8

inductive HostEvent where
  | keyDown (key : String)
  | keyUp (key : String)
  | quit
  | other
  deriving DecidableEq, Repr

/-- The key of the keypad that a host key stands for. -/
def keyMap : List (String × Fin 16) :=
  [("1", 0x1), ("2", 0x2), ("3", 0x3), ("4", 0x4), ("5", 0x5), ("6", 0x6), ("7", 0x7), ("8", 0x8),
   ("9", 0x9), ("0", 0x0),
   ("UP", 0x2), ("DOWN", 0x8), ("LEFT", 0x4), ("RIGHT", 0x6),
   ("w", 0x2), ("s", 0x8), ("a", 0x4), ("d", 0x6),
   ("SPACE", 0x5),
   ("q", 0xA), ("e", 0xB), ("t", 0xC), ("y", 0xD), ("u", 0xE), ("i", 0xF)]

def quitKey : String := "ESCAPE"

inductive MixerCall where
  | prepare (rate : Nat) (format : Int) (channels : Nat)
  | sound (bytes : Nat)
  | play
  | stop
  deriving DecidableEq, Repr

/-- The channel on which the tone plays; it is busy until the tone ends or is stopped. -/
structure Channel where
  busy : Bool := true
  deriving DecidableEq, Repr

structure Window where
  title : String
  scale : Int
  width : Nat
  height : Nat
  palette : Palette
  /-- Whether closing the window stops the machine. -/
  stops : Bool
  /-- Whether there is a mixer, and with it a tone. -/
  tone : Bool
  channel : Option Channel := none
  /-- The current frame sounds. -/
  sounding : Bool := false

namespace Window

def defaultTitle : String := "chix8"

def defaultScale : Int := 8

/-- The default tone. -/
def wave : List Int :=
  Tone.squareWave Tone.defaultFrequency Tone.defaultDuration Tone.defaultVolume

inductive Error where
  | palette (e : Palette.Error)
  | misuse (e : Misuse)
  | negativeSize
  | tooLarge
  deriving DecidableEq, Repr

def Error.message : Error → String
  | palette e => e.message
  | misuse e => e.message
  | negativeSize => "Cannot set negative sized display mode"
  | tooLarge => "Window is too large."

/-- The longest side that a window can have. -/
def maxSide : Int := 16384

def screenWidth : Nat := 1024

def screenHeight : Nat := 768

/-- The size of a window of a given scale.  A window that is asked to have no size fills the screen. -/
def sizeFor (scale : Int) : Except Error (Nat × Nat) :=
  if scale < 0 then .error .negativeSize
  else if maxSide < Display.width * scale then .error .tooLarge
  else if scale = 0 then .ok (screenWidth, screenHeight)
  else .ok (Display.width * scale.toNat, Display.height * scale.toNat)

/-- The scale that a value gives; there is a size only if it is a number. -/
def scaleOf (scale : Value) : Except Error Int :=
  match scale.int?, scale.times Display.width with
  | some n, _ => .ok n
  | none, .error e => .error (.misuse e)
  | none, .ok _ => .error (.misuse .size)

/-- Open a window, and say how the mixer was set up. -/
def create (title : String) (scale : Value) (scheme : String) (stops mixer : Bool) :
    Except Error (Window × List MixerCall) := do
  let palette ← (Palette.ofName scheme).mapError .palette
  let scale ← scaleOf scale
  let (width, height) ← sizeFor scale
  let setUp := .prepare Tone.sampleRate Tone.sampleFormat Tone.channels ::
    if mixer then [.sound (Tone.bufferBytes wave)] else []
  return ({ title, scale, width, height, palette, stops, tone := mixer }, setUp)

def quit (w : Window) : Option Request := if w.stops then some .stop else none

/-- What an event asks of the machine. -/
def request (w : Window) : HostEvent → Option Request
  | .keyDown key =>
    if key = quitKey then w.quit
    else (keyMap.lookup key).map fun k => .keypad (.press k.val)
  | .keyUp key => (keyMap.lookup key).map fun k => .keypad (.release k.val)
  | .quit => w.quit
  | .other => none

def requests (w : Window) (events : List HostEvent) : List Request := events.filterMap w.request

/-- A frame sounds. -/
def sound (w : Window) : Window × List MixerCall :=
  let w := { w with sounding := true }
  if w.tone && !(w.channel.any Channel.busy) then ({ w with channel := some {} }, [.play]) else (w, [])

/-- A frame is rendered; what is said of its sound is forgotten. -/
def settle (w : Window) : Window × List MixerCall :=
  if !w.sounding && w.channel.isSome then
    ({ w with sounding := false, channel := none }, [.stop])
  else ({ w with sounding := false }, [])

/-- The tone comes to its end by itself. -/
def toneEnds (w : Window) : Window :=
  { w with channel := w.channel.map fun _ => { busy := false } }

/-- What the window shows of a display. -/
def image (w : Window) (d : Display) : Image Rgb :=
  (Image.ofDisplay w.palette w.scale d).onScreen w.width w.height ⟨0, 0, 0⟩

/-! ### A window that is driven by a script -/

/-- A window and the batches of events that its polls will find.  When there are no more, each poll
finds that the window was closed. -/
structure Scripted where
  window : Window
  pending : List (List HostEvent)

namespace Scripted

def always (r : Request) : Turn Scripted := fun _ _ => some r

def devices : Peripherals Scripted where
  poll _ s :=
    let (events, pending) := match s.pending with
      | [] => ([.quit], [])
      | batch :: rest => (batch, rest)
    ({ s with pending }, (s.window.requests events).map always)
  sound _ s := ({ s with window := s.window.sound.1 }, [])
  render _ _ s := ({ s with window := s.window.settle.1 }, [])

end Scripted

end Window

end Chip8
