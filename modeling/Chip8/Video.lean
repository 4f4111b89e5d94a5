import Chip8.Image
import Chip8.Log
import Chip8.Number.Single

/-!
# Videos

A sequence of displays is written frame by frame to an encoder, which is opened with the size of the
enlarged display and takes its pixels as blue, green, red.

With persistence a pixel glows on after it was lit: in each frame the glow decays to four fifths, the
cell is added, and the sum is kept between zero and one, all in single precision.  A channel is mixed
from the two colours in double precision and cut off to a byte.
-/

namespace Chip8.Video

inductive Error where
  | ragged (shape : Shape)
  | wrongShape (dims : List Nat)
  | palette (e : Palette.Error)
  | misuse (e : Misuse)
  | zeroRate (rate : Value)

def Error.message : Error → String
  | ragged shape => shape.raggedMessage
  | wrongShape dims => "Expected frames of shape (N, 32, 64), got " ++ Shape.text dims
  | palette e => e.message
  | misuse e => e.message
  | zeroRate (.float _) => "float division by zero"
  | zeroRate _ => "division by zero"

/-- What an encoder is asked to do. -/
inductive Encoder.Call where
  | write (image : Image Bgr)
  | release
  deriving DecidableEq, Repr

def Encoder.Call.image? : Encoder.Call → Option (Image Bgr)
  | write image => some image
  | release => none

/-- What an encoder was given, and what it was asked to do, first things first.  It takes any value for its
file and for its size. -/
structure Encoder where
  filename : Value
  width : Value
  height : Value
  calls : List Encoder.Call := []

namespace Encoder

/-- The images that were written. -/
def frames (e : Encoder) : List (Image Bgr) := e.calls.filterMap Call.image?

def released (e : Encoder) : Bool := e.calls.contains .release

/-- Write images one after the other, and then let go of the file. -/
def encode (e : Encoder) (images : List (Image Bgr)) : Encoder :=
  { e with calls := e.calls ++ images.map .write ++ [.release] }

end Encoder

/-- The code of the format that is encoded, `mp4v`. -/
def formatCode : Nat := 0x7634706d

/-! ### Brightness -/

/-- The brightness of each pixel of a frame. -/
abbrev Levels := List (List Float32)

def dark : Levels := List.replicate Display.height (List.replicate Display.width 0)

def clamp (x : Float32) : Float32 := if x < 0 then 0 else if 1 < x then 1 else x

/-- The glow of a pixel after a frame with `cell` there. -/
def glow (before : Float32) (cell : Int) : Float32 := clamp (before * 0.8 + Float32.ofInt cell)

/-- The levels of successive frames. -/
def levels (persistence : Bool) : Levels → List (List (List Int)) → List Levels
  | _, [] => []
  | before, frame :: frames =>
    let now :=
      if persistence then List.zipWith (List.zipWith glow) before frame
      else frame.map (·.map Float32.ofInt)
    now :: levels persistence now frames

/-- A channel at a brightness between those of the two colours. -/
def mix (on off : UInt8) (level : Float32) : UInt8 :=
  let a : Int := on.toNat
  let b : Int := off.toNat
  UInt8.ofInt (Number.truncate32 (Float.ofInt b + Number.widen level * Float.ofInt (a - b)))

def shade (p : Palette) (level : Float32) : Rgb :=
  ⟨mix p.on.red p.off.red level, mix p.on.green p.off.green level, mix p.on.blue p.off.blue level⟩

/-- The image that is encoded for a frame. -/
def picture (p : Palette) (scale : Int) (levels : Levels) : Image Bgr :=
  Image.scale scale ⟨Display.width, levels.map (·.map fun l => (shade p l).bgr)⟩

/-! ### Saving -/

/-- How long a number of frames lasts. -/
def duration (frames : Nat) (rate : Value) : Except Error Float :=
  match rate with
  | .float x => if x == 0 then .error (.zeroRate rate) else .ok (Float.ofNat frames / x)
  | _ =>
    match rate.int? with
    | some n => if n = 0 then .error (.zeroRate rate) else .ok (Float.ofNat frames / Float.ofInt n)
    | none => .error (.misuse (.operands "/" .whole rate.kind))

/-- The report of a saved video. -/
def savedMessage (filename : Value) (frames : Nat) (rate : Value) (seconds : Float) : String :=
  "Video saved: " ++ filename.render ++ " (" ++ Numeral.decimal frames ++ " frames, " ++
    rate.render ++ " FPS, " ++ Number.fixed 1 seconds ++ "s, encoded in " ++ Number.fixed 1 0 ++ "s)"

/-- The lines that report a saved video; their logger is made for the purpose. -/
def report (filename : Value) (frames : Nat) (rate : Value) : Except Error (List String) := do
  let seconds ← duration frames rate
  let logger : Logger := { name := "Video" }
  return logger.lines 0 [⟨"INFO", savedMessage filename frames rate seconds⟩]

def Encoder.ofFrames (filename : Value) (scale : Int) (palette : Palette) (persistence : Bool)
    (frames : List (List (List Int))) : Encoder :=
  let opened : Encoder :=
    { filename, width := .int (Display.width * scale), height := .int (Display.height * scale) }
  opened.encode ((levels persistence dark frames).map (picture palette scale))

/-- The cells of frames that all have the size of the display. -/
def cells (frames : Nested Int) : Except Error (List (List (List Int))) :=
  let shape := frames.shape
  if shape.ragged then .error (.ragged shape)
  else match shape.dims, frames with
    | [_, 32, 64], .list members => .ok (members.map Nested.rows)
    | dims, _ => .error (.wrongShape dims)

/-- An encoder for frames, before anything is written to it. -/
def openEncoder (filename scale : Value) : Except Error Encoder := do
  let height ← (scale.times Display.height).mapError .misuse
  let width ← (scale.times Display.width).mapError .misuse
  return { filename, width, height }

/-- Encode frames.  There is an encoder if the frames, the size and the palette are sound.  It gets
its frames if the scale is a number, and there is a report if the rate is not zero besides. -/
def save (frames : Nested Int) (filename rate scale : Value) (scheme : String)
    (persistence : Bool) : Option Encoder × Except Error (List String) :=
  let ready := do
    let frames ← cells frames
    let encoder ← openEncoder filename scale
    return (frames, encoder, ← (Palette.ofName scheme).mapError .palette)
  match ready with
  | .error e => (none, .error e)
  | .ok (frames, encoder, palette) =>
    match scale.int? with
    | some n =>
      (some (.ofFrames filename n palette persistence frames), report filename frames.length rate)
    | none =>
      (some (encoder.encode []),
        .error (.misuse (.order .greater scale.kind .whole)))

/-- The frames of recorded displays. -/
def ofDisplays (displays : List Display) : Nested Int :=
  .list (displays.map fun d =>
    .list (d.toList.map fun row => .list (row.toList.map fun b => .item b.toNat)))

theorem length_levels (persistence : Bool) (before : Levels) (frames : List (List (List Int))) :
    (levels persistence before frames).length = frames.length := by
  induction frames generalizing before with
  | nil => rfl
  | cons f fs ih => simp [levels, ih]

/-- The images that were written are those that were to be encoded. -/
theorem Encoder.frames_encode (e : Encoder) (images : List (Image Bgr)) :
    (e.encode images).frames = e.frames ++ images := by
  have hwritten : (images.map Call.write).filterMap Call.image? = images := by
    rw [List.filterMap_map]
    exact List.filterMap_some
  rw [frames, encode, List.filterMap_append, List.filterMap_append, hwritten]
  exact List.append_nil _

theorem Encoder.frames_ofFrames (filename : Value) (scale : Int) (palette : Palette)
    (persistence : Bool) (frames : List (List (List Int))) :
    (ofFrames filename scale palette persistence frames).frames =
      (levels persistence dark frames).map (picture palette scale) :=
  Encoder.frames_encode _ _

/-- One image is encoded for each frame. -/
theorem Encoder.length_frames (filename : Value) (scale : Int) (palette : Palette)
    (persistence : Bool) (frames : List (List (List Int))) :
    (ofFrames filename scale palette persistence frames).frames.length = frames.length := by
  rw [frames_ofFrames, List.length_map, length_levels]

end Chip8.Video
