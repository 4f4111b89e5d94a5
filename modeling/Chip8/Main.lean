import Chip8.CommandLine

/-!
# The program

Overrides are the arguments.  Without a window system the events of a window come from standard
input: a line is the batch of events that one poll finds, in words such as `+w` for a key that goes
down, `-w` for one that comes up, and `quit`.  The pictures of a video are composed and reported, and
encoding them is left to the host.
-/

namespace Chip8.CommandLine

def eventOfWord (word : String) : HostEvent :=
  match word.toList with
  | '+' :: key => .keyDown (String.ofList key)
  | '-' :: key => .keyUp (String.ofList key)
  | cs => if cs = "quit".toList then .quit else .other

def batchOfLine (line : String) : List HostEvent :=
  ((line.split Char.isWhitespace).toList.map fun w => w.toString).filterMap fun w =>
    if w.isEmpty then none else some (eventOfWord w)

partial def readBatches (input : IO.FS.Stream) (batches : List (List HostEvent)) :
    IO (List (List HostEvent)) := do
  let line ← input.getLine
  if line.isEmpty then return batches.reverse
  readBatches input (batchOfLine line :: batches)

/-- The contents of a file, or why it cannot be read. -/
def contents (path : String) : IO (Except File.Error (List UInt8)) := do
  try
    let bytes ← IO.FS.readBinFile path
    return .ok bytes.toList
  catch e => match e with
    | .inappropriateType .. => return .error (.isDirectory path)
    | _ => return .error (.notFound path)

/-- The file that a value names, with the contents of the one file that was read. -/
def reader (path : String) (found : Except File.Error (List UInt8)) (name : Value) :
    Except File.Error (List UInt8) :=
  match name with
  | .text s => if s = path then found else .error (.notFound s)
  | v => ({} : File.Directory).read v

/-- The program's path, if the overrides give one. -/
def romPath (words : List String) : String :=
  match Config.ofWords words with
  | .ok { rom := .text path, .. } => path
  | _ => ""

/-- Whether the overrides ask for a window. -/
def interactive (words : List String) : Bool :=
  match Config.ofWords words with
  | .ok c => (c.headlessFrames.int?).any (· ≤ 0)
  | .error _ => false

end Chip8.CommandLine

open Chip8 CommandLine in
def main (words : List String) : IO UInt32 := do
  let path := romPath words
  let read := reader path (← contents path)
  let terminal ← (← IO.getStdout).isTty
  let batches ← if interactive words then readBatches (← IO.getStdin) [] else pure []
  let outcome := run read terminal words batches
  for text in outcome.record.printed do
    IO.println text
  match outcome.result with
  | .ok code => return UInt32.ofNat code
  | .error e =>
    IO.eprintln ((e.message?).getD "The configuration is not complete.")
    return 1
