import Chip8.Number.Double

/-!
# The tone

A buffer of a square wave in samples of sixteen bits.  Sample `i` has the sign of the sine of
`2π · frequency · i / rate`, times the volume, and is cut off to an integer.
-/

namespace Chip8.Tone

/-- Samples per second. -/
def sampleRate : Nat := 44100

/-- Bits per sample; the sign says that samples are signed. -/
def sampleFormat : Int := -16

def channels : Nat := 1

def defaultFrequency : Float := 440.0

def defaultDuration : Float := 0.1

def defaultVolume : Float := 0.2

def pi : Float := 3.141592653589793

/-- One, zero or minus one. -/
def signum (x : Float) : Float := if 0 < x then 1 else if x < 0 then -1 else 0

/-- The number of samples; none for a negative duration. -/
def length (duration : Float) : Nat :=
  (Number.truncate (Float.ofNat sampleRate * duration)).toNat

def sample (frequency volume : Float) (i : Nat) : Int :=
  let t := Float.ofNat i / Float.ofNat sampleRate
  let wave := signum (Float.sin (2 * pi * frequency * t))
  (Number.truncate32 (wave * volume * 32767)).bmod 65536

def squareWave (frequency duration volume : Float) : List Int :=
  (List.range (length duration)).map (sample frequency volume)

/-- The size of a buffer with two bytes for each sample. -/
def bufferBytes (samples : List Int) : Nat := 2 * samples.length

end Chip8.Tone
