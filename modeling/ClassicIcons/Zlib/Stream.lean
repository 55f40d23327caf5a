import ClassicIcons.Zlib.Block
import ClassicIcons.Zlib.Decoder

/-! Compressed streams: a header, blocks, a checksum.

A stream is decoded a window at a time, as many windows as the bytes reach into that are
wanted (`inflater`). A fault in one of them spoils it from its start; where the stream
merely breaks off, what stands before can be had. Bytes after the end of the stream are
left alone. -/
namespace ClassicIcons.Zlib

/-- The checksum of the bytes that a stream holds. -/
def adler32 (out : Array UInt8) : Nat :=
  let (a, b) := out.foldl (fun (a, b) x =>
    let a := (a + x.toNat) % 65521
    (a, (b + a) % 65521)) (1, 0)
  b * 65536 + a

/-- Reads the header: the method, a window that is not too large, and a check on
both bytes. A preset dictionary is never known. -/
def header : BitReader Unit := do
  let method ← BitReader.field 8
  let flags ← BitReader.field 8
  BitReader.require ((method * 256 + flags) % 31 = 0 ∧ method % 16 = 8 ∧ method / 16 ≤ 7)
  BitReader.require (flags.testBit 5 = false)

/-- Reads the checksum at the end. -/
def checksum (out : Array UInt8) : BitReader Unit := do
  BitReader.align
  let bytes ← [8, 8, 8, 8].mapM BitReader.field
  BitReader.require (bytes.foldl (fun n byte => n * 256 + byte) 0 = adler32 out)

/-- What becomes of a stream. -/
inductive Outcome where
  | complete (out : Array UInt8)
  /-- More came out than there was room for. -/
  | full (out : Array UInt8)
  /-- Decoding stopped when these bytes had come out. -/
  | stopped (fault : Fault) (out : Array UInt8)
  deriving DecidableEq, Repr

/-- Reads on until the stream ends or more than `room` bytes are out. -/
def run (room : Nat) (phase : Option Phase) (out : Array UInt8) (s : Source) : Outcome :=
  if room < out.size then .full out
  else match phase with
    | none => match checksum out s with
      | .ok _ => .complete out
      | .error fault => .stopped fault out
    | some phase => match h : step phase s with
      | .ok ((phase', added), s') =>
        have : s'.remaining < s.remaining := takes_step phase s _ s' h
        run room phase' (added.onto out) s'
      | .error fault => .stopped fault out
termination_by s.remaining

/-- What becomes of a stream for which there is room for `room` bytes. -/
def outcome (room : Nat) (b : Bytes) : Outcome :=
  match header ⟨[], b⟩ with
  | .ok ((), s) => run room (some .block) #[] s
  | .error fault => .stopped fault #[]

/-- How many bytes are decoded at once. -/
def windowLength : Nat := 32768

/-- The length of the windows that `size` bytes reach into. -/
def windows (size : Nat) : Nat := (size + windowLength - 1) / windowLength * windowLength

/-- The bytes to be had of it, no more than `most`. -/
def Outcome.read (most : Nat) : Outcome → Except String Bytes
  | complete out | full out => .ok (out.toList.take most)
  | stopped .corrupt _ => .error Fault.corrupt.message
  | stopped .incomplete out =>
    if most ≤ out.size then .ok (out.toList.take most) else .error Fault.incomplete.message

/-- A decoder of streams that takes whole windows. -/
abbrev inflater : Decoder where
  read most stream := (outcome (windows most) stream).read most

end ClassicIcons.Zlib
