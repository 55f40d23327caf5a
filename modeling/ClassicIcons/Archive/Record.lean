import ClassicIcons.Archive.Header
import ClassicIcons.Archive.Icon
import ClassicIcons.Zlib.Decoder

/-! Records: one for each icon of an archive.

A record is a size, a header whose form depends on the version, and a payload. In
the first version the payload is packed, and the header says where each of six
images starts, in a count that begins before the name. In the second it is
compressed, and the header has a bit for each kind; the images that are there
stand one after another. -/
namespace ClassicIcons.Archive

/-- Which images a record has, and where. -/
inductive Layout where
  /-- Offsets in the order of `Kind.legacy`. -/
  | legacy (offsets : Vector UInt16 6)
  | extended (presence reserved : UInt16)
  deriving DecidableEq, Repr

structure Record where
  /-- The length of the record, this field included. -/
  size : UInt32
  reserved : Vector UInt16 4
  /-- The length of the data. -/
  uncompressedSize : UInt32
  name : Bytes
  layout : Layout
  deriving DecidableEq, Repr

/-! ### Reading -/

/-- Four numbers of unknown meaning. -/
def readReserved : Reader RecordFault (Vector UInt16 4) :=
  return #v[← Reader.u16, ← Reader.u16, ← Reader.u16, ← Reader.u16]

def readOffsets : Reader RecordFault (Vector UInt16 6) :=
  return #v[← Reader.u16, ← Reader.u16, ← Reader.u16, ← Reader.u16, ← Reader.u16, ← Reader.u16]

/-- Reads the header of a record off the front; what is left is the payload. -/
def Record.read (version : Version) : Reader RecordFault Record := do
  let size ← Reader.u32
  let reserved ← readReserved
  match version with
  | .first =>
    let uncompressedSize ← Reader.number 2
    let offsets ← readOffsets
    let name ← Reader.counted
    return ⟨size, reserved, UInt32.ofNat uncompressedSize, name, .legacy offsets⟩
  | .second =>
    let uncompressedSize ← Reader.u32
    let presence ← Reader.u16
    let extra ← Reader.u16
    let name ← Reader.counted
    -- The name has a byte at its end that is not part of it.
    let _ ← Reader.u8
    return ⟨size, reserved, uncompressedSize, name, .extended presence extra⟩

/-! ### Decoding -/

namespace Layout

/-- What offsets count from lies this far, and the length of the name, before the
data. -/
def legacyBias : Nat := 17

/-- Where an image starts by the stored offsets. A smaller offset than that of the
data stands for a missing image. -/
def legacyOffset (offsets : Vector UInt16 6) (nameLength : Nat) (k : Kind) : Option Nat :=
  ((Kind.legacy.zip offsets.toList).lookup k).bind fun stored =>
    let base := nameLength + legacyBias
    if base ≤ stored.toNat then some (stored.toNat - base) else none

/-- The kinds whose bits are set. -/
def presentKinds (presence : UInt16) : List Kind :=
  Kind.all.filter fun k => presence.toNat.testBit k.presenceBit

/-- Where an image starts that stands behind those of the kinds before it. -/
def packedOffset (kinds : List Kind) (k : Kind) : Option Nat :=
  if k ∈ kinds then
    some ((kinds.takeWhile (· ≠ k)).foldr (fun j length => j.archiveLength + length) 0)
  else none

end Layout

namespace Record

def text (r : Record) : String := Text.decode r.name

/-- The data of a packed payload. -/
def unpack (payload : Bytes) (size : Nat) : Except Error Bytes :=
  match RunLength.Flavour.packBits.unpack payload size with
  | .ok (data, _) => .ok data
  | .error e => .error (.decompressionFailed (.packed e))

section
variable [Zlib.Decoder]

/-- The data of a compressed payload, which must have the length it declares. One byte more
is asked for, to see whether there is one. -/
def inflate (payload : Bytes) (size : Nat) : Except Error Bytes :=
  match Zlib.Decoder.read (size + 1) payload with
  | .error text => .error (.decompressionFailed (.stream text))
  | .ok data =>
    if size < data.length then .error (.decompressionFailed (.excess size))
    else if data.length = size then .ok data
    else .error (.sizeMismatch size data.length)

/-- Decodes the payload of the record at a place of its archive. -/
def decode (r : Record) (index : Nat) (payload : Bytes) : Except Error Icon :=
  let size := r.uncompressedSize.toNat
  match r.layout with
  | .legacy offsets => do
    let data ← unpack payload size
    Icon.of index r.text data (Layout.legacyOffset offsets r.name.length)
  | .extended presence _ => do
    let data ← inflate payload size
    let kinds := Layout.presentKinds presence
    if kinds = [] then .error .emptyIcon
    else Icon.of index r.text data (Layout.packedOffset kinds)

theorem decode_legacy {r : Record} {offsets : Vector UInt16 6} (hr : r.layout = .legacy offsets)
    {payload data : Bytes} (h : unpack payload r.uncompressedSize.toNat = .ok data) (index : Nat) :
    r.decode index payload =
      Icon.of index r.text data (Layout.legacyOffset offsets r.name.length) := by
  simp only [decode, hr, h]
  rfl

theorem decode_extended {r : Record} {presence extra : UInt16} (hr : r.layout = .extended presence extra)
    (hp : Layout.presentKinds presence ≠ []) {payload data : Bytes}
    (h : inflate payload r.uncompressedSize.toNat = .ok data) (index : Nat) :
    r.decode index payload =
      Icon.of index r.text data (Layout.packedOffset (Layout.presentKinds presence)) := by
  simp only [decode, hr, h]
  exact if_neg hp

/-- Decodes a whole record. -/
def decodeWhole (version : Version) (index : Nat) (b : Bytes) : Except Error Icon :=
  match read version b with
  | .ok (r, payload) => r.decode index payload
  | .error fault => .error (.decompressionFailed fault)

end

end Record
end ClassicIcons.Archive
