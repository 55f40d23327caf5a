import ClassicIcons.Archive.Error
import ClassicIcons.Text.Classic

/-! The header of an archive.

All archives start with the same 64 bytes; the second version adds 384 more.
Fields of unknown meaning are kept as they are. The header is followed by four
unused bytes for each icon, and then by the records. -/
namespace ClassicIcons.Archive

inductive Version where
  | first
  | second
  deriving DecidableEq, Repr

def Version.number : Version → UInt16
  | first => 1
  | second => 2

def Version.ofNumber? (n : UInt16) : Option Version :=
  [first, second].find? fun v => v.number = n

/-- What only the second version has. -/
structure Extended where
  reserved : Bytes
  /-- Whether the two texts can no longer be edited. -/
  locked : Bool
  reservedFlags : Bytes
  copyright : String
  comment : String
  deriving DecidableEq, Repr

/-- The version of an archive with what belongs to it. -/
inductive Edition where
  | first
  | second (extended : Extended)
  deriving DecidableEq, Repr

structure Header where
  reserved : Bytes
  iconCount : UInt32
  reservedBlock : Bytes
  /-- Seems to be a time. -/
  timestamp : UInt64
  reservedTail : Bytes
  edition : Edition
  deriving DecidableEq, Repr

def Edition.version : Edition → Version
  | first => .first
  | second _ => .second

def Edition.extended? : Edition → Option Extended
  | first => none
  | second extended => some extended

namespace Header

def version (h : Header) : Version := h.edition.version

/-- What the first eight bytes spell. -/
def magic : Bytes := ['Q', 'B', 'S', 'E', 'P', 'A', 'C', 'K'].map Char.toUInt8

/-- What starts the part that only the second version has. -/
def extendedMagic : Bytes := ['I', 'A', 'U', 'B'].map Char.toUInt8

/-- Where the unused bytes in front of the records start. -/
def recordsBase : Version → Nat
  | .first => 0x40
  | .second => 0x440

/-- Where the first record starts. -/
def recordsOffset (h : Header) : Nat := recordsBase h.version + 4 * h.iconCount.toNat

end Header

/-! ### Reading -/

/-- A text in a field of `width` bytes, after its length. A length that is too
large counts as `width`. -/
def paddedText (width : Nat) : Reader Error String := do
  let length ← Reader.u8
  let field ← Reader.bytes width
  return Text.decode (field.take length.toNat)

def Version.read : Reader Error Version := do
  let number ← Reader.u16
  match ofNumber? number with
  | some version => return version
  | none => throw (.unsupportedVersion number)

def Extended.read : Reader Error Extended := do
  let found ← Reader.bytes 4
  Reader.require (found = Header.extendedMagic) (.unsupportedFormat .extendedMagic)
  let reserved ← Reader.bytes 57
  let lock ← Reader.u8
  let reservedFlags ← Reader.bytes 2
  let copyright ← paddedText 63
  let comment ← paddedText 255
  return ⟨reserved, lock ≠ 0, reservedFlags, copyright, comment⟩

def Edition.read : Version → Reader Error Edition
  | .first => return first
  | .second => return second (← Extended.read)

/-- Reads the header off the front of a file. -/
def Header.read : Reader Error Header := do
  let found ← Reader.bytes 8
  Reader.require (found = magic) (.unsupportedFormat .magic)
  let reserved ← Reader.bytes 2
  let version ← Version.read
  let iconCount ← Reader.u32
  let reservedBlock ← Reader.bytes 32
  let timestamp ← Reader.u64
  let reservedTail ← Reader.bytes 8
  let edition ← Edition.read version
  return ⟨reserved, iconCount, reservedBlock, timestamp, reservedTail, edition⟩

end ClassicIcons.Archive
