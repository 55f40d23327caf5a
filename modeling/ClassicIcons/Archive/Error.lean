import ClassicIcons.Kind
import ClassicIcons.Disk.Fault
import ClassicIcons.RunLength.Unpack

/-! What can be wrong with an archive.

An error is fatal if nothing can be had from the archive. The others concern one
record, which can be skipped. -/
namespace ClassicIcons.Archive

/-- Why a file is no archive. -/
inductive FormatFault where
  /-- The header is cut short. -/
  | truncated
  | magic
  | extendedMagic
  | other (text : String)
  deriving DecidableEq, Repr

def FormatFault.message : FormatFault → String
  | truncated => "file is too short for its header"
  | magic => "wrong magic literal"
  | extendedMagic => "wrong version 2 magic literal"
  | other text => text

/-- Why the content of a record cannot be had. -/
inductive RecordFault where
  /-- The header of the record is cut short. -/
  | truncated
  | packed (error : RunLength.Error)
  /-- A stream cannot be decoded, in the decoder's own words. -/
  | stream (text : String)
  /-- More than `limit` bytes come out of a stream. -/
  | excess (limit : Nat)
  /-- An image reaches past the end of the data. -/
  | imageOverrun (kind : Kind) (offset size : Nat)
  /-- There is no size field where the record should start. -/
  | startsPastEnd (index : Nat)
  /-- The record claims to be shorter than its own size field. -/
  | impossibleSize (index size : Nat)
  | extendsPastEnd (size : Nat)
  | other (text : String)
  deriving DecidableEq, Repr

def RecordFault.message : RecordFault → String
  | truncated => "failed to fill whole buffer"
  | packed error => error.message
  | stream text => text
  | excess limit => s!"zlib data exceeds the declared {limit} bytes"
  | imageOverrun kind offset size =>
    kind.tag.text ++ s!" data at offset {offset} overruns the {size}-byte icon data"
  | startsPastEnd index => s!"record {index} starts past the end of the archive"
  | impossibleSize index size => s!"record {index} has an impossible size of {size} bytes"
  | extendsPastEnd size => s!"{size}-byte record extends past the end of the archive"
  | other text => text

inductive Error where
  | unsupportedFormat (fault : FormatFault)
  | unsupportedVersion (number : UInt16)
  | decompressionFailed (fault : RecordFault)
  | sizeMismatch (expected actual : Nat)
  /-- A record without any image. -/
  | emptyIcon
  | system (fault : Disk.Fault)
  deriving DecidableEq, Repr

namespace Error

def message : Error → String
  | unsupportedFormat fault => "not an Icon Archiver file: " ++ fault.message
  | unsupportedVersion number => s!"unsupported Icon Archiver version {number.toNat}"
  | decompressionFailed fault => "decompression failed: " ++ fault.message
  | sizeMismatch expected actual => s!"decompressed icon is {actual} bytes instead of {expected}"
  | emptyIcon => "icon record contains no icons"
  | system fault => "I/O error: " ++ fault.message

/-- Whether the error concerns the whole archive. -/
def isFatal : Error → Bool
  | unsupportedFormat _ | unsupportedVersion _ | system _ => true
  | decompressionFailed _ | sizeMismatch _ _ | emptyIcon => false

end Error

instance : Truncated Error := ⟨.unsupportedFormat .truncated⟩

instance : Truncated RecordFault := ⟨.truncated⟩

end ClassicIcons.Archive
