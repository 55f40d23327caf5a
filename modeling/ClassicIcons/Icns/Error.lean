import ClassicIcons.Tag
import ClassicIcons.RunLength.Unpack

/-! What can be wrong with an icns file. -/
namespace ClassicIcons.Icns

inductive Error where
  /-- The bytes end inside a field. -/
  | truncated
  | wrongMagic
  /-- An element claims to be shorter than its own header. -/
  | elementLength
  /-- The element is not a 24-bit image. -/
  | notColor24 (tag : Tag)
  | plane (error : RunLength.Error)
  /-- Something follows the third plane. -/
  | trailingData
  /-- The file would not have a length that its header can state. -/
  | tooLarge
  deriving DecidableEq, Repr

instance : Truncated Error := ⟨.truncated⟩

def Error.message : Error → String
  | truncated => "failed to fill whole buffer"
  | wrongMagic => "not an icns file (wrong magic literal)"
  | elementLength => "invalid element length"
  | notColor24 tag => "not a 24-bit icon element: " ++ tag.text
  | plane error => error.message
  | trailingData => "trailing data after RLE channels"
  | tooLarge => "icon family is too large"

def Error.kind : Error → ErrorKind
  | truncated => .unexpectedEnd
  | wrongMagic => .invalidData
  | elementLength => .invalidData
  | notColor24 _ => .invalidInput
  | plane error => error.kind
  | trailingData => .invalidData
  | tooLarge => .invalidInput

end ClassicIcons.Icns
