import ClassicIcons.Text.MacRoman
import ClassicIcons.Text.Utf16

/-! Texts of an archive: names, the copyright notice, the comment.

They are Mac Roman, one character for each byte, unless the first bytes are a
byte order mark. A mark is no part of the text and says how to read the rest. -/
namespace ClassicIcons.Text

/-- The encodings that a byte order mark can announce. -/
inductive Mark where
  | utf8
  | utf16 (order : Utf16.Order)
  deriving DecidableEq, Repr

namespace Mark

def bytes : Mark → Bytes
  | utf8 => [0xef, 0xbb, 0xbf]
  | utf16 .little => [0xff, 0xfe]
  | utf16 .big => [0xfe, 0xff]

def all : List Mark := [utf8, utf16 .little, utf16 .big]

/-- The mark that bytes start with. -/
def of? (b : Bytes) : Option Mark := all.find? fun mark => mark.bytes.isPrefixOf b

end Mark

/-- The characters of a text. -/
def chars (b : Bytes) : List Char :=
  match Mark.of? b with
  | none => MacRoman.decode b
  | some .utf8 => Utf8.decode (b.drop (Mark.bytes .utf8).length)
  | some (.utf16 order) => Utf16.decode order (b.drop (Mark.bytes (.utf16 order)).length)

def decode (b : Bytes) : String := String.ofList (chars b)

theorem chars_of_no_mark {b : Bytes} (h : Mark.of? b = none) : chars b = b.map MacRoman.char := by
  simp [chars, h, MacRoman.decode]

end ClassicIcons.Text
