import ClassicIcons.Icns.Element

/-! Families: the content of an icns file.

A file starts with a magic tag and its own length; elements follow until that
length is reached. `read` takes elements off the front while the length so far
is below the stated one, so it never looks past the element that reaches it. -/
namespace ClassicIcons.Icns

structure Family where
  elements : List Element
  deriving DecidableEq, Repr

namespace Family

def magic : Tag := .ofChars 'i' 'c' 'n' 's'

/-- The length of the magic tag and the length field. -/
def headerLength : Nat := 8

def empty : Family := ⟨[]⟩

/-- The length of the file. -/
def totalLength (f : Family) : Nat :=
  headerLength + f.elements.foldr (fun e length => e.totalLength + length) 0

/-- The file. -/
def bytes (f : Family) : Bytes :=
  magic.bytes ++ Bytes.ofNat 4 f.totalLength ++ f.elements.flatMap Element.bytes

/-- The file, unless it would be longer than its header can say. -/
def write (f : Family) : Except Error Bytes :=
  if f.totalLength < UInt32.size then .ok f.bytes else .error .tooLarge

/-- The first element for images of a kind. -/
def find? (f : Family) (k : Kind) : Option Element := f.elements.find? fun e => e.tag = k.tag

def push (f : Family) (e : Element) : Family := ⟨f.elements ++ [e]⟩

/-! ### Reading -/

theorem length_of_read_element {b rest : Bytes} {e : Element} (h : Element.read b = .ok (e, rest)) :
    rest.length < b.length := by
  obtain ⟨field, hfield, -, rfl⟩ := Element.read_eq_ok_iff.1 h
  simp only [List.length_append, Tag.length_bytes, hfield]
  omega

/-- Takes elements off the front until `length` bytes of the file are read, of
which `position` are. -/
def readElements (length position : Nat) (b : Bytes) : Except Error (List Element × Bytes) :=
  if position < length then
    match h : Element.read b with
    | .error e => .error e
    | .ok (e, rest) =>
      have := length_of_read_element h
      match readElements length (position + e.totalLength) rest with
      | .error e => .error e
      | .ok (es, rest) => .ok (e :: es, rest)
  else .ok ([], b)
termination_by b.length

/-- Reads a family off the front. -/
def read : Reader Error Family := do
  let found ← Tag.read
  Reader.require (found = magic) .wrongMagic
  let length ← Reader.number 4
  let elements ← readElements length headerLength
  return ⟨elements⟩

end Family
end ClassicIcons.Icns
