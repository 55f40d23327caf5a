import ClassicIcons.Tag

/-! The fifteen kinds of images.

An image has one of three sizes and one of five depths, and every combination
exists. Three orders matter: the one in which an archive lists and stores images
(`all`), the one in which an icns file must hold them (`icnsOrder`), and the
order of the six kinds that the first archive version knows (`legacy`). Each
kind has a tag, a length in either format and a bit of its own. -/
namespace ClassicIcons

inductive Size where
  | small
  | large
  | huge
  deriving DecidableEq, Repr

/-- How pixels are stored. -/
inductive Depth where
  /-- One bit of image for each pixel, followed by one bit of mask. -/
  | mono
  /-- Four-bit indices into the system palette. -/
  | indexed4
  /-- Eight-bit indices into the system palette. -/
  | indexed8
  /-- Three colours of eight bits. An archive stores four bytes for each pixel,
  the first of them an unused alpha; an icns file stores packed planes. -/
  | color24
  /-- An eight-bit mask. -/
  | mask8
  deriving DecidableEq, Repr

structure Kind where
  size : Size
  depth : Depth
  deriving DecidableEq, Repr

/-- The width, and height, in pixels. -/
def Size.pixels : Size → Nat
  | small => 16
  | large => 32
  | huge => 48

/-- The depths, in the order in which an archive stores them. -/
def Depth.all : List Depth := [.mono, .indexed4, .indexed8, .color24, .mask8]

namespace Kind

/-- Every kind, in the order in which an archive lists and stores them. -/
def all : List Kind :=
  [Size.large, .small, .huge].flatMap fun size => Depth.all.map fun depth => ⟨size, depth⟩

/-- The order of an icns file. One-bit images come last: before them, colour
images would not be shown. -/
def icnsOrder : List Kind :=
  ([Size.small, .large, .huge].flatMap fun size =>
    [⟨size, .indexed4⟩, ⟨size, .indexed8⟩, ⟨size, .color24⟩, ⟨size, .mask8⟩]) ++
  [⟨.small, .mono⟩, ⟨.large, .mono⟩, ⟨.huge, .mono⟩]

/-- The kinds that the first archive version stores, in the order of its table of
offsets. -/
def legacy : List Kind :=
  [Size.large, .small].flatMap fun size => [⟨size, .mono⟩, ⟨size, .indexed4⟩, ⟨size, .indexed8⟩]

def tag : Kind → Tag
  | ⟨.large, .mono⟩ => .ofChars 'I' 'C' 'N' '#'
  | ⟨.large, .indexed4⟩ => .ofChars 'i' 'c' 'l' '4'
  | ⟨.large, .indexed8⟩ => .ofChars 'i' 'c' 'l' '8'
  | ⟨.large, .color24⟩ => .ofChars 'i' 'l' '3' '2'
  | ⟨.large, .mask8⟩ => .ofChars 'l' '8' 'm' 'k'
  | ⟨.small, .mono⟩ => .ofChars 'i' 'c' 's' '#'
  | ⟨.small, .indexed4⟩ => .ofChars 'i' 'c' 's' '4'
  | ⟨.small, .indexed8⟩ => .ofChars 'i' 'c' 's' '8'
  | ⟨.small, .color24⟩ => .ofChars 'i' 's' '3' '2'
  | ⟨.small, .mask8⟩ => .ofChars 's' '8' 'm' 'k'
  | ⟨.huge, .mono⟩ => .ofChars 'i' 'c' 'h' '#'
  | ⟨.huge, .indexed4⟩ => .ofChars 'i' 'c' 'h' '4'
  | ⟨.huge, .indexed8⟩ => .ofChars 'i' 'c' 'h' '8'
  | ⟨.huge, .color24⟩ => .ofChars 'i' 'h' '3' '2'
  | ⟨.huge, .mask8⟩ => .ofChars 'h' '8' 'm' 'k'

/-- The kind that a tag names. -/
def ofTag? (t : Tag) : Option Kind := all.find? fun k => k.tag = t

/-- The number of pixels of an image. -/
def area (k : Kind) : Nat := k.size.pixels * k.size.pixels

/-- How many bytes an image has in an icns file, before any packing. -/
def icnsLength (k : Kind) : Nat :=
  match k.depth with
  | .mono => k.area / 4
  | .indexed4 => k.area / 2
  | .indexed8 => k.area
  | .color24 => 3 * k.area
  | .mask8 => k.area

/-- How many bytes an image has in an archive. -/
def archiveLength (k : Kind) : Nat :=
  match k.depth with
  | .color24 => 4 * k.area
  | _ => k.icnsLength

/-- The bit of a record's presence field that stands for the kind. -/
def presenceBit (k : Kind) : Nat :=
  let row := match k.size with
    | .small => 0
    | .large => 5
    | .huge => 10
  row + Depth.all.idxOf k.depth

/-- The presence field that has the kind's bit alone. -/
def presenceMask (k : Kind) : UInt16 := 1 <<< UInt16.ofNat k.presenceBit

/-- The palette images that are not shown without a one-bit image of the kind. -/
def dependents (k : Kind) : List Kind :=
  match k.depth with
  | .mono => [⟨k.size, .indexed4⟩, ⟨k.size, .indexed8⟩]
  | _ => []

theorem mem_all (k : Kind) : k ∈ all := by
  obtain ⟨size, depth⟩ := k
  cases size <;> cases depth <;> decide

theorem mem_icnsOrder (k : Kind) : k ∈ icnsOrder := by
  obtain ⟨size, depth⟩ := k
  cases size <;> cases depth <;> decide

theorem tag_injective {j k : Kind} (h : j.tag = k.tag) : j = k := by
  obtain ⟨size, depth⟩ := j
  obtain ⟨size', depth'⟩ := k
  cases size <;> cases depth <;> cases size' <;> cases depth' <;> first | rfl | (revert h; decide)

@[simp] theorem ofTag?_tag (k : Kind) : ofTag? k.tag = some k := by
  obtain ⟨size, depth⟩ := k
  cases size <;> cases depth <;> decide

theorem icnsLength_le_archiveLength (k : Kind) : k.icnsLength ≤ k.archiveLength := by
  obtain ⟨size, depth⟩ := k
  cases size <;> cases depth <;> decide

/-- No image is longer than the 24-bit one of the greatest size. -/
theorem archiveLength_le (k : Kind) : k.archiveLength ≤ 9216 := by
  obtain ⟨size, depth⟩ := k
  cases size <;> cases depth <;> decide

end Kind
end ClassicIcons
