import ClassicIcons.Archive.Error

/-! Icons: the decoded content of a record.

An icon has up to fifteen images, each of them a part of the icon's data. Images
may overlap, and the data may hold more; but no image reaches past its end. -/
namespace ClassicIcons.Archive

structure Icon where
  /-- The place of the record in its archive. -/
  index : Nat
  name : String
  data : Bytes
  /-- Where the image of each kind starts, if there is one. -/
  offset : Kind → Option Nat
  inside : ∀ k start, offset k = some start → start + k.archiveLength ≤ data.length

namespace Icon

/-- Whether an image that starts there would reach past the end. -/
def overruns (size : Nat) (offset : Kind → Option Nat) (k : Kind) : Bool :=
  match offset k with
  | some start => size < start + k.archiveLength
  | none => false

theorem inside_of_find?_eq_none {size : Nat} {offset : Kind → Option Nat}
    (h : Kind.all.find? (overruns size offset) = none) (k : Kind) (start : Nat)
    (hk : offset k = some start) : start + k.archiveLength ≤ size := by
  have := List.find?_eq_none.1 h k k.mem_all
  simp only [overruns, hk, decide_eq_true_eq, Nat.not_lt] at this
  exact this

/-- The icon of the given data, unless an image reaches past the end. -/
def of (index : Nat) (name : String) (data : Bytes) (offset : Kind → Option Nat) :
    Except Error Icon :=
  match h : Kind.all.find? (overruns data.length offset) with
  | some k =>
    .error (.decompressionFailed (.imageOverrun k ((offset k).getD 0) data.length))
  | none => .ok ⟨index, name, data, offset, inside_of_find?_eq_none h⟩

def has (i : Icon) (k : Kind) : Bool := (i.offset k).isSome

/-- The image of a kind, as the archive stores it. -/
def image? (i : Icon) (k : Kind) : Option Bytes :=
  (i.offset k).map fun start => (i.data.drop start).take k.archiveLength

/-- The kinds of the images, in the order of `Kind.all`. -/
def kinds (i : Icon) : List Kind := Kind.all.filter i.has

theorem has_eq_isSome (i : Icon) (k : Kind) : i.has k = (i.image? k).isSome := Option.isSome_map.symm

theorem length_of_image? {i : Icon} {k : Kind} {image : Bytes} (h : i.image? k = some image) :
    image.length = k.archiveLength := by
  obtain ⟨start, hs, rfl⟩ := Option.map_eq_some_iff.1 h
  have := i.inside k start hs
  simp only [List.length_take, List.length_drop]
  omega

end Icon
end ClassicIcons.Archive
