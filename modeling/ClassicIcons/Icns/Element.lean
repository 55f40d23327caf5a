import ClassicIcons.Kind
import ClassicIcons.Icns.Error
import ClassicIcons.RunLength.Pack

/-! Elements of an icns file.

An element is a tag, a length that counts its own header, and data. Images keep
the bytes that an archive has for them, but for 24-bit images: those are written
as three packed planes, red, green and blue, without alpha and with nothing
between them. `colors` takes the planes apart again. -/
namespace ClassicIcons.Icns

structure Element where
  tag : Tag
  data : Bytes
  deriving DecidableEq, Repr

namespace Element

/-- The length of the tag and the length field. -/
def headerLength : Nat := 8

/-- The length of the element in the file. -/
def totalLength (e : Element) : Nat := headerLength + e.data.length

def kind? (e : Element) : Option Kind := Kind.ofTag? e.tag

/-- The element as written in a file. -/
def bytes (e : Element) : Bytes := e.tag.bytes ++ Bytes.ofNat 4 e.totalLength ++ e.data

/-- Reads one element off the front. -/
def read : Reader Error Element := do
  let tag ← Tag.read
  let length ← Reader.number 4
  Reader.require (headerLength ≤ length) .elementLength
  let data ← Reader.bytes (length - headerLength)
  return ⟨tag, data⟩

/-- What is read is a tag, a length of eight bytes more than the data, and the data. -/
theorem read_eq_ok_iff {b rest : Bytes} {e : Element} :
    read b = .ok (e, rest) ↔ ∃ field, field.length = 4 ∧ field.value = 8 + e.data.length ∧
      b = e.tag.bytes ++ (field ++ (e.data ++ rest)) := by
  have hheader : headerLength = 8 := rfl
  simp only [read, Reader.bind_eq_ok_iff, Tag.read_eq_ok_iff, Reader.number_eq_ok_iff,
    Reader.require_eq_ok_iff, Reader.bytes_eq_ok_iff, Reader.pure_eq_ok_iff]
  constructor
  · intro h
    obtain ⟨tag, _, rfl, _, _, ⟨field, rfl, hfield, rfl⟩, _, _, ⟨hle, rfl⟩, data, _, ⟨rfl, hdata⟩,
      rfl, rfl⟩ := h
    refine ⟨field, hfield, ?_, rfl⟩
    show field.value = 8 + data.length
    omega
  · intro h
    obtain ⟨field, hfield, hvalue, rfl⟩ := h
    exact ⟨e.tag, _, rfl, _, _, ⟨field, rfl, hfield, rfl⟩, (), _, ⟨by omega, rfl⟩, e.data, rest,
      ⟨rfl, by omega⟩, rfl, rfl⟩

/-! ### Images -/

/-- One byte of each pixel of four bytes. -/
def channel (byte : Nat) : RunLength.Sampling := ⟨byte, 4, by decide⟩

/-- The red, green and blue bytes. -/
def channels : List RunLength.Sampling := [channel 1, channel 2, channel 3]

/-- The element for an image as an archive stores it. There is none if bytes of
the image are missing; bytes after it do not count. -/
def ofImage? (k : Kind) (image : Bytes) : Option Element :=
  match k.depth with
  | .color24 => (image.split? k.archiveLength).map fun (argb, _) =>
      ⟨k.tag, channels.foldl (fun data c => RunLength.Flavour.icns.append data argb c) []⟩
  | _ => (image.split? k.icnsLength).map fun (data, _) => ⟨k.tag, data⟩

/-- An image that is all black under a mask that covers every pixel, if the kind
is a one-bit one. -/
def placeholder (k : Kind) : Element :=
  ⟨k.tag, List.replicate (k.icnsLength / 2) 0x00 ++
    List.replicate (k.icnsLength - k.icnsLength / 2) 0xff⟩

/-- Pixels from three planes. -/
def interleave : Bytes → Bytes → Bytes → Bytes
  | r :: red, g :: green, b :: blue => r :: g :: b :: interleave red green blue
  | _, _, _ => []

/-- Takes one plane of `area` pixels off the front. -/
def plane (area : Nat) : Reader Error Bytes := fun b =>
  match RunLength.Flavour.icns.unpack b area with
  | .ok (values, rest) => .ok (values, rest)
  | .error e => .error (.plane e)

/-- The pixels of a 24-bit image, three bytes each. -/
def colors (e : Element) : Except Error Bytes :=
  match e.kind? with
  | some ⟨size, .color24⟩ => do
    let area := Kind.area ⟨size, .color24⟩
    let (red, rest) ← plane area e.data
    let (green, rest) ← plane area rest
    let (blue, rest) ← plane area rest
    if rest = [] then return interleave red green blue else throw .trailingData
  | _ => throw (.notColor24 e.tag)

end Element
end ClassicIcons.Icns
