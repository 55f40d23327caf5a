import ClassicIcons.Archive.Walk

/-! Building archives.

A picture is what an icon is made from: a name and up to fifteen images, each of
the length of its kind. Records of either version can be made of pictures, and
archives of records: a header, four unused bytes for each record, and the records one
behind another. The images of a picture stand in its data one behind another, too. -/
namespace ClassicIcons.Archive

/-- The kinds that a version can store, in its order. -/
def Version.kinds : Version → List Kind
  | first => Kind.legacy
  | second => Kind.all

structure Picture where
  name : Bytes
  image? : Kind → Option Bytes
  name_length : name.length ≤ 255
  image_length : ∀ k image, image? k = some image → image.length = k.archiveLength

namespace Picture

def has (p : Picture) (k : Kind) : Bool := (p.image? k).isSome

/-- The images of some kinds, one behind another. -/
def data (p : Picture) (order : List Kind) : Bytes := order.flatMap fun k => (p.image? k).getD []

/-- Where the image of a kind starts in the data. -/
def offset? (p : Picture) (order : List Kind) (k : Kind) : Option Nat :=
  (p.image? k).map fun _ => (p.data (order.takeWhile (· ≠ k))).length

/-- The offset that the first version stores: it counts from 17 bytes and the
length of the name before the data, and is zero if there is no image. -/
def storedOffset (p : Picture) (k : Kind) : Nat :=
  match p.offset? Kind.legacy k with
  | some start => start + (p.name.length + 17)
  | none => 0

/-- The bits of the kinds that have an image. -/
def presence (p : Picture) : UInt16 :=
  (Kind.all.filter p.has).foldl (fun bits k => bits ||| k.presenceMask) 0

/-- The data, in the order of the version. -/
def content (p : Picture) (v : Version) : Bytes := p.data v.kinds

end Picture

/-! ### Records -/

/-- A picture with the payload that holds its content. -/
structure Entry where
  picture : Picture
  payload : Bytes

namespace Entry

/-- The length of the record. -/
def size (e : Entry) : Version → Nat
  | .first => 26 + 1 + e.picture.name.length + e.payload.length
  | .second => 20 + 1 + e.picture.name.length + 1 + e.payload.length

/-- The record. -/
def record (e : Entry) (v : Version) : Bytes :=
  Bytes.ofNat 4 (e.size v) ++ (List.replicate 8 0 ++ match v with
    | .first =>
      Bytes.ofNat 2 (e.picture.content .first).length ++
        ((Kind.legacy.flatMap fun k => Bytes.ofNat 2 (e.picture.storedOffset k)) ++
          (UInt8.ofNat e.picture.name.length :: (e.picture.name ++ e.payload)))
    | .second =>
      Bytes.ofNat 4 (e.picture.content .second).length ++
        (Bytes.ofNat 2 e.picture.presence.toNat ++ (0 :: 0 ::
          UInt8.ofNat e.picture.name.length :: (e.picture.name ++ (0 :: e.payload)))))

end Entry

/-! ### Archives -/

/-- As many bytes as wanted: some are left out at the end, or zeros are added. -/
def resize (length : Nat) (b : Bytes) : Bytes :=
  b.take length ++ List.replicate (length - b.length) 0

/-- A text in a field of `width` bytes, after its length. -/
def padded (width : Nat) (text : Bytes) : Bytes := UInt8.ofNat text.length :: resize width text

/-- What the header of a version has at its end. -/
def builtEdition (copyright comment : Bytes) : Version → Bytes
  | .first => []
  | .second => Header.extendedMagic ++ (List.replicate 57 0 ++ (0 :: 0 :: 0 ::
      (padded 63 copyright ++ padded 255 comment)))

/-- The header of an archive with `count` icons. -/
def builtHeader (v : Version) (copyright comment : Bytes) (count : Nat) : Bytes :=
  Header.magic ++ (0 :: 0 :: (Bytes.ofNat 2 v.number.toNat ++ (Bytes.ofNat 4 count ++
    (List.replicate 48 0 ++ builtEdition copyright comment v))))

/-- The length of a header with room to spare. -/
def builtLength : Version → Nat
  | .first => 64
  | .second => 1088

/-- The archive of some records. -/
def build (v : Version) (copyright comment : Bytes) (records : List Bytes) : Bytes :=
  resize (builtLength v + 4 * records.length) (builtHeader v copyright comment records.length) ++
    records.flatten

end ClassicIcons.Archive
