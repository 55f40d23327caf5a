import ClassicIcons.Proofs.Archive.Frames
import ClassicIcons.Proofs.Archive.Pictures
import ClassicIcons.Proofs.Archive.RecordForm
import ClassicIcons.Proofs.RunLength.RoundTrip
import ClassicIcons.Proofs.Zlib.Decoder

/-! Records made of pictures.

A picture fits a version if its images are of kinds that the version stores, and its
payload holds them in the version's own way (`Entry.Fits`). The record is then framed by
its own length (`Entry.framed_record`), and decoding it gives the icon of the picture
(`decodeWhole_record`). -/
namespace ClassicIcons.Archive

/-- The length of all images that a version can store. -/
def Version.maxContent : Version → Nat
  | first => 2240
  | second => 24192

theorem Picture.length_content_le (p : Picture) (v : Version) : (p.content v).length ≤ v.maxContent := by
  have hsum : Picture.lengthOf v.kinds = v.maxContent := by cases v <;> decide
  exact Nat.le_trans (p.length_data_le v.kinds) (Nat.le_of_eq hsum)

theorem Picture.length_content_lt (p : Picture) (v : Version) : (p.content v).length < UInt32.size :=
  Nat.lt_of_le_of_lt (p.length_content_le v) (by cases v <;> decide)

namespace Entry

/-- The header of the record. -/
def header (e : Entry) (v : Version) : Record where
  size := UInt32.ofNat (e.size v)
  reserved := Vector.replicate 4 0
  uncompressedSize := UInt32.ofNat (e.picture.content v).length
  name := e.picture.name
  layout := match v with
    | .first => .legacy e.picture.storedOffsets
    | .second => .extended e.picture.presence 0

theorem words_storedOffsets (p : Picture) :
    words p.storedOffsets.toList = Kind.legacy.flatMap fun k => Bytes.ofNat 2 (p.storedOffset k) := by
  show words (Kind.legacy.map fun k => UInt16.ofNat (p.storedOffset k)) = _
  rw [words, List.flatMap_map]
  congr 1
  funext k
  rw [UInt16.toNat_ofNat_of_lt' (p.storedOffset_lt k)]

/-- The record is its header and its payload. -/
theorem record_eq (e : Entry) {v : Version} (hsize : e.size v < UInt32.size) :
    e.record v = (e.header v).head 0 ++ e.payload := by
  have hstated : (UInt32.ofNat (e.size v)).toNat = e.size v := UInt32.toNat_ofNat_of_lt' hsize
  have hcontent : (UInt32.ofNat (e.picture.content v).length).toNat = (e.picture.content v).length :=
    UInt32.toNat_ofNat_of_lt' (e.picture.length_content_lt v)
  have hreserved : words (Vector.replicate 4 (0 : UInt16)).toList = List.replicate 8 0 := rfl
  cases v with
  | first =>
    simp only [record, Record.head, header, Record.nameBytes, hstated, hcontent, hreserved,
      words_storedOffsets, List.append_assoc, List.cons_append]
  | second =>
    have hwords : words [e.picture.presence, 0] = Bytes.ofNat 2 e.picture.presence.toNat ++ [0, 0] := rfl
    simp only [record, Record.head, header, Record.nameBytes, hstated, hcontent, hreserved, hwords,
      List.append_assoc, List.cons_append, List.nil_append]

theorem fitting_header (e : Entry) (v : Version) : (e.header v).Fitting v where
  version := by cases v <;> rfl
  name := Nat.lt_succ_of_le e.picture.name_length
  uncompressedSize := by
    rintro rfl
    have hlength := e.picture.length_content_le .first
    show (UInt32.ofNat (e.picture.content .first).length).toNat < UInt16.size
    rw [UInt32.toNat_ofNat_of_lt' (e.picture.length_content_lt .first)]
    exact Nat.lt_of_le_of_lt hlength (by decide)

theorem read_record (e : Entry) {v : Version} (hsize : e.size v < UInt32.size) :
    Record.read v (e.record v) = .ok (e.header v, e.payload) :=
  Record.read_eq_ok_iff.2 ⟨e.fitting_header v, 0, e.record_eq hsize⟩

theorem length_record (e : Entry) {v : Version} (hsize : e.size v < UInt32.size) :
    (e.record v).length = e.size v := by
  have hname : (e.header v).name = e.picture.name := rfl
  rw [e.record_eq hsize, List.length_append, Record.length_head, (e.fitting_header v).version, hname]
  cases v with
  | first => rfl
  | second =>
    show 22 + e.picture.name.length + e.payload.length =
      20 + 1 + e.picture.name.length + 1 + e.payload.length
    omega

/-- A record starts with its own length. -/
theorem framed_record (e : Entry) {v : Version} (hsize : e.size v < UInt32.size) :
    Framed (e.record v) where
  field := by
    rw [e.length_record hsize]
    exact ⟨_, rfl⟩
  length_lt := by
    rw [e.length_record hsize]
    exact hsize

end Entry

/-! ### Decoding -/

variable [Zlib.Decoder]

/-- The payload holds the data. For the second version it may come from any
compressor, as long as its stream ends with the data. -/
def Version.Carries : Version → (data payload : Bytes) → Prop
  | first, data, payload => payload = RunLength.Flavour.packBits.pack data
  | second, data, payload => Zlib.Completes payload data

/-- The version has a record for the picture, with this payload. -/
structure Entry.Fits (e : Entry) (v : Version) : Prop where
  within : e.picture.Within v.kinds
  /-- A record of the second version has an image at least. -/
  nonempty : v = .second → ∃ k, e.picture.has k = true
  payload : v.Carries (e.picture.content v) e.payload
  size_lt : e.size v < UInt32.size

/-- The data is had back from a payload that holds it. -/
theorem unpack_of_carries {data payload : Bytes} (h : Version.first.Carries data payload) :
    Record.unpack payload data.length = .ok data := by
  have hunpack := RunLength.Flavour.packBits.unpack_pack data []
  rw [List.append_nil, ← show payload = RunLength.Flavour.packBits.pack data from h] at hunpack
  rw [Record.unpack, hunpack]

theorem inflate_of_carries {data payload : Bytes} (h : Version.second.Carries data payload) :
    Record.inflate payload data.length = .ok data := by
  rw [Record.inflate, h.read (Nat.le_succ _)]
  simp only [Nat.lt_irrefl, if_false, if_true]

/-- **Decoding the record of a picture gives its icon.** -/
theorem decodeWhole_record {e : Entry} {v : Version} (h : e.Fits v) (index : Nat) :
    Record.decodeWhole v index (e.record v) = .ok (e.picture.icon index h.within) := by
  have hcontent : (e.header v).uncompressedSize.toNat = (e.picture.content v).length :=
    UInt32.toNat_ofNat_of_lt' (e.picture.length_content_lt v)
  rw [Record.decodeWhole, e.read_record h.size_lt]
  cases v with
  | first =>
    have hunpack := unpack_of_carries h.payload
    rw [← hcontent] at hunpack
    refine (Record.decode_legacy rfl hunpack index).trans ?_
    rw [← e.picture.of_eq_icon index h.within]
    exact congrArg (Icon.of index _ _) (Picture.legacyOffset_storedOffsets h.within)
  | second =>
    have hinflate := inflate_of_carries h.payload
    obtain ⟨k, hk⟩ := h.nonempty rfl
    have hkinds : Layout.presentKinds e.picture.presence ≠ [] := by
      rw [e.picture.presentKinds_presence]
      exact List.ne_nil_of_mem (List.mem_filter.2 ⟨k.mem_all, hk⟩)
    rw [← hcontent] at hinflate
    refine (Record.decode_extended rfl hkinds hinflate index).trans ?_
    rw [← e.picture.of_eq_icon index h.within]
    exact congrArg (Icon.of index _ _) e.picture.packedOffset_presence

end ClassicIcons.Archive
