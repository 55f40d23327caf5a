import ClassicIcons.Proofs.Archive.Faults
import ClassicIcons.Proofs.Zlib.Stored

/-! Records of the second version.

What becomes of such a record is a matter of three things: what the decoder makes of its
payload, how much comes out, and which bits are set. The images of the kinds whose bits are set stand
one behind another, in the order of `Kind.all`, whatever the order of the bits is; an
image starts where those before it end (`Layout.packedOffset_split`). If there is not
enough data for all of them, one is the first that the data ends in (`Past`), and the
record is refused for it. -/
namespace ClassicIcons.Archive

/-! ### Images one behind another -/

/-- The image of this kind, which starts there, is the first that reaches past the end, when
the images of the kinds stand one behind another. -/
def Past (kinds : List Kind) (size : Nat) (k : Kind) (start : Nat) : Prop :=
  ∃ front back, kinds = front ++ k :: back ∧ start = Picture.lengthOf front ∧
    start ≤ size ∧ size < start + k.archiveLength

/-- If not all images fit, one of them is the first that does not. -/
theorem exists_past {kinds : List Kind} {size : Nat} (h : size < Picture.lengthOf kinds) :
    ∃ k start, Past kinds size k start := by
  induction kinds generalizing size with
  | nil => cases h
  | cons j kinds ih =>
    rw [Picture.lengthOf_cons] at h
    by_cases hj : size < j.archiveLength
    · exact ⟨j, 0, [], kinds, rfl, rfl, Nat.zero_le _, by omega⟩
    · have hrest : size - j.archiveLength < Picture.lengthOf kinds := by omega
      obtain ⟨k, start, front, back, rfl, rfl, hle, hlt⟩ := ih hrest
      refine ⟨k, j.archiveLength + Picture.lengthOf front, j :: front, back, rfl, rfl, ?_, ?_⟩
      · omega
      · omega

namespace Layout

theorem mem_presentKinds {presence : UInt16} {k : Kind} :
    k ∈ presentKinds presence ↔ presence.toNat.testBit k.presenceBit = true := by
  simp [presentKinds, k.mem_all]

theorem nodup_presentKinds (presence : UInt16) : (presentKinds presence).Nodup := by
  have hall : Kind.all.Nodup := by decide
  exact hall.filter _

/-- The highest bit belongs to no kind. -/
theorem presentKinds_xor (presence : UInt16) :
    presentKinds (presence ^^^ 0x8000) = presentKinds presence := by
  have hnone : ∀ k ∈ Kind.all, (0x8000 : UInt16).toNat.testBit k.presenceBit = false := by decide
  apply List.filter_congr
  intro k hk
  rw [UInt16.toNat_xor, Nat.testBit_xor, hnone k hk, Bool.xor_false]

/-- An image starts where those before it end. -/
theorem packedOffset_split {front back : List Kind} {k : Kind} (h : (front ++ k :: back).Nodup) :
    packedOffset (front ++ k :: back) k = some (Picture.lengthOf front) := by
  have hfront : ∀ j ∈ front, decide (j ≠ k) = true := by
    intro j hj
    have hne := (List.nodup_append.1 h).2.2 j hj k List.mem_cons_self
    simpa using hne
  rw [packedOffset, if_pos (List.mem_append_right _ List.mem_cons_self),
    List.takeWhile_append_of_pos hfront, List.takeWhile_cons_of_neg (by simp), List.append_nil,
    Picture.lengthOf]

theorem packedOffset_of_not_mem {kinds : List Kind} {k : Kind} (h : k ∉ kinds) :
    packedOffset kinds k = none := if_neg h

variable {kinds : List Kind} (hkinds : kinds.Nodup) {size : Nat}
include hkinds

/-- There is room for all images where there is room for their lengths. -/
theorem inside_packedOffset (h : Picture.lengthOf kinds ≤ size) : Icon.Inside size (packedOffset kinds) := by
  intro k start hstart
  by_cases hk : k ∈ kinds
  · obtain ⟨front, back, rfl⟩ := List.append_of_mem hk
    rw [packedOffset_split hkinds] at hstart
    cases hstart
    rw [Picture.lengthOf_append, Picture.lengthOf_cons] at h
    omega
  · rw [packedOffset_of_not_mem hk] at hstart
    cases hstart

/-- The first image that reaches past the end is found among the kinds. -/
theorem find?_of_past {k : Kind} {start : Nat} (h : Past kinds size k start) :
    kinds.find? (Icon.overruns size (packedOffset kinds)) = some k := by
  obtain ⟨front, back, rfl, rfl, hle, hlt⟩ := h
  have hfront : front.find? (Icon.overruns size (packedOffset (front ++ k :: back))) = none := by
    apply List.find?_eq_none.2
    intro j hj
    obtain ⟨before, after, rfl⟩ := List.append_of_mem hj
    rw [Picture.lengthOf_append, Picture.lengthOf_cons] at hle
    rw [List.append_assoc, List.cons_append] at hkinds ⊢
    rw [Icon.overruns_of_offset (packedOffset_split hkinds), decide_eq_true_eq]
    omega
  have hk : Icon.overruns size (packedOffset (front ++ k :: back)) k = true := by
    rw [Icon.overruns_of_offset (packedOffset_split hkinds)]
    exact decide_eq_true hlt
  rw [List.find?_append, hfront, List.find?_cons_of_pos hk, Option.none_or]

theorem offset_of_past {k : Kind} {start : Nat} (h : Past kinds size k start) :
    packedOffset kinds k = some start := by
  obtain ⟨front, back, rfl, rfl, -, -⟩ := h
  exact packedOffset_split hkinds

end Layout

/-! ### Packed icons -/

/-- The images stand one behind another from the start of the data, in the order of
`Kind.all`, with nothing between them. -/
structure Icon.Packed (i : Icon) : Prop where
  first : ∀ k back, i.kinds = k :: back → i.offset k = some 0
  next : ∀ front j k back start, i.kinds = front ++ j :: k :: back → i.offset j = some start →
    i.offset k = some (start + j.archiveLength)
  apart : i.kinds.Pairwise fun j k => ∀ start start', i.offset j = some start → i.offset k = some start' →
    start + j.archiveLength ≤ start'
  filled : i.kinds.flatMap (fun k => (i.image? k).getD []) = i.data.take (Picture.lengthOf i.kinds)

namespace Icon

variable {i : Icon} (h : ∀ front k back, i.kinds = front ++ k :: back →
  i.offset k = some (Picture.lengthOf front))
include h

/-- From any of the images on, the images are the data from there on. -/
theorem images_from (front back : List Kind) (hkinds : i.kinds = front ++ back) :
    back.flatMap (fun k => (i.image? k).getD []) =
      (i.data.drop (Picture.lengthOf front)).take (Picture.lengthOf back) := by
  induction back generalizing front with
  | nil => exact (List.take_zero).symm
  | cons k back ih =>
    have himage : i.image? k =
        some ((i.data.drop (Picture.lengthOf front)).take k.archiveLength) := by
      rw [image?, h front k back hkinds]
      rfl
    have hbehind : Picture.lengthOf (front ++ [k]) = Picture.lengthOf front + k.archiveLength :=
      Picture.lengthOf_append front [k]
    have hrest := ih (front ++ [k]) (by rw [hkinds, List.append_assoc, List.singleton_append])
    rw [hbehind] at hrest
    rw [List.flatMap_cons, hrest, himage, Picture.lengthOf_cons, List.take_add, List.drop_drop]
    rfl

/-- An image ends before any image behind it starts. -/
theorem apart_from (front back : List Kind) (hkinds : i.kinds = front ++ back) :
    back.Pairwise fun j k => ∀ start start', i.offset j = some start → i.offset k = some start' →
      start + j.archiveLength ≤ start' := by
  induction back generalizing front with
  | nil => exact .nil
  | cons j back ih =>
    refine .cons ?_ (ih (front ++ [j]) (by rw [hkinds, List.append_assoc, List.singleton_append]))
    intro k hk start start' hstart hstart'
    obtain ⟨middle, after, rfl⟩ := List.append_of_mem hk
    rw [h front j (middle ++ k :: after) hkinds] at hstart
    rw [h (front ++ j :: middle) k after (by rw [hkinds, List.append_assoc, List.cons_append]),
      Picture.lengthOf_append, Picture.lengthOf_cons] at hstart'
    cases hstart
    cases hstart'
    omega

/-- Images that start where those before them end are packed. -/
theorem packed_of_split : i.Packed where
  first k back hkinds := h [] k back hkinds
  next front j k back start hkinds hstart := by
    rw [h front j (k :: back) hkinds] at hstart
    cases hstart
    rw [h (front ++ [j]) k back (by rw [hkinds, List.append_assoc, List.singleton_append]),
      Picture.lengthOf_append]
    rfl
  apart := apart_from h [] i.kinds rfl
  filled := images_from h [] i.kinds rfl

end Icon

/-! ### Decoding -/

namespace Record

section
variable [Zlib.Decoder] {payload data : Bytes} {size : Nat}

theorem inflate_of_read_error {text : String} (h : Zlib.Decoder.read (size + 1) payload = .error text) :
    inflate payload size = .error (.decompressionFailed (.stream text)) := by
  rw [inflate, h]

theorem inflate_of_excess (h : Zlib.Decoder.read (size + 1) payload = .ok data) (hlong : size < data.length) :
    inflate payload size = .error (.decompressionFailed (.excess size)) := by
  rw [inflate, h]
  exact if_pos hlong

/-- A payload that ends with some bytes of its own length is refused unless the record
declares that length. -/
theorem inflate_of_completes (h : Zlib.Completes payload data) (size : Nat) :
    inflate payload size =
      if data.length = size then .ok data
      else if size < data.length then .error (.decompressionFailed (.excess size))
      else .error (.sizeMismatch size data.length) := by
  by_cases hlong : size < data.length
  · have htaken : size < (data.take (size + 1)).length := by
      rw [List.length_take]
      omega
    rw [inflate_of_excess (h (size + 1)) htaken, if_neg (Nat.ne_of_gt hlong), if_pos hlong]
  · rw [inflate, h.read (Nat.le_succ_of_le (Nat.not_lt.1 hlong)), if_neg hlong]
    exact if_neg hlong

theorem inflate_of_length (h : Zlib.Completes payload data) (hlength : data.length = size) :
    inflate payload size = .ok data :=
  (inflate_of_completes h size).trans (if_pos hlength)

end

/-- What becomes of a record of the second version. -/
structure DecodesPacked [Zlib.Decoder] (r : Record) (presence : UInt16) (index : Nat) (payload : Bytes) :
    Prop where
  /-- When one byte more than the record declares is asked for, there is something wrong, or
  there is one more, or the payload is complete. -/
  ends : (∃ text, Zlib.Decoder.read (r.uncompressedSize.toNat + 1) payload = .error text) ∨
    (∃ data, Zlib.Decoder.read (r.uncompressedSize.toNat + 1) payload = .ok data ∧
      data.length = r.uncompressedSize.toNat + 1) ∨
    ∃ data, Zlib.Completes payload data ∧ data.length ≤ r.uncompressedSize.toNat
  failed : ∀ text, Zlib.Decoder.read (r.uncompressedSize.toNat + 1) payload = .error text →
    r.decode index payload = .error (.decompressionFailed (.stream text))
  /-- There are more bytes than declared, whether the payload is complete or not. -/
  excess : ∀ data, Zlib.Decoder.read (r.uncompressedSize.toNat + 1) payload = .ok data →
    r.uncompressedSize.toNat < data.length →
    r.decode index payload = .error (.decompressionFailed (.excess r.uncompressedSize.toNat))
  long : ∀ data, Zlib.Completes payload data → r.uncompressedSize.toNat < data.length →
    r.decode index payload = .error (.decompressionFailed (.excess r.uncompressedSize.toNat))
  short : ∀ data, Zlib.Completes payload data → data.length < r.uncompressedSize.toNat →
    r.decode index payload = .error (.sizeMismatch r.uncompressedSize.toNat data.length)
  hollow : ∀ data, Zlib.Completes payload data → data.length = r.uncompressedSize.toNat →
    (∀ k : Kind, presence.toNat.testBit k.presenceBit = false) →
    r.decode index payload = .error .emptyIcon
  overrun : ∀ data, Zlib.Completes payload data → data.length = r.uncompressedSize.toNat →
    data.length < Picture.lengthOf (Layout.presentKinds presence) →
    ∃ k start, Past (Layout.presentKinds presence) data.length k start ∧
      r.decode index payload = .error (.decompressionFailed (.imageOverrun k start data.length))
  icon : ∀ data, Zlib.Completes payload data → data.length = r.uncompressedSize.toNat →
    (∃ k : Kind, presence.toNat.testBit k.presenceBit = true) →
    Picture.lengthOf (Layout.presentKinds presence) ≤ data.length →
    ∃ icon, r.decode index payload = .ok icon ∧ icon.index = index ∧ icon.name = r.text ∧
      icon.data = data ∧ (∀ k : Kind, icon.has k = presence.toNat.testBit k.presenceBit) ∧ icon.Packed
  /-- Neither the bit that belongs to no kind nor the other field has any effect. -/
  unused : ∀ extra : UInt16,
    ({ r with layout := .extended (presence ^^^ 0x8000) extra } : Record).decode index payload =
      r.decode index payload

section
variable [Zlib.Decoder] {r : Record} {presence extra : UInt16} (hr : r.layout = .extended presence extra)
include hr

theorem decode_of_inflate_error {payload : Bytes} {e : Error}
    (h : inflate payload r.uncompressedSize.toNat = .error e) (index : Nat) :
    r.decode index payload = .error e := by
  simp only [decode, hr, h]
  rfl

/-- The highest bit makes no difference, and neither does the other field. -/
theorem decode_unused (extra' : UInt16) (index : Nat) (payload : Bytes) :
    ({ r with layout := .extended (presence ^^^ 0x8000) extra' } : Record).decode index payload =
      r.decode index payload := by
  simp only [decode, hr, Layout.presentKinds_xor]
  rfl

/-- Data that ends in an image is refused for the first such image. -/
theorem decode_of_past {payload data : Bytes} (h : inflate payload r.uncompressedSize.toNat = .ok data)
    {k : Kind} {start : Nat} (hpast : Past (Layout.presentKinds presence) data.length k start) (index : Nat) :
    r.decode index payload = .error (.decompressionFailed (.imageOverrun k start data.length)) := by
  have hkinds := Layout.nodup_presentKinds presence
  have hstart := Layout.offset_of_past hkinds hpast
  have hne : Layout.presentKinds presence ≠ [] := by
    obtain ⟨front, back, hsplit, -⟩ := hpast
    rw [hsplit]
    exact List.append_ne_nil_of_right_ne_nil front (List.cons_ne_nil k back)
  have hfind : Kind.all.find?
      (Icon.overruns data.length (Layout.packedOffset (Layout.presentKinds presence))) = some k := by
    rw [← Layout.find?_of_past hkinds hpast]
    apply Icon.find?_overruns
    intro j hj
    apply Layout.packedOffset_of_not_mem
    rw [Layout.mem_presentKinds, hj]
    exact Bool.false_ne_true
  rw [decode_extended hr hne h]
  exact Icon.of_of_first index r.text hfind hstart

/-- With enough data there is an icon, and its images are packed. -/
theorem decode_packed {payload data : Bytes} (h : inflate payload r.uncompressedSize.toNat = .ok data)
    (hbit : ∃ k : Kind, presence.toNat.testBit k.presenceBit = true)
    (hroom : Picture.lengthOf (Layout.presentKinds presence) ≤ data.length) (index : Nat) :
    ∃ icon, r.decode index payload = .ok icon ∧ icon.index = index ∧ icon.name = r.text ∧
      icon.data = data ∧ (∀ k : Kind, icon.has k = presence.toNat.testBit k.presenceBit) ∧
      icon.Packed := by
  have hkinds := Layout.nodup_presentKinds presence
  have hne : Layout.presentKinds presence ≠ [] := by
    obtain ⟨k, hk⟩ := hbit
    exact List.ne_nil_of_mem (Layout.mem_presentKinds.2 hk)
  have hinside := Layout.inside_packedOffset hkinds hroom
  let icon : Icon := ⟨index, r.text, data, Layout.packedOffset (Layout.presentKinds presence), hinside⟩
  have hhas : ∀ k : Kind, icon.has k = presence.toNat.testBit k.presenceBit := by
    intro k
    rw [Bool.eq_iff_iff, ← Layout.mem_presentKinds]
    simp [icon, Icon.has, Layout.packedOffset]
  have hsplit : icon.kinds = Layout.presentKinds presence := List.filter_congr fun k _ => hhas k
  refine ⟨icon, ?_, rfl, rfl, rfl, hhas, Icon.packed_of_split fun front k back hfront => ?_⟩
  · rw [decode_extended hr hne h]
    exact Icon.of_of_inside index r.text hinside
  · rw [hsplit] at hfront
    have hoffset := Layout.packedOffset_split (hfront ▸ hkinds)
    rw [← hfront] at hoffset
    exact hoffset

/-- **A record of the second version is decoded just if its payload has the length that it
declares, and holds an image at least and all of each.** So it is with any decoder that
ends where a stream ends. -/
theorem decodes_packed [Zlib.Decoder.Lawful] (index : Nat) (payload : Bytes) :
    r.DecodesPacked presence index payload where
  ends := Zlib.completes_or_exceeds payload r.uncompressedSize.toNat
  failed text h := decode_of_inflate_error hr (inflate_of_read_error h) index
  excess data h hlong := decode_of_inflate_error hr (inflate_of_excess h hlong) index
  long data h hlong := by
    apply decode_of_inflate_error hr
    rw [inflate_of_completes h, if_neg (Nat.ne_of_gt hlong), if_pos hlong]
  short data h hshort := by
    apply decode_of_inflate_error hr
    rw [inflate_of_completes h, if_neg (Nat.ne_of_lt hshort), if_neg (Nat.lt_asymm hshort)]
  hollow data h hlength hbits := by
    have hinflate := inflate_of_length h hlength
    exact decode_hollow hr (Layout.presentKinds_eq_nil_iff.2 hbits) hinflate index
  overrun data h hlength hlt := by
    have hinflate := inflate_of_length h hlength
    obtain ⟨k, start, hpast⟩ := exists_past hlt
    exact ⟨k, start, hpast, decode_of_past hr hinflate hpast index⟩
  icon data h hlength hbit hroom := by
    have hinflate := inflate_of_length h hlength
    exact decode_packed hr hinflate hbit hroom index
  unused extra' := decode_unused hr extra' index payload

end

/-- A record with nothing but a length and some bits. -/
def declaring (size : UInt32) (presence : UInt16) : Record where
  size := 0
  reserved := Vector.replicate 4 0
  uncompressedSize := size
  name := []
  layout := .extended presence 0

attribute [local instance] Zlib.inflater

/-- As many bytes as a small one-bit image has. -/
def gray : Bytes := List.replicate 64 0xcc

/-- Bit 0 stands for the small one-bit image, and bit 5 for the large one. -/
theorem decodes_packed_of_gray :
    (∃ icon, (declaring 64 0x8001).decode 0 (Zlib.stored gray) = .ok icon ∧ icon.data = gray ∧
      icon.has ⟨.small, .mono⟩ = true ∧ icon.has ⟨.large, .mono⟩ = false) ∧
    (declaring 63 1).decode 0 (Zlib.stored gray) =
      .error (.decompressionFailed (.excess 63)) ∧
    (declaring 65 1).decode 0 (Zlib.stored gray) = .error (.sizeMismatch 65 64) ∧
    (declaring 64 0x8000).decode 0 (Zlib.stored gray) = .error .emptyIcon ∧
    (∃ k start, (declaring 64 0x21).decode 0 (Zlib.stored gray) =
      .error (.decompressionFailed (.imageOverrun k start 64))) ∧
    (declaring 64 1).decode 0 [] =
      .error (.decompressionFailed (.stream Zlib.Fault.incomplete.message)) := by
  have hgray : Zlib.Completes (Zlib.stored gray) gray := Zlib.completes_stored (by decide)
  have hpacked (size : UInt32) (presence : UInt16) :=
    decodes_packed (r := declaring size presence) rfl 0 (Zlib.stored gray)
  refine ⟨?_, (hpacked 63 1).long gray hgray (by decide), (hpacked 65 1).short gray hgray (by decide),
    (hpacked 64 0x8000).hollow gray hgray (by decide) ?_, ?_, ?_⟩
  · obtain ⟨icon, hicon, -, -, hdata, hhas, -⟩ :=
      (hpacked 64 0x8001).icon gray hgray (by decide) ⟨⟨.small, .mono⟩, by decide⟩ (by decide)
    exact ⟨icon, hicon, hdata, (hhas _).trans (by decide), (hhas _).trans (by decide)⟩
  · have hnone : ∀ k ∈ Kind.all, (0x8000 : UInt16).toNat.testBit k.presenceBit = false := by decide
    exact fun k => hnone k k.mem_all
  · obtain ⟨k, start, -, herror⟩ := (hpacked 64 0x21).overrun gray hgray (by decide) (by decide)
    exact ⟨k, start, herror⟩
  · exact (decodes_packed (r := declaring 64 1) rfl 0 []).failed _ rfl

end Record
end ClassicIcons.Archive
