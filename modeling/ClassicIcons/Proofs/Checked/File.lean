import ClassicIcons.Proofs.Checked.Icon
import ClassicIcons.Proofs.Archive.Icons
import ClassicIcons.Proofs.Archive.LegacyLayout
import ClassicIcons.Proofs.Preservation

/-! Files on a machine.

On the way from an icon to its file, images are cut to the length that their element needs,
and lengths are added in words of 32 bits. None of these steps stops, and they lead to the
family and to the file that there would be with numbers of any size (`Safe`). All that it
takes is that images lie inside the data, so this holds of every icon that can be made, and
of every icon that is found in an archive (`bounds_suffice`). -/
namespace ClassicIcons
open Archive (Icon)

namespace Checked

/-- Writes over the bytes at a place. -/
def put (place : Nat) (field b : Bytes) : Checked Bytes :=
  if place + field.length ≤ b.length then
    .ok (b.take place ++ (field ++ b.drop (place + field.length)))
  else .error .range

theorem put_append {place : Nat} {front field old : Bytes} (hfront : front.length = place)
    (hold : old.length = field.length) (rest : Bytes) :
    put place field (front ++ (old ++ rest)) = .ok (front ++ (field ++ rest)) := by
  subst hfront
  have hlength : front.length + field.length ≤ (front ++ (old ++ rest)).length := by
    rw [List.length_append, List.length_append]
    omega
  rw [put, if_pos hlength, List.take_left, ← List.drop_drop, List.drop_left, ← hold, List.drop_left]

end Checked

namespace Icns

/-! ### Elements -/

/-- The element for an image, which must be long enough. -/
def Element.checked (k : Kind) (image : Bytes) : Checked Element :=
  match ofImage? k image with
  | some e => .ok e
  | none => .error .range

/-- The element that a family has for a kind, if any. -/
def Element.checkedOfIcon (i : Icon) (k : Kind) : Checked (Option Element) := do
  match ← i.checkedImage k with
  | some image => return some (← checked k image)
  | none => return if k.dependents.any i.has then some (placeholder k) else none

def Element.checkedLength (e : Element) : Checked (BitVec 32) :=
  Checked.add (BitVec.ofNat 32 headerLength) (BitVec.ofNat 32 e.data.length)

def Element.checkedBytes (e : Element) : Checked Bytes := do
  let length ← e.checkedLength
  return e.tag.bytes ++ Bytes.ofNat 4 length.toNat ++ e.data

theorem Element.checked_of_image? {i : Icon} {k : Kind} {image : Bytes} (h : i.image? k = some image) :
    ∃ e, ofImage? k image = some e ∧ checked k image = .ok e := by
  obtain ⟨e, he, -⟩ := shows_ofImage? (Icon.length_of_image? h)
  refine ⟨e, he, ?_⟩
  rw [checked, he]

theorem Element.checkedOfIcon_eq {i : Icon} (h : i.data.length < UInt64.size) (k : Kind) :
    checkedOfIcon i k = .ok (ofIcon? i k) := by
  simp only [checkedOfIcon, Icon.checkedImage_eq h, ofIcon?, bind, Except.bind]
  cases himage : i.image? k with
  | none => rfl
  | some image =>
    obtain ⟨e, he, hchecked⟩ := checked_of_image? himage
    simp only [he, hchecked]
    rfl

theorem Element.checkedLength_eq {e : Element} (h : e.totalLength < UInt32.size) :
    e.checkedLength = .ok (BitVec.ofNat 32 e.totalLength) :=
  Checked.add_ofNat (Checked.isWord_of_lt_size32 h)

theorem Element.checkedBytes_eq {e : Element} (h : e.totalLength < UInt32.size) :
    e.checkedBytes = .ok e.bytes := by
  simp only [checkedBytes, checkedLength_eq h, Checked.toNat_of_lt_size32 h, bind, Except.bind]
  rfl

/-! ### Families -/

namespace Family

/-- Adds the element for a kind, if there is to be one. -/
def checkedStep (i : Icon) (f : Family) (k : Kind) : Checked Family := do
  match ← Element.checkedOfIcon i k with
  | some e => return f.push e
  | none => return f

def checkedOfIcon (i : Icon) : Checked Family := Kind.icnsOrder.foldlM (checkedStep i) empty

def checkedAdd (length : BitVec 32) (e : Element) : Checked (BitVec 32) := do
  Checked.add length (← e.checkedLength)

def checkedLength (f : Family) : Checked (BitVec 32) :=
  f.elements.foldlM checkedAdd (BitVec.ofNat 32 headerLength)

def checkedAppend (file : Bytes) (e : Element) : Checked Bytes := return file ++ (← e.checkedBytes)

/-- The file, with the length in its header filled in at the end. -/
def checkedWrite (f : Family) : Checked (Except Error Bytes) := do
  -- The length is asked for at first, to make room.
  let _ ← f.checkedLength
  let file ← f.elements.foldlM checkedAppend (magic.bytes ++ Bytes.ofNat 4 0)
  if file.length < UInt32.size then
    return .ok (← Checked.put 4 (Bytes.ofNat 4 file.length) file)
  else return .error .tooLarge

theorem foldlM_checkedStep {i : Icon} (h : i.data.length < UInt64.size) (kinds : List Kind) (f : Family) :
    kinds.foldlM (checkedStep i) f = .ok ⟨f.elements ++ kinds.filterMap (Element.ofIcon? i)⟩ := by
  induction kinds generalizing f with
  | nil =>
    rw [List.filterMap_nil, List.append_nil]
    rfl
  | cons k kinds ih =>
    rw [List.foldlM_cons, checkedStep, Element.checkedOfIcon_eq h]
    cases he : Element.ofIcon? i k with
    | none =>
      rw [List.filterMap_cons_none he]
      exact ih f
    | some e =>
      rw [List.filterMap_cons_some he, List.append_cons]
      exact ih (f.push e)

theorem checkedOfIcon_eq {i : Icon} (h : i.data.length < UInt64.size) : checkedOfIcon i = .ok (ofIcon i) :=
  foldlM_checkedStep h Kind.icnsOrder empty

/-- From any length on, the lengths of elements are added. -/
theorem foldlM_checkedAdd (es : List Element) (length : Nat) (h : length + lengthOf es < UInt32.size) :
    es.foldlM checkedAdd (BitVec.ofNat 32 length) = .ok (BitVec.ofNat 32 (length + lengthOf es)) := by
  induction es generalizing length with
  | nil => rfl
  | cons e es ih =>
    rw [lengthOf_cons, ← Nat.add_assoc] at h ⊢
    have helement : e.totalLength < UInt32.size := by omega
    have hsum : Checked.add (BitVec.ofNat 32 length) (BitVec.ofNat 32 e.totalLength) =
        .ok (BitVec.ofNat 32 (length + e.totalLength)) :=
      Checked.add_ofNat (Checked.isWord_of_lt_size32 (Nat.lt_of_le_of_lt (Nat.le_add_right ..) h))
    rw [List.foldlM_cons, checkedAdd, Element.checkedLength_eq helement]
    simp only [hsum, bind, Except.bind]
    exact ih _ h

theorem checkedLength_eq {f : Family} (h : f.totalLength < UInt32.size) :
    f.checkedLength = .ok (BitVec.ofNat 32 f.totalLength) :=
  foldlM_checkedAdd f.elements headerLength h

theorem foldlM_checkedAppend (es : List Element) (file : Bytes) (h : lengthOf es < UInt32.size) :
    es.foldlM checkedAppend file = .ok (file ++ es.flatMap Element.bytes) := by
  induction es generalizing file with
  | nil =>
    rw [List.flatMap_nil, List.append_nil]
    rfl
  | cons e es ih =>
    rw [lengthOf_cons] at h
    have helement : e.totalLength < UInt32.size := by omega
    rw [List.foldlM_cons, checkedAppend, Element.checkedBytes_eq helement, List.flatMap_cons,
      ← List.append_assoc]
    exact ih _ (by omega)

/-- A family that is not too long is written without any sum being too great. -/
theorem checkedWrite_eq {f : Family} (h : f.totalLength < UInt32.size) : f.checkedWrite = .ok f.write := by
  have helements : lengthOf f.elements < UInt32.size := by
    rw [totalLength_eq] at h
    omega
  have hfile := foldlM_checkedAppend f.elements (magic.bytes ++ Bytes.ofNat 4 0) helements
  have hlength : (magic.bytes ++ Bytes.ofNat 4 0 ++ f.elements.flatMap Element.bytes).length = f.totalLength := by
    rw [List.length_append, length_flatMap_bytes, totalLength_eq]
    rfl
  have hput : Checked.put 4 (Bytes.ofNat 4 f.totalLength)
      (magic.bytes ++ Bytes.ofNat 4 0 ++ f.elements.flatMap Element.bytes) = .ok f.bytes := by
    rw [bytes, List.append_assoc, List.append_assoc]
    exact Checked.put_append (Tag.length_bytes magic)
      ((Bytes.length_ofNat 4 0).trans (Bytes.length_ofNat 4 _).symm) _
  simp only [checkedWrite, checkedLength_eq h, hfile, hlength, hput, if_pos h, write, bind, Except.bind,
    pure, Except.pure]

theorem totalLength_lt_of_mem {i : Icon} {e : Element} (h : e ∈ (ofIcon i).elements) :
    e.totalLength < UInt32.size := by
  obtain ⟨k, -, hk⟩ := List.mem_filterMap.1 h
  exact Nat.lt_of_le_of_lt (Element.length_of_ofIcon? hk) (by decide)

end Family
end Icns

namespace Archive
open Icns (Element Family)

/-! ### Icons -/

/-- Nothing that is done with the icon stops the program. -/
structure Icon.Safe (i : Icon) : Prop where
  present : ∀ k, i.has k = true → ∃ image, i.image? k = some image ∧
    i.checkedImage k = .ok (some image) ∧ image.length = k.archiveLength
  absent : ∀ k, i.has k = false → i.image? k = none ∧ i.checkedImage k = .ok none
  /-- No image is too short for its element. -/
  element : ∀ k image, i.image? k = some image → ∃ e, Element.checked k image = .ok e
  family : Family.checkedOfIcon i = .ok (Family.ofIcon i)
  lengths : ∀ e ∈ (Family.ofIcon i).elements, ∃ length, e.checkedLength = .ok length ∧
    length.toNat = e.totalLength
  length : ∃ length, (Family.ofIcon i).checkedLength = .ok length ∧
    length.toNat = (Family.ofIcon i).totalLength
  write : (Family.ofIcon i).checkedWrite = .ok (.ok (Family.ofIcon i).bytes)

/-- All that is needed is that places in the data are words. -/
theorem Icon.safe_of_length {i : Icon} (h : i.data.length < UInt64.size) : i.Safe where
  present k hk := by
    rw [has_eq_isSome] at hk
    obtain ⟨image, himage⟩ := Option.isSome_iff_exists.1 hk
    refine ⟨image, himage, ?_, length_of_image? himage⟩
    rw [checkedImage_eq h, himage]
  absent k hk := by
    rw [has_eq_isSome, Option.isSome_eq_false_iff, Option.isNone_iff_eq_none] at hk
    rw [checkedImage_eq h, hk]
    exact ⟨rfl, rfl⟩
  element k image himage := by
    obtain ⟨e, -, he⟩ := Element.checked_of_image? himage
    exact ⟨e, he⟩
  family := Family.checkedOfIcon_eq h
  lengths e he := by
    have hlength := Family.totalLength_lt_of_mem he
    exact ⟨_, Element.checkedLength_eq hlength, Checked.toNat_of_lt_size32 hlength⟩
  length := by
    have hlength := Family.totalLength_ofIcon_lt i
    exact ⟨_, Family.checkedLength_eq hlength, Checked.toNat_of_lt_size32 hlength⟩
  write := by
    have hlength := Family.totalLength_ofIcon_lt i
    rw [Family.checkedWrite_eq hlength, (Family.read_ofIcon i).1]

section
variable [Zlib.Decoder]

/-- Data are as long as a record says. -/
theorem Record.length_data_of_decode {r : Record} {index : Nat} {payload : Bytes} {icon : Icon}
    (h : r.decode index payload = .ok icon) : icon.data.length = r.uncompressedSize.toNat := by
  cases hlayout : r.layout with
  | legacy offsets => exact length_of_decode hlayout h
  | extended presence extra =>
    simp only [decode, hlayout, bind, Except.bind] at h
    split at h
    · cases h
    · rename_i data hdata
      split at h
      · cases h
      · obtain ⟨-, -, rfl, -⟩ := Icon.of_eq_ok_iff.1 h
        exact (inflate_eq_ok_iff.1 hdata).2

theorem Record.safe_of_decode {r : Record} {index : Nat} {payload : Bytes} {icon : Icon}
    (h : r.decode index payload = .ok icon) : icon.Safe := by
  apply Icon.safe_of_length
  rw [length_data_of_decode h]
  exact Nat.lt_trans r.uncompressedSize.toNat_lt (by decide)

end

/-- What the constructor says of offsets that are words. -/
structure Icon.Admits (index : Nat) (name : String) (data : Bytes) (offset : Kind → Option (BitVec 64)) :
    Prop where
  ok_iff : (∃ icon, of index name data (places offset) = .ok icon) ↔
    ∀ k start, offset k = some start → start.toNat + k.archiveLength ≤ data.length
  first : ∀ e, of index name data (places offset) = .error e → ∃ front k back start,
    Kind.all = front ++ k :: back ∧ (∀ j ∈ front, ¬ PastEnd data.length offset j) ∧
      offset k = some start ∧ data.length < start.toNat + k.archiveLength ∧
      e = .decompressionFailed (.imageOverrun k start.toNat data.length)
  /-- It says the same if it adds words, for all data that a machine can hold. -/
  words : data.length < UInt64.size → ofWords index name data offset = of index name data (places offset)
  high : ∀ k start, offset k = some start → UInt64.size ≤ start.toNat + k.archiveLength →
    ∃ e, ofWords index name data offset = .error e
  safe : ∀ icon, of index name data (places offset) = .ok icon → data.length < UInt64.size → icon.Safe

theorem Icon.admits (index : Nat) (name : String) (data : Bytes) (offset : Kind → Option (BitVec 64)) :
    Admits index name data offset where
  ok_iff := by
    rw [of_places_eq_ok_iff]
    simp only [PastEnd, not_exists, not_and, Nat.not_lt]
  first _ h := error_of_places h
  words h := ofWords_eq h
  high k start hstart h := exists_error_of_overrunsWord (overrunsWord_eq_true_iff.2 ⟨start, hstart, .inl h⟩)
  safe icon hicon h := by
    obtain ⟨-, -, rfl, -⟩ := of_eq_ok_iff.1 hicon
    exact safe_of_length h

/-- **The check of the constructor is all that an icon needs.** No step behind it stops the
program, and wherever an icon comes from, it has passed that check. -/
theorem bounds_suffice [Zlib.Decoder] :
    (∀ index name data offset, Icon.Admits index name data offset) ∧
    (∀ (r : Record) index payload icon, r.decode index payload = .ok icon → icon.Safe) ∧
    ∀ file a item icon, parse file = .ok a → item ∈ a.items → item.result = .ok icon → icon.Safe := by
  refine ⟨Icon.admits, fun _ _ _ _ h => Record.safe_of_decode h, ?_⟩
  intro _ a item icon _ hitem hicon
  obtain ⟨i, -, rfl⟩ := exists_found hitem
  obtain ⟨r, payload, hdecode⟩ := exists_decode_of_found hicon
  exact Record.safe_of_decode hdecode

/-- A small palette image that starts at a word. -/
def placedAt (start : BitVec 64) (k : Kind) : Option (BitVec 64) :=
  if k = ⟨.small, .indexed8⟩ then some start else none

theorem fits_placedAt_iff {start : BitVec 64} :
    (∀ k place, placedAt start k = some place → place.toNat + k.archiveLength ≤ 256) ↔ start = 0 := by
  have harchive : Kind.archiveLength ⟨.small, .indexed8⟩ = 256 := rfl
  constructor
  · intro h
    have hle := h ⟨.small, .indexed8⟩ start (if_pos rfl)
    apply BitVec.eq_of_toNat_eq
    show start.toNat = 0
    omega
  · intro h k place hplace
    unfold placedAt at hplace
    split at hplace
    · rename_i hk
      cases hk
      cases hplace
      rw [h]
      decide
    · cases hplace

/-- An archive with one icon. -/
def richArchive : Bytes := build .second [] [] (richEntries.map fun e => e.record .second)

section
attribute [local instance] Zlib.inflater

theorem exists_icon_rich :
    ∃ a item icon, parse richArchive = .ok a ∧ item ∈ a.items ∧ item.result = .ok icon := by
  have hfits : ∀ e ∈ richEntries, e.Fits .second := by
    intro e he
    rw [List.mem_singleton.1 he]
    exact Entry.fits_stored (k := ⟨.huge, .color24⟩) (by decide)
  have hframed : ∀ record ∈ richEntries.map fun e => e.record .second, Framed record := by
    intro record hrecord
    obtain ⟨e, he, rfl⟩ := List.mem_map.1 hrecord
    exact e.framed_record (hfits e he).size_lt
  obtain ⟨a, hparse, hitems⟩ := items_build .second [] [] (by decide) hframed
  have hdecoded := decodeWhole_record (hfits _ (List.mem_singleton_self _)) 0
  rw [richEntries, List.map_singleton, List.mapIdx_singleton, hdecoded] at hitems
  obtain ⟨item, rest, heq, hitem, -⟩ := List.map_eq_cons_iff.1 hitems
  exact ⟨a, item, _, hparse, heq ▸ List.mem_cons_self .., (Prod.mk.inj hitem).2⟩

/-- In data for one such image, it can start nowhere but at their front. -/
theorem bounds_suffice_of_edges :
    (∃ icon, Icon.ofWords 0 "" (List.replicate 256 7) (placedAt 0) = .ok icon ∧ icon.Safe) ∧
    (∃ e, Icon.ofWords 0 "" (List.replicate 256 7) (placedAt 1) = .error e) ∧
    (∃ e, Icon.ofWords 0 "" (List.replicate 256 7) (placedAt (BitVec.allOnes 64)) = .error e) ∧
    (∃ icon, (Record.placing [0x61] 18).decode 0 [0xc1, 0xcc] = .ok icon ∧ icon.Safe) ∧
    ∃ a item icon, parse richArchive = .ok a ∧ item ∈ a.items ∧ item.result = .ok icon ∧ icon.Safe := by
  obtain ⟨hmade, hdecoded, hfound⟩ := bounds_suffice
  have hlength : (List.replicate 256 (7 : UInt8)).length = 256 := List.length_replicate
  have hsize : (List.replicate 256 (7 : UInt8)).length < UInt64.size := by
    rw [hlength]
    decide
  have hadmits (start : BitVec 64) := hmade 0 "" (List.replicate 256 7) (placedAt start)
  have hok (start : BitVec 64) :
      (∃ icon, Icon.ofWords 0 "" (List.replicate 256 7) (placedAt start) = .ok icon) ↔ start = 0 := by
    rw [(hadmits start).words hsize, (hadmits start).ok_iff, hlength, fits_placedAt_iff]
  refine ⟨?_, ?_, ?_, ?_, ?_⟩
  · obtain ⟨icon, hicon⟩ := (hok 0).2 rfl
    have hof := (hadmits 0).words hsize
    rw [hicon] at hof
    exact ⟨icon, hicon, (hadmits 0).safe icon hof.symm hsize⟩
  · cases he : Icon.ofWords 0 "" (List.replicate 256 7) (placedAt 1) with
    | error e => exact ⟨e, rfl⟩
    | ok icon => exact absurd ((hok 1).1 ⟨icon, he⟩) (by decide)
  · exact (hadmits _).high ⟨.small, .indexed8⟩ (BitVec.allOnes 64) (if_pos rfl) (by decide)
  · have hcomplete : RunLength.Complete .packBits (.run 64 0xcc) [0xc1, 0xcc] := .run (c := 0xc1) (by decide)
    have hunpack : RunLength.Flavour.packBits.unpack [0xc1, 0xcc] 64 = .ok (List.replicate 64 0xcc, []) :=
      RunLength.Flavour.unpack_eq_ok_iff.2 ⟨_, _, .cons hcomplete .nil, rfl, rfl, rfl⟩
    obtain ⟨icon, hicon⟩ := (Record.exists_icon_iff (r := Record.placing [0x61] 18) rfl).2
      ⟨⟨_, _, hunpack⟩, Layout.inside_legacyOffset_iff.2 (by decide)⟩
    exact ⟨icon, hicon, hdecoded _ 0 _ icon hicon⟩
  · obtain ⟨a, item, icon, hparse, hitem, hicon⟩ := exists_icon_rich
    exact ⟨a, item, icon, hparse, hitem, hicon, hfound _ a item icon hparse hitem hicon⟩

end

end Archive
end ClassicIcons
