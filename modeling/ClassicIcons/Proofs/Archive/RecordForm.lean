import ClassicIcons.Archive.Record

/-! The bytes of a record's header.

`Record.head` is what a header is made of, field by field, and what is read off a
record is always such a header, from first byte to last (`read_eq_ok_iff`). Only the
byte behind the name, in the second version, can be any. What is left is the payload,
so the payload is known as soon as the record is. -/
namespace ClassicIcons.Archive

/-! ### Rows of numbers -/

/-- Numbers of two bytes, one behind another. -/
def words (numbers : List UInt16) : Bytes := numbers.flatMap fun n => Bytes.ofNat 2 n.toNat

theorem words_cons (n : UInt16) (numbers : List UInt16) :
    words (n :: numbers) = Bytes.ofNat 2 n.toNat ++ words numbers := rfl

theorem words_nil : words [] = [] := rfl

@[simp] theorem length_words (numbers : List UInt16) : (words numbers).length = 2 * numbers.length := by
  induction numbers with
  | nil => rfl
  | cons n numbers ih =>
    rw [words_cons, List.length_append, Bytes.length_ofNat, ih, List.length_cons]
    omega

theorem readReserved_eq_ok_iff {numbers : Vector UInt16 4} {input rest : Bytes} :
    readReserved input = .ok (numbers, rest) ↔ input = words numbers.toList ++ rest := by
  simp only [readReserved, Reader.bind_eq_ok_iff, Reader.u16_eq_ok_iff, Reader.pure_eq_ok_iff]
  constructor
  · rintro ⟨a, _, rfl, b, _, rfl, c, _, rfl, d, _, rfl, rfl, rfl⟩
    show _ = words [a, b, c, d] ++ _
    simp only [words_cons, words_nil, List.append_assoc, List.nil_append]
  · intro h
    obtain ⟨⟨numbers⟩, hlength⟩ := numbers
    match numbers, hlength with
    | [a, b, c, d], _ =>
      change input = words [a, b, c, d] ++ rest at h
      simp only [words_cons, words_nil, List.append_assoc, List.nil_append] at h
      exact ⟨a, _, h, b, _, rfl, c, _, rfl, d, _, rfl, rfl, rfl⟩

theorem readOffsets_eq_ok_iff {numbers : Vector UInt16 6} {input rest : Bytes} :
    readOffsets input = .ok (numbers, rest) ↔ input = words numbers.toList ++ rest := by
  simp only [readOffsets, Reader.bind_eq_ok_iff, Reader.u16_eq_ok_iff, Reader.pure_eq_ok_iff]
  constructor
  · rintro ⟨a, _, rfl, b, _, rfl, c, _, rfl, d, _, rfl, e, _, rfl, f, _, rfl, rfl, rfl⟩
    show _ = words [a, b, c, d, e, f] ++ _
    simp only [words_cons, words_nil, List.append_assoc, List.nil_append]
  · intro h
    obtain ⟨⟨numbers⟩, hlength⟩ := numbers
    match numbers, hlength with
    | [a, b, c, d, e, f], _ =>
      change input = words [a, b, c, d, e, f] ++ rest at h
      simp only [words_cons, words_nil, List.append_assoc, List.nil_append] at h
      exact ⟨a, _, h, b, _, rfl, c, _, rfl, d, _, rfl, e, _, rfl, f, _, rfl, rfl, rfl⟩

/-! ### Headers -/

def Layout.version : Layout → Version
  | legacy _ => .first
  | extended _ _ => .second

namespace Record

/-- The bytes of a name after its length. -/
def nameBytes (name : Bytes) : Bytes := UInt8.ofNat name.length :: name

/-- The header of a record, with the byte behind the name if there is one. -/
def head (r : Record) (terminator : UInt8) : Bytes :=
  Bytes.ofNat 4 r.size.toNat ++ (words r.reserved.toList ++ match r.layout with
    | .legacy offsets =>
      Bytes.ofNat 2 r.uncompressedSize.toNat ++ (words offsets.toList ++ nameBytes r.name)
    | .extended presence extra =>
      Bytes.ofNat 4 r.uncompressedSize.toNat ++
        (words [presence, extra] ++ (nameBytes r.name ++ [terminator])))

/-- A header of the version can say what is in the record. -/
structure Fitting (r : Record) (v : Version) : Prop where
  version : r.layout.version = v
  name : r.name.length < 256
  uncompressedSize : v = .first → r.uncompressedSize.toNat < UInt16.size

/-- **A record is read from its header and whatever follows that**, and from
nothing else. -/
theorem read_eq_ok_iff {v : Version} {r : Record} {b payload : Bytes} :
    read v b = .ok (r, payload) ↔
      r.Fitting v ∧ ∃ terminator, b = r.head terminator ++ payload := by
  obtain ⟨size, reserved, uncompressedSize, name, layout⟩ := r
  cases v with
  | first =>
    simp only [read, Reader.bind_eq_ok_iff, Reader.u32_eq_ok_iff, readReserved_eq_ok_iff,
      Reader.number_eq_ok_iff_ofNat, readOffsets_eq_ok_iff, Reader.counted_eq_ok_iff,
      Reader.pure_eq_ok_iff]
    constructor
    · rintro ⟨_, _, rfl, _, _, rfl, number, _, ⟨hnumber, rfl⟩, offsets, _, rfl, _, _, ⟨hname, rfl⟩, h, rfl⟩
      cases h
      have hsize : (UInt32.ofNat number).toNat = number :=
        UInt32.toNat_ofNat_of_lt' (Nat.lt_trans hnumber (by decide))
      refine ⟨⟨rfl, hname, fun _ => by rw [hsize]; exact hnumber⟩, 0, ?_⟩
      simp only [head, nameBytes, hsize, List.append_assoc, List.cons_append]
    · rintro ⟨⟨hversion, hname, hsize⟩, terminator, rfl⟩
      cases layout with
      | extended presence extra => cases hversion
      | legacy offsets =>
        simp only [head, nameBytes, List.append_assoc, List.cons_append]
        exact ⟨size, _, rfl, reserved, _, rfl, uncompressedSize.toNat, _, ⟨hsize rfl, rfl⟩, offsets, _,
          rfl, name, _, ⟨hname, rfl⟩, by rw [UInt32.ofNat_toNat], rfl⟩
  | second =>
    simp only [read, Reader.bind_eq_ok_iff, Reader.u32_eq_ok_iff, readReserved_eq_ok_iff,
      Reader.u16_eq_ok_iff, Reader.u8_eq_ok_iff, Reader.counted_eq_ok_iff, Reader.pure_eq_ok_iff]
    constructor
    · rintro ⟨_, _, rfl, _, _, rfl, _, _, rfl, presence, _, rfl, extra, _, rfl, _, _, ⟨hname, rfl⟩,
        terminator, _, rfl, h, rfl⟩
      cases h
      refine ⟨⟨rfl, hname, fun h => by cases h⟩, terminator, ?_⟩
      simp only [head, nameBytes, words_cons, words_nil, List.append_assoc, List.cons_append,
        List.nil_append]
    · rintro ⟨⟨hversion, hname, -⟩, terminator, rfl⟩
      cases layout with
      | legacy offsets => cases hversion
      | extended presence extra =>
        simp only [head, nameBytes, words_cons, words_nil, List.append_assoc, List.cons_append,
          List.nil_append]
        exact ⟨size, _, rfl, reserved, _, rfl, uncompressedSize, _, rfl, presence, _, rfl, extra, _, rfl,
          name, _, ⟨hname, rfl⟩, terminator, _, rfl, rfl, rfl⟩

/-- The length of a header but for the name: 27 bytes, or 22. -/
def headLength : Version → Nat
  | .first => 27
  | .second => 22

theorem length_head (r : Record) (terminator : UInt8) :
    (r.head terminator).length = headLength r.layout.version + r.name.length := by
  obtain ⟨size, reserved, uncompressedSize, name, layout⟩ := r
  cases layout with
  | legacy offsets =>
    simp only [head, nameBytes, List.length_append, List.length_cons, Bytes.length_ofNat, length_words,
      Vector.length_toList, headLength, Layout.version]
    omega
  | extended presence extra =>
    simp only [head, nameBytes, List.length_append, List.length_cons, List.length_nil,
      Bytes.length_ofNat, length_words, Vector.length_toList, headLength, Layout.version]
    omega

end Record
end ClassicIcons.Archive
