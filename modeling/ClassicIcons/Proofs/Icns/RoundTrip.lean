import ClassicIcons.Icns.Family

/-! What is written as a family is read as that family.

An element says how long it is, so it is read from its own bytes whatever follows
them (`read_element_bytes`). A file says how long it is in all, and that is where
its elements end: none of them is left behind, and nothing after the last one is
looked at (`read_bytes`). -/
namespace ClassicIcons.Icns

@[simp] theorem Element.length_bytes (e : Element) : e.bytes.length = e.totalLength := by
  simp only [bytes, List.length_append, Tag.length_bytes, Bytes.length_ofNat, totalLength, headerLength]

/-- A number that fits in the four bytes it is written with. -/
theorem number_ofNat {n : Nat} (h : n < UInt32.size) (rest : Bytes) :
    (Reader.number 4 : Reader Error Nat) (Bytes.ofNat 4 n ++ rest) = .ok (n, rest) :=
  Reader.number_eq_ok_iff_ofNat.2 ⟨h, rfl⟩

theorem read_element_bytes {e : Element} (h : e.totalLength < UInt32.size) (rest : Bytes) :
    Element.read (e.bytes ++ rest) = .ok (e, rest) := by
  have hvalue : (Bytes.ofNat 4 e.totalLength).value = 8 + e.data.length := by
    rw [Bytes.value_ofNat]
    exact Nat.mod_eq_of_lt h
  refine Element.read_eq_ok_iff.2 ⟨Bytes.ofNat 4 e.totalLength, Bytes.length_ofNat 4 _, hvalue, ?_⟩
  simp only [Element.bytes, List.append_assoc]

namespace Family

/-- The length of elements in a file. -/
def lengthOf (es : List Element) : Nat := es.foldr (fun e length => e.totalLength + length) 0

@[simp] theorem lengthOf_cons (e : Element) (es : List Element) :
    lengthOf (e :: es) = e.totalLength + lengthOf es := rfl

theorem totalLength_eq (f : Family) : f.totalLength = headerLength + lengthOf f.elements := rfl

theorem readElements_of_le {length position : Nat} (h : length ≤ position) (b : Bytes) :
    readElements length position b = .ok ([], b) := by
  rw [readElements, if_neg (Nat.not_lt.2 h)]

/-- One element more, while the length is not reached. -/
theorem readElements_of_read {length position : Nat} {b rest : Bytes} {e : Element}
    (hp : position < length) (h : Element.read b = .ok (e, rest)) :
    readElements length position b =
      (readElements length (position + e.totalLength) rest).map fun (es, rest) => (e :: es, rest) := by
  rw [readElements, if_pos hp]
  split
  · rename_i he
    rw [h] at he
    cases he
  · rename_i he
    rw [h] at he
    cases he
    cases readElements length (position + e.totalLength) rest <;> rfl

/-- From any point of the file on: the elements up to its stated length, and then
no more. -/
theorem readElements_bytes (es : List Element) (position : Nat) (rest : Bytes)
    (h : position + lengthOf es < UInt32.size) :
    readElements (position + lengthOf es) position (es.flatMap Element.bytes ++ rest) =
      .ok (es, rest) := by
  induction es generalizing position with
  | nil => exact readElements_of_le (Nat.le_refl _) rest
  | cons e es ih =>
    rw [lengthOf_cons] at h
    have hpos : 0 < e.totalLength := Nat.lt_of_lt_of_le (by decide) (Nat.le_add_right Element.headerLength _)
    have hread := read_element_bytes (e := e) (by omega) (es.flatMap Element.bytes ++ rest)
    rw [List.flatMap_cons, List.append_assoc, lengthOf_cons, ← Nat.add_assoc,
      readElements_of_read (by omega) hread, ih _ (by omega)]
    rfl

/-- **A family is read from its own bytes**, and what follows them is left. -/
theorem read_bytes {f : Family} (h : f.totalLength < UInt32.size) (rest : Bytes) :
    read (f.bytes ++ rest) = .ok (f, rest) := by
  have helements := readElements_bytes f.elements headerLength rest h
  simp only [read, Reader.bind_eq_ok_iff, Tag.read_eq_ok_iff, Reader.require_eq_ok_iff,
    Reader.pure_eq_ok_iff]
  refine ⟨magic, Bytes.ofNat 4 f.totalLength ++ (f.elements.flatMap Element.bytes ++ rest), ?_, (), _,
    ⟨rfl, rfl⟩, f.totalLength, _, number_ofNat h _, f.elements, rest, helements, rfl, rfl⟩
  simp only [bytes, List.append_assoc]

theorem length_flatMap_bytes (es : List Element) : (es.flatMap Element.bytes).length = lengthOf es := by
  induction es with
  | nil => rfl
  | cons e es ih => rw [List.flatMap_cons, List.length_append, ih, Element.length_bytes, lengthOf_cons]

@[simp] theorem length_bytes (f : Family) : f.bytes.length = f.totalLength := by
  rw [bytes, List.length_append, List.length_append, Tag.length_bytes, Bytes.length_ofNat,
    length_flatMap_bytes]
  rfl

/-- **A family that is written comes back**, whatever its elements are. If a header can
state their length, the file has that length and states it, and reading takes the
whole file, and no more, and finds the family in it. -/
theorem read_back (f : Family)
    (h : 8 + f.elements.foldr (fun e length => 8 + e.data.length + length) 0 < UInt32.size)
    (rest : Bytes) :
    ∃ file, f.write = .ok file ∧ file.length = f.totalLength ∧
      file.slice? 4 4 = some (Bytes.ofNat 4 f.totalLength) ∧
      read (file ++ rest) = .ok (f, rest) ∧ rest = (file ++ rest).drop f.totalLength := by
  have hlength : f.totalLength < UInt32.size := h
  have hfield : f.bytes.slice? 4 4 = some (Bytes.ofNat 4 f.totalLength) := by
    rw [bytes, List.append_assoc]
    exact Bytes.slice?_append (Tag.length_bytes magic) (Bytes.length_ofNat 4 _) _
  refine ⟨f.bytes, if_pos hlength, length_bytes f, hfield, read_bytes hlength rest, ?_⟩
  rw [← length_bytes f, List.drop_left]

/-- Two elements with an unknown tag, the second of them without data. -/
theorem read_back_of_unknown :
    let tag : Tag := .ofChars 'q' 'u' 'u' 'x'
    let f : Family := ⟨[⟨tag, [1, 2]⟩, ⟨tag, []⟩]⟩
    8 + f.elements.foldr (fun e length => 8 + e.data.length + length) 0 < UInt32.size ∧
      ∃ file, f.write = .ok file ∧ file.length = f.totalLength ∧
        file.slice? 4 4 = some (Bytes.ofNat 4 f.totalLength) ∧
        read (file ++ [9]) = .ok (f, [9]) ∧ [9] = (file ++ [9]).drop f.totalLength := by
  intro tag f
  have h : 8 + f.elements.foldr (fun e length => 8 + e.data.length + length) 0 < UInt32.size := by decide
  exact ⟨h, read_back f h [9]⟩

end Family
end ClassicIcons.Icns
