import ClassicIcons.Proofs.Archive.Places

/-! Archives that hold their records.

Where records stand one behind another after the header, as many as the header
promises and each of them with its own length in front, a walk finds just these
records, and decodes each of them as if it were alone (`getElem?_items_of_holds`). -/
namespace ClassicIcons.Archive

/-- A record that starts with its own length. -/
structure Framed (record : Bytes) : Prop where
  field : ∃ rest, record = Bytes.ofNat Walk.sizeFieldLength record.length ++ rest
  length_lt : record.length < UInt32.size

theorem Framed.le_length {record : Bytes} (h : Framed record) :
    Walk.sizeFieldLength ≤ record.length := by
  obtain ⟨rest, hrest⟩ := h.field
  have hlength := congrArg List.length hrest
  rw [List.length_append, Bytes.length_ofNat] at hlength
  omega

/-- The archive holds these records, and only these. -/
structure Holds (a : Archive) (records : List Bytes) : Prop where
  data : ∃ front, front.length = a.header.recordsOffset ∧ a.data = front ++ records.flatten
  count : a.header.iconCount.toNat = records.length
  framed : ∀ record ∈ records, Framed record

theorem flatten_eq_of_getElem? {records : List Bytes} {i : Nat} {record : Bytes}
    (h : records[i]? = some record) :
    records.flatten = (records.take i).flatten ++ (record ++ (records.drop (i + 1)).flatten) := by
  obtain ⟨hi, hrecord⟩ := List.getElem?_eq_some_iff.1 h
  have hdrop := List.drop_eq_getElem_cons hi
  rw [hrecord] at hdrop
  rw [← List.flatten_cons, ← hdrop, ← List.flatten_append, List.take_append_drop]

variable {a : Archive} {records : List Bytes}

/-- Around each record there is what comes before it and what comes after it. -/
theorem Holds.around (h : Holds a records) {i : Nat} {record : Bytes}
    (hi : records[i]? = some record) :
    ∃ front rest, front.length = a.header.recordsOffset + (records.take i).flatten.length ∧
      a.data = front ++ (record ++ rest) := by
  obtain ⟨front, hfront, hdata⟩ := h.data
  refine ⟨front ++ (records.take i).flatten, (records.drop (i + 1)).flatten, ?_, ?_⟩
  · rw [List.length_append, hfront]
  · rw [hdata, flatten_eq_of_getElem? hi, List.append_assoc]

/-- A size field is read where its record starts. -/
theorem Holds.sizeAt?_eq (h : Holds a records) {i : Nat} {record : Bytes}
    (hi : records[i]? = some record) :
    sizeAt? a.data (a.header.recordsOffset + (records.take i).flatten.length) = some record.length := by
  obtain ⟨front, rest, hfront, hdata⟩ := h.around hi
  have hframed := h.framed record (List.mem_of_getElem? hi)
  obtain ⟨tail, htail⟩ := hframed.field
  have hvalue : (Bytes.ofNat Walk.sizeFieldLength record.length).value = record.length := by
    rw [Bytes.value_ofNat]
    exact Nat.mod_eq_of_lt hframed.length_lt
  rw [htail, List.append_assoc] at hdata
  rw [sizeAt?, hdata, Bytes.slice?_append hfront (Bytes.length_ofNat _ _), Option.map_some, hvalue]

/-- Records start where those before them end. -/
theorem Holds.place_eq (h : Holds a records) {i : Nat} (hi : i ≤ records.length) :
    a.place i = a.header.recordsOffset + (records.take i).flatten.length := by
  induction i with
  | zero => rfl
  | succ i ih =>
    have hrecord := List.getElem?_eq_getElem (Nat.lt_of_succ_le hi)
    have hsize := h.sizeAt?_eq hrecord
    have hplace := ih (Nat.le_of_succ_le hi)
    have htake : records.take (i + 1) = records.take i ++ [records[i]] :=
      (List.take_append_getElem (Nat.lt_of_succ_le hi)).symm
    rw [← hplace] at hsize
    rw [place_succ hsize, hplace, htake, List.flatten_append, List.length_append, List.flatten_singleton,
      Nat.add_assoc]

theorem Holds.size?_eq (h : Holds a records) {i : Nat} {record : Bytes}
    (hi : records[i]? = some record) : a.size? i = some record.length := by
  have hlt := (List.getElem?_eq_some_iff.1 hi).1
  rw [size?, h.place_eq (Nat.le_of_lt hlt)]
  exact h.sizeAt?_eq hi

theorem Holds.not_blocked (h : Holds a records) {i : Nat} (hi : i < records.length) : ¬ a.Blocked i := by
  have hrecord := List.getElem?_eq_getElem hi
  have hframed := h.framed _ (List.mem_of_getElem? hrecord)
  exact not_blocked_iff.2 ⟨_, h.size?_eq hrecord, hframed.le_length⟩

/-- A walk gets to every record, and to nothing else. -/
theorem Holds.reached_iff (h : Holds a records) {i : Nat} : a.Reached i ↔ i < records.length := by
  rw [← h.count]
  constructor
  · exact fun hi => hi.1
  · intro hi
    refine ⟨hi, fun j hj => h.not_blocked ?_⟩
    rw [← h.count]
    exact Nat.lt_trans hj hi

variable [Zlib.Decoder]

theorem Holds.found_eq (h : Holds a records) {i : Nat} {record : Bytes}
    (hi : records[i]? = some record) :
    a.found i = ⟨i, some ⟨a.place i, record.length⟩, Record.decodeWhole a.header.version i record⟩ := by
  have hlt := (List.getElem?_eq_some_iff.1 hi).1
  have hframed := h.framed record (List.mem_of_getElem? hi)
  obtain ⟨front, rest, hfront, hdata⟩ := h.around hi
  have hslice : Bytes.slice? (a.place i) record.length a.data = some record := by
    rw [hdata, h.place_eq (Nat.le_of_lt hlt)]
    exact Bytes.slice?_append hfront rfl rest
  simp only [found, h.size?_eq hi, if_neg (Nat.not_lt.2 hframed.le_length), decoded, hslice]

theorem Holds.length_items (h : Holds a records) : a.items.length = records.length :=
  length_items_eq fun _ => h.reached_iff

/-- **A walk finds the records that an archive holds**, each of them where it is. -/
theorem getElem?_items_of_holds (h : Holds a records) {i : Nat} {record : Bytes}
    (hi : records[i]? = some record) :
    a.items[i]? = some ⟨i, some ⟨a.header.recordsOffset + (records.take i).flatten.length, record.length⟩,
      Record.decodeWhole a.header.version i record⟩ := by
  have hlt := (List.getElem?_eq_some_iff.1 hi).1
  have hfound := h.found_eq hi
  rw [h.place_eq (Nat.le_of_lt hlt)] at hfound
  exact getElem?_items_eq_some_iff.2 ⟨h.reached_iff.2 hlt, hfound⟩

end ClassicIcons.Archive
