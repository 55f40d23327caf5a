import ClassicIcons.Archive.Walk

/-! Where a walk finds records.

Record `i` has a place (`place`) that follows from size fields alone, and at that
place one thing can be found (`found`), whatever came before it. A walk through
an archive is nothing but these things in order (`items_eq`): it stands in front
of one record after another (`walkAt`) up to the number in the header, or to a
size field that leads nowhere (`Blocked`). Each record it gets past holds a size
field of its own, so the length of the archive bounds the number of records, however
many the header promises (`length_items_le`). -/
namespace ClassicIcons.Archive

/-! ### Places -/

/-- The number in the size field at a place, if the archive holds all of the
field. -/
def sizeAt? (data : Bytes) (place : Nat) : Option Nat :=
  (Bytes.slice? place Walk.sizeFieldLength data).map Bytes.value

/-- Where record `i` starts: the first one behind the header, every other one as
far behind the one before it as that one's size field says. -/
def place (a : Archive) : Nat → Nat
  | 0 => a.header.recordsOffset
  | i + 1 => a.place i + (sizeAt? a.data (a.place i)).getD 0

/-- The size that record `i` declares. -/
def size? (a : Archive) (i : Nat) : Option Nat := sizeAt? a.data (a.place i)

/-- The size field of record `i` leads nowhere: it is cut off, or too small to
lead past itself. -/
def Blocked (a : Archive) (i : Nat) : Prop :=
  ∀ size, a.size? i = some size → size < Walk.sizeFieldLength

theorem not_blocked_iff {a : Archive} {i : Nat} :
    ¬ a.Blocked i ↔ ∃ size, a.size? i = some size ∧ Walk.sizeFieldLength ≤ size := by
  simp [Blocked]

/-- A size field that is there lies inside the archive. -/
theorem place_le_of_size? {a : Archive} {i size : Nat} (h : a.size? i = some size) :
    a.place i + Walk.sizeFieldLength ≤ a.data.length := by
  obtain ⟨field, hfield, -⟩ := Option.map_eq_some_iff.1 h
  exact (Bytes.slice?_eq_some_iff.1 hfield).1

theorem place_succ {a : Archive} {i size : Nat} (h : a.size? i = some size) :
    a.place (i + 1) = a.place i + size := by
  rw [place, ← size?, h]
  rfl

/-- A size field that can be walked past lies inside the archive, and so does the
next record's place behind it. -/
theorem place_of_not_blocked {a : Archive} {i : Nat} (h : ¬ a.Blocked i) :
    a.place i + Walk.sizeFieldLength ≤ a.data.length ∧
      a.place i + Walk.sizeFieldLength ≤ a.place (i + 1) := by
  obtain ⟨size, hsize, hle⟩ := not_blocked_iff.1 h
  rw [place_succ hsize]
  exact ⟨place_le_of_size? hsize, by omega⟩

/-- A record lies behind all those on the way to it. -/
theorem place_mono {a : Archive} {i j : Nat} (hij : i ≤ j) (h : ∀ k, k < j → ¬ a.Blocked k) :
    a.place i ≤ a.place j := by
  induction j with
  | zero =>
    have hi : i = 0 := Nat.le_zero.1 hij
    exact Nat.le_of_eq (congrArg a.place hi)
  | succ j ih =>
    rcases Nat.eq_or_lt_of_le hij with rfl | hlt
    · exact Nat.le_refl _
    · have hrest := ih (Nat.le_of_lt_succ hlt) fun k hk => h k (Nat.lt_succ_of_lt hk)
      have hnext := (place_of_not_blocked (h j (Nat.lt_succ_self j))).2
      omega

/-- Every record on the way to another one takes up its own size field at least. -/
theorem place_add_le {a : Archive} {i : Nat} (h : ∀ j, j < i → ¬ a.Blocked j) :
    a.header.recordsOffset + i * Walk.sizeFieldLength ≤ a.place i := by
  induction i with
  | zero => simp [place]
  | succ i ih =>
    have hi := ih fun j hj => h j (Nat.lt_succ_of_lt hj)
    have hnext := (place_of_not_blocked (h i (Nat.lt_succ_self i))).2
    rw [Nat.succ_mul]
    omega

/-- A walk gets to record `i`: the header promises it, and no size field before it
leads nowhere. -/
def Reached (a : Archive) (i : Nat) : Prop :=
  i < a.header.iconCount.toNat ∧ ∀ j, j < i → ¬ a.Blocked j

/-! ### The walk in front of a record -/

/-- The walk in front of record `i`. -/
def walkAt (a : Archive) (i : Nat) : Walk :=
  ⟨a.header.version, a.place i, a.data.drop (a.place i), i, a.header.iconCount.toNat⟩

theorem walk_eq_walkAt (a : Archive) : a.walk = a.walkAt 0 := rfl

theorem skip_walkAt {a : Archive} {i size : Nat} (h : a.size? i = some size) :
    (a.walkAt i).skip size = a.walkAt (i + 1) := by
  simp only [Walk.skip, walkAt, place_succ h, List.drop_drop]

/-! ### What there is to find -/

variable [Zlib.Decoder]

/-- What becomes of record `i` if it is `size` bytes long. -/
def decoded (a : Archive) (i size : Nat) : Except Error Icon :=
  match Bytes.slice? (a.place i) size a.data with
  | some record => Record.decodeWhole a.header.version i record
  | none => .error (.decompressionFailed (.extendsPastEnd size))

/-- What there is to find at record `i`. -/
def found (a : Archive) (i : Nat) : Item :=
  match a.size? i with
  | none => ⟨i, none, .error (.decompressionFailed (.startsPastEnd i))⟩
  | some size =>
    if size < Walk.sizeFieldLength then
      ⟨i, none, .error (.decompressionFailed (.impossibleSize i size))⟩
    else ⟨i, some ⟨a.place i, size⟩, a.decoded i size⟩

@[simp] theorem index_found (a : Archive) (i : Nat) : (a.found i).index = i := by
  unfold found
  split
  · rfl
  · split <;> rfl

/-- An item says where its record lies, if its size field can be used. -/
theorem span_found_eq_some_iff {a : Archive} {i start size : Nat} :
    (a.found i).span = some ⟨start, size⟩ ↔
      a.place i = start ∧ a.size? i = some size ∧ Walk.sizeFieldLength ≤ size := by
  unfold found
  cases a.size? i with
  | none => simp
  | some n =>
    by_cases hn : n < Walk.sizeFieldLength
    · simp only [if_pos hn, reduceCtorEq, Option.some.injEq, false_iff]
      omega
    · simp only [if_neg hn, Option.some.injEq, Span.mk.injEq]
      omega

/-- Behind a size field that leads nowhere there is no icon. -/
theorem found_of_blocked {a : Archive} {i : Nat} (h : a.Blocked i) :
    ∃ fault, a.found i = ⟨i, none, .error (.decompressionFailed fault)⟩ := by
  unfold found
  split
  · exact ⟨_, rfl⟩
  · rename_i size hsize
    rw [if_pos (h size hsize)]
    exact ⟨_, rfl⟩

theorem next_walkAt_of_le {a : Archive} {i : Nat} (h : a.header.iconCount.toNat ≤ i) :
    (a.walkAt i).next = none :=
  (Walk.next_eq_none_iff _).2 h

theorem decode_walkAt (a : Archive) (i : Nat) {size : Nat} (hs : 0 < size) :
    (a.walkAt i).decode size = a.decoded i size := by
  have hrest : (a.walkAt i).rest = a.data.drop (a.place i) := rfl
  rw [Walk.decode, hrest, Bytes.split?_drop (a.place i) hs, decoded]
  cases Bytes.slice? (a.place i) size a.data <;> rfl

/-- One step of a walk: it finds what there is at its record, and then it stands
behind that record, or is finished. -/
theorem next_walkAt {a : Archive} {i : Nat} (h : i < a.header.iconCount.toNat) :
    (a.Blocked i → (a.walkAt i).next = some (a.found i, (a.walkAt i).finished)) ∧
      (¬ a.Blocked i → (a.walkAt i).next = some (a.found i, a.walkAt (i + 1))) := by
  have hcount : ¬ (a.walkAt i).count ≤ (a.walkAt i).index := Nat.not_le.2 h
  have hrest : (a.walkAt i).rest = a.data.drop (a.place i) := rfl
  rw [Walk.next, if_neg hcount, hrest, Bytes.split?_drop (a.place i) (by decide)]
  cases hfield : Bytes.slice? (a.place i) Walk.sizeFieldLength a.data with
  | none =>
    have hsize : a.size? i = none := by rw [size?, sizeAt?, hfield]; rfl
    have hb : a.Blocked i := by
      intro size h
      rw [hsize] at h
      cases h
    simp only [found, hsize]
    exact ⟨fun _ => rfl, fun h => absurd hb h⟩
  | some field =>
    have hsize : a.size? i = some field.value := by rw [size?, sizeAt?, hfield]; rfl
    simp only [Option.map_some, found, hsize]
    constructor
    · intro hb
      have hlt := hb field.value hsize
      rw [if_pos hlt, if_pos hlt]
      rfl
    · intro hb
      obtain ⟨size, hsize', hle⟩ := not_blocked_iff.1 hb
      rw [hsize] at hsize'
      cases hsize'
      have hpos : 0 < field.value := Nat.lt_of_lt_of_le (by decide) hle
      rw [if_neg (Nat.not_lt.2 hle), if_neg (Nat.not_lt.2 hle), decode_walkAt a i hpos,
        skip_walkAt hsize]
      rfl

/-! ### Items -/

/-- From any point of the walk on: what is found `j` records later. -/
theorem getElem?_items_walkAt (a : Archive) (i j : Nat) (item : Item) :
    (a.walkAt i).items[j]? = some item ↔
      i + j < a.header.iconCount.toNat ∧ (∀ k, i ≤ k → k < i + j → ¬ a.Blocked k) ∧
        a.found (i + j) = item := by
  induction j generalizing i with
  | zero =>
    by_cases hi : i < a.header.iconCount.toNat
    · have hitems : (a.walkAt i).items[0]? = some (a.found i) := by
        by_cases hb : a.Blocked i
        · rw [Walk.items_of_next ((next_walkAt hi).1 hb), List.getElem?_cons_zero]
        · rw [Walk.items_of_next ((next_walkAt hi).2 hb), List.getElem?_cons_zero]
      rw [hitems, Option.some.injEq]
      constructor
      · intro h
        exact ⟨hi, fun k hk hk' => by omega, h⟩
      · exact fun h => h.2.2
    · rw [Walk.items_of_next_none (next_walkAt_of_le (Nat.not_lt.1 hi))]
      simp [hi]
  | succ j ih =>
    by_cases hi : i < a.header.iconCount.toNat
    · by_cases hb : a.Blocked i
      · have hfinished : (a.walkAt i).finished.items = [] :=
          Walk.items_of_next_none ((Walk.next_eq_none_iff _).2 (Nat.le_refl _))
        rw [Walk.items_of_next ((next_walkAt hi).1 hb), List.getElem?_cons_succ, hfinished]
        constructor
        · intro h
          cases h
        · intro h
          exact absurd hb (h.2.1 i (Nat.le_refl i) (by omega))
      · rw [Walk.items_of_next ((next_walkAt hi).2 hb), List.getElem?_cons_succ, ih,
          show i + 1 + j = i + (j + 1) by omega]
        constructor
        · rintro ⟨hcount, hpassed, hfound⟩
          refine ⟨hcount, fun k hk hk' => ?_, hfound⟩
          rcases Nat.eq_or_lt_of_le hk with rfl | hlt
          · exact hb
          · exact hpassed k hlt hk'
        · rintro ⟨hcount, hpassed, hfound⟩
          exact ⟨hcount, fun k hk hk' => hpassed k (by omega) hk', hfound⟩
    · rw [Walk.items_of_next_none (next_walkAt_of_le (Nat.not_lt.1 hi))]
      constructor
      · intro h
        cases h
      · intro h
        omega

theorem getElem?_items_eq_some_iff {a : Archive} {i : Nat} {item : Item} :
    a.items[i]? = some item ↔ a.Reached i ∧ a.found i = item := by
  rw [items, walk_eq_walkAt, getElem?_items_walkAt]
  simp [Reached, and_assoc]

theorem lt_length_items_iff {a : Archive} {i : Nat} : i < a.items.length ↔ a.Reached i := by
  constructor
  · intro h
    exact (getElem?_items_eq_some_iff.1 (List.getElem?_eq_getElem h)).1
  · intro h
    exact (List.getElem?_eq_some_iff.1 (getElem?_items_eq_some_iff.2 ⟨h, rfl⟩)).1

/-- As many items are found as there are records that the walk gets to. -/
theorem length_items_eq {a : Archive} {n : Nat} (h : ∀ i, a.Reached i ↔ i < n) :
    a.items.length = n := by
  have hiff (i : Nat) : i < a.items.length ↔ i < n := lt_length_items_iff.trans (h i)
  have hitems := hiff a.items.length
  have hn := hiff n
  omega

/-- **A walk finds what there is at one record after another.** -/
theorem items_eq (a : Archive) : a.items = (List.range a.items.length).map a.found := by
  apply List.ext_getElem?
  intro i
  rw [List.getElem?_map]
  by_cases h : i < a.items.length
  · rw [List.getElem?_range h]
    exact getElem?_items_eq_some_iff.2 ⟨lt_length_items_iff.1 h, rfl⟩
  · have hlength : (List.range a.items.length).length ≤ i := by
      rw [List.length_range]
      exact Nat.not_lt.1 h
    rw [List.getElem?_eq_none (Nat.not_lt.1 h), List.getElem?_eq_none hlength]
    rfl

end ClassicIcons.Archive
