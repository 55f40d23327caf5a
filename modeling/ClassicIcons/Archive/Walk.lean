import ClassicIcons.Archive.Record

/-! Walking through the records of an archive.

The size fields alone say where records start: whatever is wrong with one record,
the walk goes on behind it. It ends early only at a size field that is missing, or
too small to lead past itself. -/
namespace ClassicIcons

/-- An archive whose header could be read. -/
structure Archive where
  data : Bytes
  header : Archive.Header

namespace Archive

def parse (data : Bytes) : Except Error Archive :=
  match Header.read data with
  | .ok (header, _) => .ok ⟨data, header⟩
  | .error e => .error e

theorem data_of_parse {data : Bytes} {a : Archive} (h : parse data = .ok a) : a.data = data := by
  unfold parse at h
  split at h
  · cases h
    rfl
  · cases h

/-- Where a record lies. -/
structure Span where
  start : Nat
  size : Nat
  deriving DecidableEq, Repr

/-- What the walk finds at one place. -/
structure Item where
  index : Nat
  /-- Where the record lies, if its size field can be used. -/
  span : Option Span
  result : Except Error Icon

/-- A walk in progress: in front of record `index` of `count`. -/
structure Walk where
  version : Version
  /-- Where the record starts. -/
  position : Nat
  /-- What the archive holds from there on. -/
  rest : Bytes
  index : Nat
  count : Nat

/-- The walk in front of the first record. -/
def walk (a : Archive) : Walk :=
  let start := a.header.recordsOffset
  ⟨a.header.version, start, a.data.drop start, 0, a.header.iconCount.toNat⟩

namespace Walk

def sizeFieldLength : Nat := 4

/-- No more records than this are to come. -/
def left (w : Walk) : Nat := w.count - w.index

/-- The least number of records to come, and the greatest. -/
def sizeHint (w : Walk) : Nat × Option Nat := (0, some w.left)

/-- The walk behind a record of `size` bytes. -/
def skip (w : Walk) (size : Nat) : Walk :=
  { w with position := w.position + size, rest := w.rest.drop size, index := w.index + 1 }

/-- The walk behind its last record. -/
def finished (w : Walk) : Walk := { w with index := w.count }

/-- Ends the walk with a record that cannot be walked past. -/
def last (w : Walk) (fault : RecordFault) : Item × Walk :=
  (⟨w.index, none, .error (.decompressionFailed fault)⟩, w.finished)

variable [Zlib.Decoder]

/-- Decodes the record of `size` bytes in front of the walk. -/
def decode (w : Walk) (size : Nat) : Except Error Icon :=
  match w.rest.split? size with
  | some (record, _) => Record.decodeWhole w.version w.index record
  | none => .error (.decompressionFailed (.extendsPastEnd size))

/-- The next record, and the walk behind it. -/
def next (w : Walk) : Option (Item × Walk) :=
  if w.count ≤ w.index then none
  else match w.rest.split? sizeFieldLength with
    | none => some (w.last (.startsPastEnd w.index))
    | some (field, _) =>
      let size := field.value
      if size < sizeFieldLength then some (w.last (.impossibleSize w.index size))
      else some (⟨w.index, some ⟨w.position, size⟩, w.decode size⟩, w.skip size)

theorem left_of_next {w w' : Walk} {item : Item} (h : w.next = some (item, w')) :
    w'.left < w.left := by
  simp only [next] at h
  split at h
  · cases h
  · rename_i hi
    have : 0 < w.left := by simp only [left]; omega
    split at h
    · cases h
      simp only [finished, left] at *
      omega
    · split at h
      · cases h
        simp only [finished, left] at *
        omega
      · cases h
        simp only [skip, left] at *
        omega

/-- Asks for the next record. Behind the last one the walk stays where it is. -/
def call (w : Walk) : Option Item × Walk :=
  match w.next with
  | some (item, w') => (some item, w')
  | none => (none, w)

/-- What `n` calls find, one after another, and the walk behind them. -/
def calls : (n : Nat) → Walk → List (Option Item) × Walk
  | 0, w => ([], w)
  | n + 1, w =>
    let (found, w') := w.call
    let (more, w'') := calls n w'
    (found :: more, w'')

/-- Every record still to come. -/
def items (w : Walk) : List Item :=
  match h : w.next with
  | none => []
  | some (item, w') =>
    have := left_of_next h
    item :: w'.items
termination_by w.left

theorem next_eq_none_iff (w : Walk) : w.next = none ↔ w.count ≤ w.index := by
  unfold next
  split
  · simp [*]
  · rename_i h
    simp only [h, iff_false]
    split
    · simp
    · split <;> simp

theorem left_eq_zero_iff (w : Walk) : w.left = 0 ↔ w.next = none := by
  rw [next_eq_none_iff, left]
  omega

theorem items_of_next_none {w : Walk} (h : w.next = none) : w.items = [] := by
  rw [items]
  split
  · rfl
  · rename_i h'
    rw [h] at h'
    cases h'

theorem items_of_next {w w' : Walk} {item : Item} (h : w.next = some (item, w')) :
    w.items = item :: w'.items := by
  rw [items]
  split
  · rename_i h'
    rw [h] at h'
    cases h'
  · rename_i h'
    rw [h] at h'
    cases h'
    rfl

theorem call_of_next_none {w : Walk} (h : w.next = none) : w.call = (none, w) := by
  rw [call, h]

theorem call_of_next {w w' : Walk} {item : Item} (h : w.next = some (item, w')) :
    w.call = (some item, w') := by
  rw [call, h]

/-- The hint is no less than the number of records to come. -/
theorem length_items_le_left (w : Walk) : w.items.length ≤ w.left := by
  fun_induction items w with
  | case1 w h => exact Nat.zero_le _
  | case2 w item w' h hleft ih =>
    rw [List.length_cons]
    omega

end Walk

/-- What the walk finds, in order. -/
def items [Zlib.Decoder] (a : Archive) : List Item := a.walk.items

end Archive
end ClassicIcons
