import ClassicIcons.Proofs.Archive.RecordForm

/-! How far a record's header reaches.

Where the header of a record ends is in the bytes themselves: the length of the name is
the only thing in it that matters (`spans_read`). If the record has that many bytes, its
header can be read, whatever they are, and otherwise it is truncated. Nothing of a record
is lost then, but for the byte behind the name in the second version: header and payload
are the record (`header_read`). -/
namespace ClassicIcons

namespace Reader
variable {ε α β : Type} [Truncated ε]

/-- The reader takes just as many bytes as this; if there are less, it is truncated. -/
def Spans (extent : Bytes → Nat) (m : Reader ε α) : Prop :=
  ∀ b, (extent b ≤ b.length ∧ ∃ x, m b = .ok (x, b.drop (extent b))) ∨
    (b.length < extent b ∧ m b = .error Truncated.truncated)

namespace Spans

theorem ok_iff {extent : Bytes → Nat} {m : Reader ε α} (h : Spans extent m) {b : Bytes} :
    (∃ x rest, m b = .ok (x, rest)) ↔ extent b ≤ b.length := by
  obtain ⟨hle, x, hx⟩ | ⟨hlt, herror⟩ := h b
  · exact iff_of_true ⟨x, _, hx⟩ hle
  · refine iff_of_false ?_ (Nat.not_le.2 hlt)
    intro hok
    obtain ⟨x, rest, hx⟩ := hok
    rw [herror] at hx
    cases hx

theorem eq_truncated {extent : Bytes → Nat} {m : Reader ε α} (h : Spans extent m) {b : Bytes} {e : ε}
    (he : m b = .error e) : e = Truncated.truncated := by
  obtain ⟨-, x, hx⟩ | ⟨-, herror⟩ := h b
  · rw [hx] at he
    cases he
  · rw [herror] at he
    cases he
    rfl

theorem of_eq {extent extent' : Bytes → Nat} {m : Reader ε α} (hm : Spans extent m)
    (h : ∀ b, extent b = extent' b) : Spans extent' m := by
  obtain rfl : extent = extent' := funext h
  exact hm

theorem pure (x : α) : Spans (fun _ => 0) (pure x : Reader ε α) :=
  fun _ => .inl ⟨Nat.zero_le _, x, rfl⟩

/-- How far a second reader gets does not depend on what the first one finds, only on what
it leaves. -/
theorem bind {extent extent' : Bytes → Nat} {m : Reader ε α} {f : α → Reader ε β} (hm : Spans extent m)
    (hf : ∀ x, Spans extent' (f x)) : Spans (fun b => extent b + extent' (b.drop (extent b))) (m >>= f) := by
  intro b
  obtain ⟨hle, x, hx⟩ | ⟨hlt, herror⟩ := hm b
  · have hlength : (b.drop (extent b)).length = b.length - extent b := List.length_drop
    obtain ⟨hle', y, hy⟩ | ⟨hlt', herror'⟩ := hf x (b.drop (extent b))
    · rw [List.drop_drop] at hy
      refine .inl ⟨?_, y, bind_eq_ok_iff.2 ⟨x, _, hx, hy⟩⟩
      show extent b + extent' _ ≤ b.length
      omega
    · refine .inr ⟨?_, bind_eq_error_iff.2 (.inr ⟨x, _, hx, herror'⟩)⟩
      show b.length < extent b + extent' _
      omega
  · exact .inr ⟨Nat.lt_of_lt_of_le hlt (Nat.le_add_right _ _), bind_eq_error_iff.2 (.inl herror)⟩

theorem bytes (n : Nat) : Spans (fun _ => n) (Reader.bytes n : Reader ε Bytes) := by
  intro b
  by_cases h : n ≤ b.length
  · refine .inl ⟨h, b.take n, bytes_eq_ok_iff.2 ⟨(List.take_append_drop n b).symm, ?_⟩⟩
    exact List.length_take_of_le h
  · exact .inr ⟨Nat.not_le.1 h, bytes_eq_error_iff.2 ⟨Nat.not_le.1 h, rfl⟩⟩

theorem number (n : Nat) : Spans (fun _ => n) (Reader.number n : Reader ε Nat) :=
  (bytes n).bind fun _ => pure _

/-- A number that is read as a word of some width. -/
theorem word (n : Nat) (f : Nat → α) : Spans (fun _ => n) (do return f (← Reader.number n) : Reader ε α) :=
  (number n).bind fun _ => pure _

/-- The first byte says how many there are to follow. -/
theorem counted : Spans (fun b => 1 + (b[0]?.getD 0).toNat) (Reader.counted : Reader ε Bytes) := by
  intro b
  cases b with
  | nil => exact .inr ⟨by decide, bind_eq_error_iff.2 (.inl (u8_eq_error_iff.2 ⟨rfl, rfl⟩))⟩
  | cons length rest =>
    have hfirst : (Reader.u8 : Reader ε UInt8) (length :: rest) = .ok (length, rest) := u8_eq_ok_iff.2 rfl
    have hextent : 1 + ((length :: rest)[0]?.getD 0).toNat = length.toNat + 1 := Nat.add_comm ..
    simp only [hextent, List.length_cons, List.drop_succ_cons]
    obtain ⟨hle, x, hx⟩ | ⟨hlt, herror⟩ := bytes (ε := ε) length.toNat rest
    · exact .inl ⟨Nat.succ_le_succ hle, x, bind_eq_ok_iff.2 ⟨length, rest, hfirst, hx⟩⟩
    · exact .inr ⟨Nat.succ_lt_succ hlt, bind_eq_error_iff.2 (.inr ⟨length, rest, hfirst, herror⟩)⟩

end Spans
end Reader

namespace Archive
open Reader (Spans)

/-! ### Where a header ends -/

/-- Where the length of the name stands: the last byte of a header without name, or the
last but one. -/
def Version.namePlace : Version → Nat
  | first => 26
  | second => 20

namespace Record

/-- The length that a header has by the length of its name. -/
def extent (v : Version) (b : Bytes) : Nat := headLength v + (b[v.namePlace]?.getD 0).toNat

theorem spans_readReserved : Spans (fun _ => 8) readReserved :=
  (Spans.word 2 _).bind fun _ => (Spans.word 2 _).bind fun _ => (Spans.word 2 _).bind fun _ =>
    (Spans.word 2 _).bind fun _ => .pure _

theorem spans_readOffsets : Spans (fun _ => 12) readOffsets :=
  (Spans.word 2 _).bind fun _ => (Spans.word 2 _).bind fun _ => (Spans.word 2 _).bind fun _ =>
    (Spans.word 2 _).bind fun _ => (Spans.word 2 _).bind fun _ => (Spans.word 2 _).bind fun _ => .pure _

/-- **A header reaches as far as its name says.** -/
theorem spans_read (v : Version) : Spans (extent v) (read v) := by
  cases v with
  | first =>
    have hread : Spans _ (read .first) :=
      (Spans.word 4 _).bind fun _ => spans_readReserved.bind fun _ => (Spans.number 2).bind fun _ =>
        spans_readOffsets.bind fun _ => Spans.counted.bind fun _ => .pure _
    refine hread.of_eq fun b => ?_
    simp only [extent, headLength, Version.namePlace, List.drop_drop, List.getElem?_drop, Nat.reduceAdd]
    omega
  | second =>
    have hread : Spans _ (read .second) :=
      (Spans.word 4 _).bind fun _ => spans_readReserved.bind fun _ => (Spans.word 4 _).bind fun _ =>
        (Spans.word 2 _).bind fun _ => (Spans.word 2 _).bind fun _ => Spans.counted.bind fun _ =>
          (Spans.word 1 _).bind fun _ => .pure _
    refine hread.of_eq fun b => ?_
    simp only [extent, headLength, Version.namePlace, List.drop_drop, List.getElem?_drop, Nat.reduceAdd]
    omega

theorem extent_le_iff {place n : Nat} (hplace : place < n) {b : Bytes} :
    n + (b[place]?.getD 0).toNat ≤ b.length ↔ ∃ _ : place < b.length, n + b[place].toNat ≤ b.length := by
  constructor
  · intro h
    have hlt : place < b.length := by omega
    rw [List.getElem?_eq_getElem hlt, Option.getD_some] at h
    exact ⟨hlt, h⟩
  · intro h
    obtain ⟨hlt, hle⟩ := h
    rwa [List.getElem?_eq_getElem hlt, Option.getD_some]

/-! ### Heads -/

/-- In the second version the byte behind the name is the last one of the header. -/
theorem exists_head {r : Record} (h : r.layout.version = .second) :
    ∃ front : Bytes, front.length = 21 + r.name.length ∧
      ∀ terminator, r.head terminator = front ++ [terminator] := by
  obtain ⟨size, reserved, uncompressedSize, name, layout⟩ := r
  cases layout with
  | legacy offsets => cases h
  | extended presence extra =>
    refine ⟨Bytes.ofNat 4 size.toNat ++ (words reserved.toList ++ (Bytes.ofNat 4 uncompressedSize.toNat ++
      (words [presence, extra] ++ nameBytes name))), ?_, fun terminator => ?_⟩
    · simp only [nameBytes, List.length_append, List.length_cons, List.length_nil, Bytes.length_ofNat,
        length_words, Vector.length_toList]
      omega
    · simp only [head, List.append_assoc]

/-- The size stands in front of a header. -/
theorem head_of_size (r : Record) (size : UInt32) (terminator : UInt8) :
    { r with size := size }.head terminator = Bytes.ofNat 4 size.toNat ++ (r.head terminator).drop 4 := by
  have hlength : (Bytes.ofNat 4 r.size.toNat).length = 4 := Bytes.length_ofNat 4 _
  rw [head, head, List.drop_left' hlength]

/-! ### Main statement -/

/-- All that there is to know of reading a header. -/
structure HeaderRead (v : Version) (b : Bytes) : Prop where
  first_iff : v = .first →
    ((∃ r payload, read v b = .ok (r, payload)) ↔ ∃ _ : 27 ≤ b.length, 27 + b[26].toNat ≤ b.length)
  second_iff : v = .second →
    ((∃ r payload, read v b = .ok (r, payload)) ↔ ∃ _ : 21 ≤ b.length, 22 + b[20].toNat ≤ b.length)
  truncated : ∀ fault, read v b = .error fault → fault = .truncated
  /-- Header and payload are the bytes that were read. -/
  whole : ∀ r payload, read v b = .ok (r, payload) → r.layout.version = v ∧
    ∃ terminator, (v = .second → b[21 + r.name.length]? = some terminator) ∧ b = r.head terminator ++ payload
  /-- The byte behind the name can be any. -/
  terminator : ∀ r payload, read v b = .ok (r, payload) → v = .second →
    ∀ terminator, read v (b.set (21 + r.name.length) terminator) = .ok (r, payload)
  /-- The size can be any. -/
  size : ∀ r payload, read v b = .ok (r, payload) →
    ∀ size : UInt32, read v (Bytes.ofNat 4 size.toNat ++ b.drop 4) = .ok ({ r with size := size }, payload)

/-- **Reading a header loses nothing**, and only what is too short for it cannot be read. -/
theorem header_read (v : Version) (b : Bytes) : HeaderRead v b where
  first_iff hv := by
    subst hv
    rw [(spans_read .first).ok_iff]
    exact extent_le_iff (by decide)
  second_iff hv := by
    subst hv
    rw [(spans_read .second).ok_iff]
    exact extent_le_iff (by decide)
  truncated _ h := (spans_read v).eq_truncated h
  whole r payload h := by
    obtain ⟨hfitting, terminator, rfl⟩ := read_eq_ok_iff.1 h
    refine ⟨hfitting.version, terminator, fun hv => ?_, rfl⟩
    obtain ⟨front, hfront, hhead⟩ := exists_head (hfitting.version.trans hv)
    rw [hhead, ← hfront, List.append_assoc, List.getElem?_append_right (Nat.le_refl _), Nat.sub_self]
    rfl
  terminator r payload h hv terminator := by
    obtain ⟨hfitting, old, rfl⟩ := read_eq_ok_iff.1 h
    obtain ⟨front, hfront, hhead⟩ := exists_head (hfitting.version.trans hv)
    refine read_eq_ok_iff.2 ⟨hfitting, terminator, ?_⟩
    rw [hhead, hhead, ← hfront, List.append_assoc, List.append_assoc,
      List.set_append_right _ _ (Nat.le_refl _), Nat.sub_self]
    rfl
  size r payload h size := by
    obtain ⟨hfitting, terminator, rfl⟩ := read_eq_ok_iff.1 h
    have hle : 4 ≤ (r.head terminator).length := by
      rw [length_head]
      cases r.layout.version <;> exact Nat.le_add_right_of_le (by decide)
    refine read_eq_ok_iff.2 ⟨⟨hfitting.version, hfitting.name, hfitting.uncompressedSize⟩, terminator, ?_⟩
    rw [head_of_size r size terminator, List.drop_append_of_le_length hle, List.append_assoc]

/-- A record that says it is shorter than it is. -/
def mislabelled : Record := ⟨5, #v[1, 2, 3, 4], 7, [0x61], .extended 9 8⟩

/-- Neither its size nor the byte behind its name matters, but its version does. -/
theorem header_read_of_mislabelled :
    read .second (mislabelled.head 0xff ++ [1, 2]) = .ok (mislabelled, [1, 2]) ∧
    read .second ((mislabelled.head 0xff ++ [1, 2]).set 22 0) = .ok (mislabelled, [1, 2]) ∧
    read .second (Bytes.ofNat 4 25 ++ (mislabelled.head 0xff ++ [1, 2]).drop 4) =
      .ok ({ mislabelled with size := 25 }, [1, 2]) ∧
    read .first (mislabelled.head 0xff ++ [1, 2]) = .error .truncated := by
  have hsecond := header_read .second (mislabelled.head 0xff ++ [1, 2])
  have hfirst := header_read .first (mislabelled.head 0xff ++ [1, 2])
  have hread : read .second (mislabelled.head 0xff ++ [1, 2]) = .ok (mislabelled, [1, 2]) :=
    read_eq_ok_iff.2 ⟨⟨rfl, by decide, nofun⟩, 0xff, rfl⟩
  refine ⟨hread, hsecond.terminator _ _ hread rfl 0, hsecond.size _ _ hread 25, ?_⟩
  cases h : read .first (mislabelled.head 0xff ++ [1, 2]) with
  | error fault => rw [hfirst.truncated fault h]
  | ok result =>
    obtain ⟨hlength, -⟩ := (hfirst.first_iff rfl).1 ⟨result.1, result.2, h⟩
    exact absurd hlength (by decide)

end Record
end Archive
end ClassicIcons
