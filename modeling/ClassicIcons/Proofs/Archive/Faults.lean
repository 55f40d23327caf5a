import ClassicIcons.Proofs.Preservation

/-! What can be wrong with an archive, and with a record.

An archive is refused for its header alone, because it is none, or none of a known
version (`unsupported_of_parse`). Whatever else is wrong is wrong with one record, which
can be skipped: its payload cannot be had, or comes out shorter than it should, or
there is no image in it (`fault_found`). So the errors of a whole run fall into two
classes that do not mix (`errors_classified`). -/
namespace ClassicIcons

/-! ### What a reader fails with -/

/-- The reader fails with nothing but such errors. -/
def Reader.Fails {ε α : Type} (p : ε → Prop) (m : Reader ε α) : Prop := ∀ b e, m b = .error e → p e

namespace Reader
variable {ε α β : Type} {p : ε → Prop}

theorem Fails.pure (x : α) : Fails p (pure x : Reader ε α) := fun _ _ h => absurd h pure_ne_error

theorem Fails.throw {e : ε} (h : p e) : Fails p (throw e : Reader ε α) := by
  intro b e' he
  cases he
  exact h

theorem Fails.bind {m : Reader ε α} {f : α → Reader ε β} (hm : Fails p m) (hf : ∀ x, Fails p (f x)) :
    Fails p (m >>= f) := by
  intro b e h
  rcases bind_eq_error_iff.1 h with h | ⟨x, mid, -, h⟩
  · exact hm b e h
  · exact hf x mid e h

theorem Fails.require (c : Prop) [Decidable c] {e : ε} (h : p e) : Fails p (require c e) := by
  intro b e' he
  obtain ⟨-, rfl⟩ := require_eq_error_iff.1 he
  exact h

variable [Truncated ε]

theorem Fails.bytes (n : Nat) (h : p Truncated.truncated) : Fails p (bytes n) := by
  intro b e he
  obtain ⟨-, rfl⟩ := bytes_eq_error_iff.1 he
  exact h

theorem Fails.number (n : Nat) (h : p Truncated.truncated) : Fails p (number n) :=
  (Fails.bytes n h).bind fun _ => Fails.pure _

/-- A number that is read as a word of some width. -/
theorem Fails.word (n : Nat) (f : Nat → α) (h : p Truncated.truncated) :
    Fails p (do return f (← Reader.number n)) :=
  (Fails.number n h).bind fun _ => Fails.pure _

end Reader

namespace Archive
open Reader (Fails)

/-! ### Headers -/

/-- The file is no archive, or none of a known version. -/
inductive Error.Unsupported : Error → Prop
  | format (fault : FormatFault) : Unsupported (.unsupportedFormat fault)
  | version {n : UInt16} (h : Version.ofNumber? n = none) : Unsupported (.unsupportedVersion n)

theorem Error.Unsupported.isFatal {e : Error} (h : e.Unsupported) : e.isFatal = true := by
  cases h <;> rfl

theorem unsupported_truncated : Error.Unsupported Truncated.truncated := .format .truncated

theorem fails_paddedText (width : Nat) : Fails Error.Unsupported (paddedText width) := by
  refine (Fails.word 1 _ unsupported_truncated).bind fun length => ?_
  exact (Fails.bytes width unsupported_truncated).bind fun _ => .pure _

theorem fails_version : Fails Error.Unsupported Version.read := by
  refine (Fails.word 2 _ unsupported_truncated).bind fun number => ?_
  split
  · exact .pure _
  · rename_i h
    exact .throw (.version h)

theorem fails_extended : Fails Error.Unsupported Extended.read := by
  refine (Fails.bytes 4 unsupported_truncated).bind fun found => ?_
  refine (Fails.require _ (.format .extendedMagic)).bind fun _ => ?_
  refine (Fails.bytes 57 unsupported_truncated).bind fun reserved => ?_
  refine (Fails.word 1 _ unsupported_truncated).bind fun lock => ?_
  refine (Fails.bytes 2 unsupported_truncated).bind fun flags => ?_
  exact (fails_paddedText 63).bind fun _ => (fails_paddedText 255).bind fun _ => .pure _

theorem fails_edition (v : Version) : Fails Error.Unsupported (Edition.read v) := by
  cases v with
  | first => exact .pure _
  | second => exact fails_extended.bind fun _ => .pure _

theorem fails_header : Fails Error.Unsupported Header.read := by
  refine (Fails.bytes 8 unsupported_truncated).bind fun found => ?_
  refine (Fails.require _ (.format .magic)).bind fun _ => ?_
  refine (Fails.bytes 2 unsupported_truncated).bind fun reserved => ?_
  refine fails_version.bind fun version => ?_
  refine (Fails.word 4 _ unsupported_truncated).bind fun iconCount => ?_
  refine (Fails.bytes 32 unsupported_truncated).bind fun block => ?_
  refine (Fails.word 8 _ unsupported_truncated).bind fun timestamp => ?_
  refine (Fails.bytes 8 unsupported_truncated).bind fun tail => ?_
  exact (fails_edition version).bind fun _ => .pure _

/-- A file that cannot be opened is no archive, or none of a known version. -/
theorem unsupported_of_parse {data : Bytes} {e : Error} (h : parse data = .error e) : e.Unsupported := by
  unfold parse at h
  split at h
  · cases h
  · rename_i hread
    cases h
    exact fails_header data _ hread

/-! ### Records -/

/-- What can be wrong with a record of a version, when `Stored r payload` says that the
record has this header and this payload. -/
inductive Error.OfRecord [Zlib.Decoder] (Stored : Record → Bytes → Prop) : Version → Error → Prop
  /-- The record, or its payload, cannot be made sense of. -/
  | unreadable (v : Version) (fault : RecordFault) : OfRecord Stored v (.decompressionFailed fault)
  /-- There is less to be had of the payload than there should be. -/
  | short {r : Record} {payload data : Bytes} (hr : Stored r payload)
      (hdata : Zlib.Decoder.read (r.uncompressedSize.toNat + 1) payload = .ok data)
      (hlt : data.length < r.uncompressedSize.toNat) :
      OfRecord Stored .second (.sizeMismatch r.uncompressedSize.toNat data.length)
  /-- The payload is what it should be, and no bit of a kind is set. -/
  | hollow {r : Record} {payload data : Bytes} {presence extra : UInt16} (hr : Stored r payload)
      (hlayout : r.layout = .extended presence extra)
      (hdata : Zlib.Decoder.read (r.uncompressedSize.toNat + 1) payload = .ok data)
      (hlength : data.length = r.uncompressedSize.toNat)
      (hbits : ∀ k : Kind, presence.toNat.testBit k.presenceBit = false) :
      OfRecord Stored .second .emptyIcon

theorem Error.OfRecord.isFatal [Zlib.Decoder] {Stored : Record → Bytes → Prop} {v : Version} {e : Error}
    (h : e.OfRecord Stored v) : e.isFatal = false := by
  cases h <;> rfl

/-- An icon is refused only for an image that reaches past the end of the data. -/
theorem Icon.error_of {index : Nat} {name : String} {data : Bytes} {offset : Kind → Option Nat}
    {e : Error} (h : Icon.of index name data offset = .error e) :
    ∃ k start, e = .decompressionFailed (.imageOverrun k start data.length) := by
  unfold Icon.of at h
  split at h
  · cases h
    exact ⟨_, _, rfl⟩
  · cases h

theorem Record.error_of_unpack {payload : Bytes} {size : Nat} {e : Error}
    (h : unpack payload size = .error e) : ∃ found, e = .decompressionFailed (.packed found) := by
  unfold unpack at h
  split at h
  · cases h
  · cases h
    exact ⟨_, rfl⟩

theorem Layout.presentKinds_eq_nil_iff {presence : UInt16} :
    presentKinds presence = [] ↔ ∀ k : Kind, presence.toNat.testBit k.presenceBit = false := by
  simp only [presentKinds, List.filter_eq_nil_iff, Bool.not_eq_true]
  exact ⟨fun h k => h k k.mem_all, fun h k _ => h k⟩

/-- The item lies on a record that has this header and this payload. -/
def Item.Stored (data : Bytes) (v : Version) (item : Item) (r : Record) (payload : Bytes) : Prop :=
  ∃ span record, item.span = some span ∧ Bytes.slice? span.start span.size data = some record ∧
    Record.read v record = .ok (r, payload)

section
variable [Zlib.Decoder]

theorem Record.inflate_eq_ok_iff {payload data : Bytes} {size : Nat} :
    inflate payload size = .ok data ↔
      Zlib.Decoder.read (size + 1) payload = .ok data ∧ data.length = size := by
  unfold inflate
  cases Zlib.Decoder.read (size + 1) payload with
  | error text => simp
  | ok found =>
    by_cases hlength : found.length = size
    · simp only [hlength, Nat.lt_irrefl, if_false, if_true, Except.ok.injEq]
      exact ⟨fun h => ⟨h, h ▸ hlength⟩, fun h => h.1⟩
    · have hne : ¬ (found = data ∧ data.length = size) := by
        rintro ⟨rfl, h⟩
        exact hlength h
      simp only [if_neg hlength, Except.ok.injEq, hne, iff_false]
      split <;> simp

/-- A payload of which there is too little is told from one that cannot be had. -/
theorem Record.error_of_inflate {payload : Bytes} {size : Nat} {e : Error}
    (h : inflate payload size = .error e) :
    (∃ text, Zlib.Decoder.read (size + 1) payload = .error text ∧ e = .decompressionFailed (.stream text)) ∨
      e = .decompressionFailed (.excess size) ∨
        ∃ data, Zlib.Decoder.read (size + 1) payload = .ok data ∧ data.length < size ∧
          e = .sizeMismatch size data.length := by
  unfold inflate at h
  split at h
  · rename_i text htext
    cases h
    exact .inl ⟨text, htext, rfl⟩
  · rename_i data hdata
    split at h
    · cases h
      exact .inr (.inl rfl)
    · rename_i hlong
      split at h
      · cases h
      · rename_i hlength
        cases h
        exact .inr (.inr ⟨data, hdata, by omega, rfl⟩)

/-- A record without a bit for any kind has no image, whatever its payload holds. -/
theorem Record.decode_hollow {r : Record} {presence extra : UInt16} (hr : r.layout = .extended presence extra)
    (hp : Layout.presentKinds presence = []) {payload data : Bytes}
    (h : inflate payload r.uncompressedSize.toNat = .ok data) (index : Nat) :
    r.decode index payload = .error .emptyIcon := by
  simp only [decode, hr, h]
  exact if_pos hp

theorem Record.error_of_decode {Stored : Record → Bytes → Prop} {r : Record} {index : Nat} {payload : Bytes}
    (hr : Stored r payload) {e : Error} (h : r.decode index payload = .error e) :
    e.OfRecord Stored r.layout.version := by
  cases hlayout : r.layout with
  | legacy offsets =>
    cases hunpack : unpack payload r.uncompressedSize.toNat with
    | ok data =>
      rw [decode_legacy hlayout hunpack] at h
      obtain ⟨k, start, rfl⟩ := Icon.error_of h
      exact .unreadable _ _
    | error found =>
      simp only [decode, hlayout, hunpack] at h
      cases h
      obtain ⟨found, rfl⟩ := error_of_unpack hunpack
      exact .unreadable _ _
  | extended presence extra =>
    cases hinflate : inflate payload r.uncompressedSize.toNat with
    | ok data =>
      obtain ⟨hdata, hlength⟩ := inflate_eq_ok_iff.1 hinflate
      by_cases hkinds : Layout.presentKinds presence = []
      · rw [decode_hollow hlayout hkinds hinflate] at h
        cases h
        exact .hollow hr hlayout hdata hlength (Layout.presentKinds_eq_nil_iff.1 hkinds)
      · rw [decode_extended hlayout hkinds hinflate] at h
        obtain ⟨k, start, rfl⟩ := Icon.error_of h
        exact .unreadable _ _
    | error found =>
      simp only [decode, hlayout, hinflate] at h
      cases h
      rcases error_of_inflate hinflate with ⟨text, -, rfl⟩ | rfl | ⟨data, hdata, hlt, rfl⟩
      · exact .unreadable _ _
      · exact .unreadable _ _
      · exact .short hr hdata hlt

/-- What is wrong at a record, is wrong with that record. -/
theorem fault_found {a : Archive} {i : Nat} {e : Error} (h : (a.found i).result = .error e) :
    e.OfRecord ((a.found i).Stored a.data a.header.version) a.header.version := by
  by_cases hb : a.Blocked i
  · obtain ⟨fault, hfound⟩ := found_of_blocked hb
    rw [hfound] at h
    cases h
    exact .unreadable _ fault
  · obtain ⟨size, hsize, hle⟩ := not_blocked_iff.1 hb
    have hspan : (a.found i).span = some ⟨a.place i, size⟩ := span_found_eq_some_iff.2 ⟨rfl, hsize, hle⟩
    have hresult : (a.found i).result = a.decoded i size := by
      simp only [found, hsize, if_neg (Nat.not_lt.2 hle)]
    rw [hresult] at h
    unfold decoded at h
    split at h
    · rename_i record hrecord
      unfold Record.decodeWhole at h
      split at h
      · rename_i r payload hread
        have hversion := (Record.read_eq_ok_iff.1 hread).1.version
        have hstored : (a.found i).Stored a.data a.header.version r payload :=
          ⟨_, record, hspan, hrecord, hread⟩
        have hfault := Record.error_of_decode hstored h
        rwa [hversion] at hfault
      · cases h
        exact .unreadable _ _
    · cases h
      exact .unreadable _ _

/-- **Errors fall into two classes, whatever the bytes are.** A file that cannot be
opened is refused for good, and only because its header is that of no archive, or of no
known version. In one that can be opened every error concerns its record alone; records
of the first version cannot be read, those of the second may also be too short, or
without any image. -/
theorem errors_classified (data : Bytes) :
    (∀ e, parse data = .error e → e.isFatal = true ∧ e.Unsupported) ∧
      ∀ a, parse data = .ok a → ∀ item ∈ a.items, ∀ e, item.result = .error e →
        e.isFatal = false ∧ e.OfRecord (item.Stored data a.header.version) a.header.version := by
  constructor
  · intro e h
    have hunsupported := unsupported_of_parse h
    exact ⟨hunsupported.isFatal, hunsupported⟩
  · intro a h item hitem e he
    have hdata := data_of_parse h
    obtain ⟨i, hi⟩ := List.mem_iff_getElem?.1 hitem
    obtain ⟨-, rfl⟩ := getElem?_items_eq_some_iff.1 hi
    have hfault := fault_found he
    rw [hdata] at hfault
    exact ⟨hfault.isFatal, hfault⟩

end

attribute [local instance] Zlib.inflater

/-- An archive of the second version with one record that has no image. -/
def hollow : Bytes := build .second [] [] [(Entry.stored (plainPicture [])).record .second]

theorem errors_classified_of_hollow :
    (∃ e, parse [0x51] = .error e ∧ e.isFatal = true ∧ e.Unsupported) ∧
      ∃ a item, parse hollow = .ok a ∧ item ∈ a.items ∧ item.result = .error .emptyIcon ∧
        Error.emptyIcon.isFatal = false ∧
          Error.emptyIcon.OfRecord (item.Stored hollow a.header.version) a.header.version := by
  constructor
  · have hparse : parse [0x51] = .error (.unsupportedFormat .truncated) := rfl
    exact ⟨_, hparse, (errors_classified [0x51]).1 _ hparse⟩
  · let e : Entry := .stored (plainPicture [])
    have hsize : e.size .second < UInt32.size := by decide
    have hframed : ∀ record ∈ [e.record .second], Framed record := by
      intro record hrecord
      rw [List.mem_singleton.1 hrecord]
      exact e.framed_record hsize
    obtain ⟨a, hparse, hversion, hholds⟩ := holds_build .second [] [] (by decide) hframed
    have hitem := getElem?_items_of_holds hholds (i := 0) rfl
    have hcarries : Version.second.Carries [] e.payload := Zlib.completes_stored (by decide)
    have hlength : (e.header .second).uncompressedSize.toNat = List.length ([] : Bytes) := by decide
    have hinflate : Record.inflate e.payload (e.header .second).uncompressedSize.toNat = .ok [] := by
      rw [hlength]
      exact inflate_of_carries hcarries
    have hlayout : (e.header .second).layout = .extended e.picture.presence 0 := rfl
    have hdecode : Record.decodeWhole a.header.version 0 (e.record .second) = .error .emptyIcon := by
      rw [hversion, Record.decodeWhole, e.read_record hsize]
      exact Record.decode_hollow hlayout (by decide) hinflate 0
    rw [hdecode] at hitem
    have hmem := List.mem_of_getElem? hitem
    exact ⟨a, _, hparse, hmem, rfl, (errors_classified hollow).2 a hparse _ hmem _ rfl⟩

end Archive
end ClassicIcons
