import ClassicIcons.Archive.Header

/-! The bytes of a header.

`Written h b` says which bytes `b` spell a header `h`, field by field. Reading
accepts exactly these (`read_eq_ok_iff`), and leaves whatever follows them; so a
header is fixed by its own bytes, of which there are no more than fit in front of
the records (`length_le_of_written`). -/
namespace ClassicIcons.Archive

/-- The bytes of a text in a field of `width` bytes. -/
def TextWritten (width : Nat) (text : String) (b : Bytes) : Prop :=
  ∃ length field, b = length :: field ∧ field.length = width ∧
    text = Text.decode (field.take length.toNat)

theorem paddedText_eq_ok_iff {width : Nat} {text : String} {b rest : Bytes} :
    paddedText width b = .ok (text, rest) ↔ ∃ front, TextWritten width text front ∧ b = front ++ rest := by
  simp only [paddedText, Reader.bind_eq_ok_iff, Reader.u8_eq_ok_iff, Reader.bytes_eq_ok_iff,
    Reader.pure_eq_ok_iff]
  constructor
  · rintro ⟨length, _, rfl, field, _, ⟨rfl, hfield⟩, rfl, rfl⟩
    exact ⟨length :: field, ⟨length, field, rfl, hfield, rfl⟩, rfl⟩
  · rintro ⟨_, ⟨length, field, rfl, hfield, rfl⟩, rfl⟩
    exact ⟨length, _, rfl, field, _, ⟨rfl, hfield⟩, rfl, rfl⟩

theorem Version.ofNumber?_eq_some_iff {n : UInt16} {v : Version} :
    ofNumber? n = some v ↔ n = v.number := by
  constructor
  · intro h
    have := List.find?_some h
    simpa using (of_decide_eq_true this).symm
  · rintro rfl
    cases v <;> rfl

theorem Version.read_eq_ok_iff {v : Version} {b rest : Bytes} :
    Version.read b = .ok (v, rest) ↔ b = Bytes.ofNat 2 v.number.toNat ++ rest := by
  simp only [Version.read, Reader.bind_eq_ok_iff, Reader.u16_eq_ok_iff]
  constructor
  · rintro ⟨number, mid, rfl, h⟩
    cases hv : ofNumber? number with
    | some version =>
      rw [hv] at h
      obtain ⟨rfl, rfl⟩ := Reader.pure_eq_ok_iff.1 h
      rw [ofNumber?_eq_some_iff.1 hv]
    | none =>
      rw [hv] at h
      cases h
  · rintro rfl
    refine ⟨v.number, rest, rfl, ?_⟩
    rw [ofNumber?_eq_some_iff.2 rfl]
    rfl

/-- The bytes of what only the second version has. -/
structure Extended.Written (x : Extended) (b : Bytes) : Prop where
  split : ∃ lock copyright comment, b = Header.extendedMagic ++
    (x.reserved ++ (lock :: (x.reservedFlags ++ (copyright ++ comment)))) ∧
    x.locked = decide (lock ≠ 0) ∧ TextWritten 63 x.copyright copyright ∧
    TextWritten 255 x.comment comment
  reserved : x.reserved.length = 57
  flags : x.reservedFlags.length = 2

theorem Extended.read_eq_ok_iff {x : Extended} {b rest : Bytes} :
    Extended.read b = .ok (x, rest) ↔ ∃ front, x.Written front ∧ b = front ++ rest := by
  simp only [Extended.read, Reader.bind_eq_ok_iff, Reader.u8_eq_ok_iff, Reader.bytes_eq_ok_iff,
    Reader.require_eq_ok_iff, paddedText_eq_ok_iff, Reader.pure_eq_ok_iff]
  constructor
  · rintro ⟨_, _, ⟨rfl, -⟩, _, _, ⟨rfl, rfl⟩, reserved, _, ⟨rfl, hreserved⟩, lock, _, rfl, flags, _,
      ⟨rfl, hflags⟩, copyright, _, ⟨copyrightBytes, hcopyright, rfl⟩, comment, _,
      ⟨commentBytes, hcomment, rfl⟩, rfl, rfl⟩
    refine ⟨_, ⟨⟨lock, copyrightBytes, commentBytes, rfl, rfl, hcopyright, hcomment⟩, hreserved,
      hflags⟩, ?_⟩
    simp
  · rintro ⟨_, ⟨⟨lock, copyright, comment, rfl, hlocked, hcopyright, hcomment⟩, hreserved, hflags⟩,
      rfl⟩
    simp only [List.append_assoc, List.cons_append]
    exact ⟨_, _, ⟨rfl, rfl⟩, (), _, ⟨rfl, rfl⟩, x.reserved, _, ⟨rfl, hreserved⟩, lock, _, rfl,
      x.reservedFlags, _, ⟨rfl, hflags⟩, x.copyright, _, ⟨copyright, hcopyright, rfl⟩, x.comment, _,
      ⟨comment, hcomment, rfl⟩, by rw [← hlocked], rfl⟩

/-- The bytes of what belongs to the version of an archive. -/
def Edition.Written : Edition → Bytes → Prop
  | first, b => b = []
  | second x, b => x.Written b

theorem Edition.read_eq_ok_iff {v : Version} {e : Edition} {b rest : Bytes} :
    Edition.read v b = .ok (e, rest) ↔
      e.version = v ∧ ∃ front, e.Written front ∧ b = front ++ rest := by
  cases v with
  | first =>
    rw [Edition.read, Reader.pure_eq_ok_iff]
    constructor
    · rintro ⟨rfl, rfl⟩
      exact ⟨rfl, [], rfl, rfl⟩
    · rintro ⟨hv, front, hfront, rfl⟩
      cases e with
      | first => exact ⟨rfl, by rw [hfront, List.nil_append]⟩
      | second x => cases hv
  | second =>
    simp only [Edition.read, Reader.bind_eq_ok_iff, Extended.read_eq_ok_iff, Reader.pure_eq_ok_iff]
    constructor
    · rintro ⟨x, _, ⟨front, hfront, rfl⟩, rfl, rfl⟩
      exact ⟨rfl, front, hfront, rfl⟩
    · rintro ⟨hv, front, hfront, rfl⟩
      cases e with
      | first => cases hv
      | second x => exact ⟨x, rest, ⟨front, hfront, rfl⟩, rfl, rfl⟩

/-- The bytes of a header. -/
structure Header.Written (h : Header) (b : Bytes) : Prop where
  split : ∃ tail, b = magic ++ (h.reserved ++ (Bytes.ofNat 2 h.version.number.toNat ++
    (Bytes.ofNat 4 h.iconCount.toNat ++ (h.reservedBlock ++ (Bytes.ofNat 8 h.timestamp.toNat ++
    (h.reservedTail ++ tail)))))) ∧ h.edition.Written tail
  reserved : h.reserved.length = 2
  block : h.reservedBlock.length = 32
  tail : h.reservedTail.length = 8

namespace Header

/-- **A header is read from its own bytes and from no others**, whatever follows
them. -/
theorem read_eq_ok_iff {h : Header} {b rest : Bytes} :
    read b = .ok (h, rest) ↔ ∃ front, h.Written front ∧ b = front ++ rest := by
  simp only [read, Reader.bind_eq_ok_iff, Reader.bytes_eq_ok_iff, Reader.require_eq_ok_iff,
    Version.read_eq_ok_iff, Reader.u32_eq_ok_iff, Reader.u64_eq_ok_iff, Edition.read_eq_ok_iff,
    Reader.pure_eq_ok_iff]
  constructor
  · rintro ⟨_, _, ⟨rfl, -⟩, _, _, ⟨rfl, rfl⟩, reserved, _, ⟨rfl, hreserved⟩, version, _, rfl,
      iconCount, _, rfl, block, _, ⟨rfl, hblock⟩, timestamp, _, rfl, tail, _, ⟨rfl, htail⟩, edition,
      _, ⟨rfl, front, hfront, rfl⟩, rfl, rfl⟩
    refine ⟨_, ⟨⟨front, rfl, hfront⟩, hreserved, hblock, htail⟩, ?_⟩
    simp only [List.append_assoc]
    rfl
  · rintro ⟨_, ⟨⟨tail, rfl, hedition⟩, hreserved, hblock, htail⟩, rfl⟩
    simp only [List.append_assoc]
    exact ⟨magic, _, ⟨rfl, rfl⟩, (), _, ⟨rfl, rfl⟩, h.reserved, _, ⟨rfl, hreserved⟩, h.version, _, rfl,
      h.iconCount, _, rfl, h.reservedBlock, _, ⟨rfl, hblock⟩, h.timestamp, _, rfl, h.reservedTail, _,
      ⟨rfl, htail⟩, h.edition, _, ⟨rfl, tail, hedition, rfl⟩, rfl, rfl⟩

end Header

theorem length_of_textWritten {width : Nat} {text : String} {b : Bytes}
    (h : TextWritten width text b) : b.length = width + 1 := by
  obtain ⟨length, field, rfl, hfield, -⟩ := h
  rw [List.length_cons, hfield]

/-- How many bytes the header of a version has. -/
def Version.headerLength : Version → Nat
  | first => 64
  | second => 448

theorem Header.length_of_written {h : Header} {b : Bytes} (hb : h.Written b) :
    b.length = h.version.headerLength := by
  obtain ⟨⟨tail, rfl, hedition⟩, hreserved, hblock, htail⟩ := hb
  have hmagic : magic.length = 8 := rfl
  simp only [List.length_append, Bytes.length_ofNat, hmagic, hreserved, hblock, htail]
  cases he : h.edition with
  | first =>
    rw [he] at hedition
    rw [version, he, hedition]
    rfl
  | second x =>
    rw [he] at hedition
    obtain ⟨⟨lock, copyright, comment, rfl, -, hcopyright, hcomment⟩, hxreserved, hflags⟩ := hedition
    have hextended : extendedMagic.length = 4 := rfl
    simp only [List.length_append, List.length_cons, hextended, hxreserved, hflags,
      length_of_textWritten hcopyright, length_of_textWritten hcomment]
    rw [version, he]
    rfl

/-- The bytes of a header fit in front of the records. -/
theorem Header.length_le_of_written {h : Header} {b : Bytes} (hb : h.Written b) :
    b.length ≤ recordsBase h.version := by
  rw [length_of_written hb]
  cases h.version <;> decide

end ClassicIcons.Archive
