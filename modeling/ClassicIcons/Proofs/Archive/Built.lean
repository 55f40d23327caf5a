import ClassicIcons.Archive.Build
import ClassicIcons.Proofs.Archive.Frames
import ClassicIcons.Proofs.Archive.HeaderForm

/-! Archives that were built.

What `build` puts in front of the records is a header, and nothing of it reaches into
the records (`written_builtHeader`). So the archive can be opened, with the version
and the number of icons it was built with, and it holds the records it was built from
(`holds_build`). -/
namespace ClassicIcons.Archive

/-- Nothing is left out of bytes that are not too many. -/
theorem resize_eq {length : Nat} {b : Bytes} (h : b.length ≤ length) :
    resize length b = b ++ List.replicate (length - b.length) 0 := by
  rw [resize, List.take_of_length_le h]

@[simp] theorem length_resize (length : Nat) (b : Bytes) : (resize length b).length = length := by
  rw [resize, List.length_append, List.length_take, List.length_replicate]
  omega

/-- The text that a padded field is read as. -/
def shownText (width : Nat) (text : Bytes) : String :=
  Text.decode ((resize width text).take (UInt8.ofNat text.length).toNat)

theorem textWritten_padded (width : Nat) (text : Bytes) :
    TextWritten width (shownText width text) (padded width text) :=
  ⟨UInt8.ofNat text.length, resize width text, rfl, length_resize width text, rfl⟩

/-- What a header is built from. -/
def headerOf (v : Version) (copyright comment : Bytes) (count : Nat) : Header where
  reserved := [0, 0]
  iconCount := UInt32.ofNat count
  reservedBlock := List.replicate 32 0
  timestamp := 0
  reservedTail := List.replicate 8 0
  edition := match v with
    | .first => .first
    | .second => .second
      ⟨List.replicate 57 0, false, [0, 0], shownText 63 copyright, shownText 255 comment⟩

theorem version_headerOf (v : Version) (copyright comment : Bytes) (count : Nat) :
    (headerOf v copyright comment count).version = v := by
  cases v <;> rfl

theorem written_builtEdition (v : Version) (copyright comment : Bytes) (count : Nat) :
    (headerOf v copyright comment count).edition.Written (builtEdition copyright comment v) := by
  cases v with
  | first => rfl
  | second =>
    exact ⟨⟨0, padded 63 copyright, padded 255 comment, rfl, rfl, textWritten_padded 63 copyright,
      textWritten_padded 255 comment⟩, List.length_replicate, rfl⟩

theorem written_builtHeader (v : Version) (copyright comment : Bytes) {count : Nat}
    (hcount : count < UInt32.size) :
    (headerOf v copyright comment count).Written (builtHeader v copyright comment count) where
  split := by
    have hstated : (UInt32.ofNat count).toNat = count := UInt32.toNat_ofNat_of_lt' hcount
    have hzeros : List.replicate 48 (0 : UInt8) =
        List.replicate 32 0 ++ (Bytes.ofNat 8 (0 : UInt64).toNat ++ List.replicate 8 0) := by decide
    refine ⟨_, ?_, written_builtEdition v copyright comment count⟩
    rw [version_headerOf, builtHeader, hzeros]
    simp only [headerOf, hstated, List.append_assoc, List.cons_append, List.nil_append]
  reserved := rfl
  block := List.length_replicate
  tail := List.length_replicate

/-- There is room for the header in front of the records. -/
theorem length_builtHeader_le (v : Version) (copyright comment : Bytes) {count : Nat}
    (hcount : count < UInt32.size) : (builtHeader v copyright comment count).length ≤ builtLength v := by
  have hlength := Header.length_le_of_written (written_builtHeader v copyright comment hcount)
  have hbase : Header.recordsBase v = builtLength v := by cases v <;> rfl
  rw [version_headerOf, hbase] at hlength
  exact hlength

theorem recordsOffset_headerOf (v : Version) (copyright comment : Bytes) {count : Nat}
    (hcount : count < UInt32.size) :
    (headerOf v copyright comment count).recordsOffset = builtLength v + 4 * count := by
  have hbase : Header.recordsBase v = builtLength v := by cases v <;> rfl
  have hstated : (headerOf v copyright comment count).iconCount.toNat = count :=
    UInt32.toNat_ofNat_of_lt' hcount
  rw [Header.recordsOffset, version_headerOf, hbase, hstated]

theorem read_build (v : Version) (copyright comment : Bytes) {records : List Bytes}
    (hcount : records.length < UInt32.size) :
    ∃ rest, Header.read (build v copyright comment records) =
      .ok (headerOf v copyright comment records.length, rest) := by
  have hlength := length_builtHeader_le v copyright comment hcount
  have hresize := resize_eq (Nat.le_trans hlength (Nat.le_add_right _ (4 * records.length)))
  have hwritten := written_builtHeader v copyright comment hcount
  rw [build, hresize, List.append_assoc]
  exact ⟨_, Header.read_eq_ok_iff.2 ⟨_, hwritten, rfl⟩⟩

/-- **An archive that was built can be opened, and holds what it was built from.** -/
theorem holds_build (v : Version) (copyright comment : Bytes) {records : List Bytes}
    (hcount : records.length < UInt32.size) (hframed : ∀ record ∈ records, Framed record) :
    ∃ a, parse (build v copyright comment records) = .ok a ∧ a.header.version = v ∧ Holds a records := by
  obtain ⟨rest, hread⟩ := read_build v copyright comment hcount
  refine ⟨⟨build v copyright comment records, headerOf v copyright comment records.length⟩, ?_,
    version_headerOf v copyright comment records.length, ?_⟩
  · rw [parse, hread]
  · refine ⟨⟨resize (builtLength v + 4 * records.length)
      (builtHeader v copyright comment records.length), ?_, rfl⟩, UInt32.toNat_ofNat_of_lt' hcount, hframed⟩
    rw [length_resize]
    exact (recordsOffset_headerOf v copyright comment hcount).symm

end ClassicIcons.Archive
