import ClassicIcons.Proofs.Archive.Built
import ClassicIcons.Proofs.Archive.Entries
import ClassicIcons.Proofs.Icns.Conversion
import ClassicIcons.Proofs.Zlib.Stored

/-! Pixels on their way from pictures to icns files.

Pictures are made into records, and records into an archive; the archive is walked
through, each record is decoded, the icon is made into a family, and the family is
written. Whoever reads the file gets the images of the picture, byte for byte but for
the alpha of 24-bit images, and nothing else except placeholders
(`givesBack_build`). There is a record for every picture whose kinds the version
stores (`Entry.fits_packed`, `Entry.fits_stored`), so this is about all of them. -/
namespace ClassicIcons
open Archive (Icon Picture Entry Version)

/-! ### Files -/

/-- The family shows a picture. -/
structure Icns.Family.Shows (f : Family) (p : Picture) : Prop where
  image : ∀ k image, p.image? k = some image → ∃ e, f.find? k = some e ∧ e.Shows k image
  /-- Only a placeholder stands for an image that is not there, and only where a
  palette image needs it. -/
  missing : ∀ k, p.image? k = none →
    f.find? k = if k.dependents.any p.has then some (.placeholder k) else none
  order : f.elements = Kind.icnsOrder.filterMap f.find?

/-- The family of an icon shows every picture that has the same images. -/
theorem Icns.Family.shows_ofIcon {i : Icon} {p : Picture} (h : ∀ k, i.image? k = p.image? k) :
    (ofIcon i).Shows p where
  image := by
    intro k image himage
    obtain ⟨e, he, hshows⟩ := Element.shows_ofImage? (p.image_length k image himage)
    refine ⟨e, ?_, hshows⟩
    rw [find?_ofIcon, Element.ofIcon?, h k, himage, ← he]
  missing := by
    intro k himage
    have hhas : i.has = p.has := by
      funext j
      rw [i.has_eq_isSome, h j]
      rfl
    rw [find?_ofIcon, Element.ofIcon?, h k, himage, hhas]
  order := by
    have hfind : (ofIcon i).find? = Element.ofIcon? i := by
      funext k
      exact find?_ofIcon i k
    rw [hfind]
    rfl

/-! ### Entries -/

/-- The first version has one payload for a picture. -/
def Archive.Entry.packed (p : Picture) : Entry :=
  ⟨p, RunLength.Flavour.packBits.pack (p.content .first)⟩

/-- The second version has many payloads for a picture. This one is not compressed. -/
def Archive.Entry.stored (p : Picture) : Entry := ⟨p, Zlib.stored (p.content .second)⟩

/-- Every picture of the right kinds can be stored by the first version. -/
theorem Archive.Entry.fits_packed [Zlib.Decoder] {p : Picture} (hp : p.Within Kind.legacy) :
    (packed p).Fits .first where
  within := hp
  nonempty h := by cases h
  payload := rfl
  size_lt := by
    have hname := p.name_length
    have hlength : (p.content .first).length ≤ 2240 := p.length_content_le .first
    have hpack := RunLength.Flavour.packBits.length_pack_le (p.content .first)
    have hround : (p.content .first).length ⌈/⌉ RunLength.maxLiteral ≤ 18 :=
      (ceilDiv_le_iff_le_mul (by decide)).2 (Nat.le_trans hlength (by decide))
    show 26 + 1 + p.name.length + (RunLength.Flavour.packBits.pack (p.content .first)).length < 4294967296
    omega

section
attribute [local instance] Zlib.inflater

/-- Every picture with an image can be stored by the second. -/
theorem Archive.Entry.fits_stored {p : Picture} {k : Kind} (hk : p.has k = true) :
    (stored p).Fits .second where
  within k _ := k.mem_all
  nonempty _ := ⟨k, hk⟩
  payload := by
    have hlength : (p.content .second).length ≤ 24192 := p.length_content_le .second
    exact Zlib.completes_stored (by omega)
  size_lt := by
    have hname := p.name_length
    have hlength : (p.content .second).length ≤ 24192 := p.length_content_le .second
    have hstored := Zlib.length_stored (p.content .second)
    show 20 + 1 + p.name.length + 1 + (Zlib.stored (p.content .second)).length < 4294967296
    omega

end

/-! ### Archives -/

/-- The icon is the one that was made from a picture, the `index`-th of its archive. -/
structure Archive.Icon.Depicts (i : Icon) (index : Nat) (p : Picture) : Prop where
  index : i.index = index
  name : i.name = Text.decode p.name
  image : ∀ k, i.image? k = p.image? k
  file : ∃ file f, (Icns.Family.ofIcon i).write = .ok file ∧ Icns.Family.read file = .ok (f, []) ∧
    f.Shows p

theorem Archive.Picture.depicts_icon (p : Picture) (index : Nat) {order : List Kind}
    (hp : p.Within order) : (p.icon index hp).Depicts index p where
  index := rfl
  name := rfl
  image := p.image?_icon index hp
  file := by
    obtain ⟨hwrite, hread⟩ := Icns.Family.read_ofIcon (p.icon index hp)
    exact ⟨_, _, hwrite, hread, Icns.Family.shows_ofIcon (p.image?_icon index hp)⟩

namespace Archive

/-- An archive gives back all entries it was built from, in order, and no more. -/
structure GivesBack [Zlib.Decoder] (a : Archive) (v : Version) (entries : List Entry) : Prop where
  version : a.header.version = v
  count : a.header.iconCount.toNat = entries.length
  length : a.items.length = entries.length
  item : ∀ (i : Nat) (e : Entry), entries[i]? = some e → ∃ (span : Span) (icon : Icon),
    a.items[i]? = some ⟨i, some span, .ok icon⟩ ∧ icon.Depicts i e.picture

/-- **Pixels are preserved from end to end**, whatever decoder there is. An archive of either
version that is built from fitting entries, as many as its header can count, can be opened,
and gives back every one of them: a file is written for each, and read again it shows the
picture. -/
theorem givesBack_build [Zlib.Decoder] (v : Version) (copyright comment : Bytes) (entries : List Entry)
    (hcount : entries.length < UInt32.size) (hfits : ∀ e ∈ entries, e.Fits v) :
    ∃ a, parse (build v copyright comment (entries.map fun e => e.record v)) = .ok a ∧
      a.GivesBack v entries := by
  have hframed : ∀ record ∈ entries.map fun e => e.record v, Framed record := by
    intro record hrecord
    obtain ⟨e, he, rfl⟩ := List.mem_map.1 hrecord
    exact e.framed_record (hfits e he).size_lt
  obtain ⟨a, hparse, hversion, hholds⟩ := holds_build v copyright comment (by simpa using hcount) hframed
  refine ⟨a, hparse, hversion, ?_, ?_, ?_⟩
  · rw [hholds.count, List.length_map]
  · rw [hholds.length_items, List.length_map]
  · intro i e he
    have hfit := hfits e (List.mem_of_getElem? he)
    have hrecord : (entries.map fun e => e.record v)[i]? = some (e.record v) := by
      rw [List.getElem?_map, he]
      rfl
    have hitem := getElem?_items_of_holds hholds hrecord
    rw [hversion, decodeWhole_record hfit] at hitem
    exact ⟨_, _, hitem, e.picture.depicts_icon i hfit.within⟩

/-- A picture whose images have the same byte throughout. -/
def plainPicture (kinds : List Kind) : Picture where
  name := [0x70, 0x6c, 0x61, 0x69, 0x6e]
  image? k := if k ∈ kinds then some (List.replicate k.archiveLength 0xcc) else none
  name_length := by decide
  image_length := by
    intro k image h
    split at h
    · cases h
      exact List.length_replicate
    · cases h

theorem within_plainPicture {kinds order : List Kind} (h : ∀ k ∈ kinds, k ∈ order) :
    (plainPicture kinds).Within order := by
  intro k hk
  by_cases hmem : k ∈ kinds
  · exact h k hmem
  · simp [Picture.has, plainPicture, hmem] at hk

/-- Two icons, the second of them without any image. -/
def fewEntries : List Entry :=
  [.packed (plainPicture [⟨.small, .mono⟩]), .packed (plainPicture [])]

/-- An icon with a palette image that needs a placeholder, and a 24-bit one. -/
def richEntries : List Entry := [.stored (plainPicture [⟨.small, .indexed8⟩, ⟨.huge, .color24⟩])]

attribute [local instance] Zlib.inflater

theorem givesBack_build_of_plain :
    ((∀ e ∈ fewEntries, e.Fits .first) ∧
      ∃ a, parse (build .first [] [] (fewEntries.map fun e => e.record .first)) = .ok a ∧
        a.GivesBack .first fewEntries) ∧
    (∀ e ∈ richEntries, e.Fits .second) ∧
      ∃ a, parse (build .second [0x63] [0x78] (richEntries.map fun e => e.record .second)) = .ok a ∧
        a.GivesBack .second richEntries := by
  have hfew : ∀ e ∈ fewEntries, e.Fits .first := by
    intro e he
    rcases List.mem_cons.1 he with rfl | he
    · exact Entry.fits_packed (within_plainPicture (by decide))
    · rcases List.mem_singleton.1 he with rfl
      exact Entry.fits_packed (within_plainPicture (by decide))
  have hrich : ∀ e ∈ richEntries, e.Fits .second := by
    intro e he
    rcases List.mem_singleton.1 he with rfl
    exact Entry.fits_stored (k := ⟨.huge, .color24⟩) (by decide)
  exact ⟨⟨hfew, givesBack_build .first [] [] fewEntries (by decide) hfew⟩, hrich,
    givesBack_build .second [0x63] [0x78] richEntries (by decide) hrich⟩

end Archive
end ClassicIcons
