import ClassicIcons.Proofs.Icns.Conversion

/-! When two icons have the same file.

A file shows what an icon looks like and nothing else about it. Icons look alike
(`LooksLike`) if they have images of the same kinds, the same bytes in them but for the
alpha of 24-bit images, and the same one-bit images, where a placeholder is as good as
an image. Then, and only then, their files are the same (`write_ofIcon_eq_iff`). One
direction needs that nothing but images goes into a file, the other that nothing of them
is lost: planes can be told apart (`planes_eq_iff`), so elements can, and a family can be
read again from its file. -/
namespace ClassicIcons
open Archive (Icon)

/-- Red, green and blue are the same in every pixel of two 24-bit images. -/
def Kind.SameColors (k : Kind) (image other : Bytes) : Prop :=
  ∀ pixel c, pixel < k.area → c < 3 → image[4 * pixel + 1 + c]? = other[4 * pixel + 1 + c]?

namespace Archive.Icon

/-- Both icons have an image of the kind, and the images show the same, or neither has
one. -/
def SameImage (i j : Icon) (k : Kind) : Prop :=
  match i.image? k, j.image? k with
  | some image, some other => if k.depth = .color24 then k.SameColors image other else image = other
  | none, none => True
  | _, _ => False

/-- The one-bit image that is shown, which may be a placeholder. -/
def oneBit? (i : Icon) (k : Kind) : Option Bytes :=
  match i.image? k with
  | some image => some image
  | none =>
    if i.has ⟨k.size, .indexed4⟩ ∨ i.has ⟨k.size, .indexed8⟩ then
      some (Icns.Element.placeholder k).data
    else none

/-- Whoever sees only what is shown cannot tell the icons apart. -/
structure LooksLike (i j : Icon) : Prop where
  images : ∀ k, k.depth ≠ .mono → i.SameImage j k
  oneBit : ∀ k, k.depth = .mono → i.oneBit? k = j.oneBit? k

end Archive.Icon

namespace Icns

/-! ### Planes -/

theorem Element.planes_eq_iff {size : Size} {image other : Bytes}
    (himage : image.length = Kind.archiveLength ⟨size, .color24⟩)
    (hother : other.length = Kind.archiveLength ⟨size, .color24⟩) :
    planes image = planes other ↔ Kind.SameColors ⟨size, .color24⟩ image other := by
  constructor
  · intro h pixel c _ hc
    obtain ⟨rgb, hcolors, -, hrgb⟩ := colors_planes himage
    obtain ⟨rgb', hcolors', -, hrgb'⟩ := colors_planes hother
    rw [h, hcolors', Except.ok.injEq] at hcolors
    rw [← hrgb pixel c hc, ← hrgb' pixel c hc, hcolors]
  · intro h
    have hplane (c : Nat) (hc : c < 3) :
        (channel (1 + c)).samples image = (channel (1 + c)).samples other := by
      apply List.ext_getElem?
      intro pixel
      rw [getElem?_samples_channel, getElem?_samples_channel, ← Nat.add_assoc]
      by_cases hpixel : pixel < Kind.area ⟨size, .color24⟩
      · exact h pixel c hpixel hc
      · have harea : Kind.archiveLength ⟨size, .color24⟩ = 4 * Kind.area ⟨size, .color24⟩ := rfl
        rw [List.getElem?_eq_none (by omega), List.getElem?_eq_none (by omega)]
    have hred := hplane 0 (by decide)
    have hgreen := hplane 1 (by decide)
    have hblue := hplane 2 (by decide)
    rw [planes_eq, planes_eq, hred, hgreen, hblue]

/-! ### Elements -/

/-- Images of the right length have the same element just if they show the same. -/
theorem Element.ofImage?_eq_iff {k : Kind} {image other : Bytes} (himage : image.length = k.archiveLength)
    (hother : other.length = k.archiveLength) :
    ofImage? k image = ofImage? k other ↔
      if k.depth = .color24 then k.SameColors image other else image = other := by
  have hsplit := Bytes.split?_self himage
  have hsplit' := Bytes.split?_self hother
  obtain ⟨size, depth⟩ := k
  by_cases hd : depth = .color24
  · subst hd
    rw [ofImage?_color24, ofImage?_color24, hsplit, hsplit', if_pos rfl,
      ← planes_eq_iff himage hother]
    simp
  · rw [ofImage?_of_ne hd, ofImage?_of_ne hd, hsplit, hsplit', if_neg hd]
    simp

theorem Element.ofIcon?_of_ne_mono {k : Kind} (hk : k.depth ≠ .mono) (i : Icon) :
    ofIcon? i k = (i.image? k).bind (ofImage? k) := by
  have hdependents : k.dependents = [] := by
    obtain ⟨size, depth⟩ := k
    cases depth with
    | mono => exact absurd rfl hk
    | _ => rfl
  rw [ofIcon?, hdependents]
  cases i.image? k <;> rfl

theorem Element.ofIcon?_eq_iff_sameImage {k : Kind} (hk : k.depth ≠ .mono) (i j : Icon) :
    ofIcon? i k = ofIcon? j k ↔ i.SameImage j k := by
  rw [ofIcon?_of_ne_mono hk, ofIcon?_of_ne_mono hk, Icon.SameImage]
  -- An image that is there has an element, so it cannot be taken for one that is not.
  cases himage : i.image? k with
  | none =>
    cases hother : j.image? k with
    | none => simp
    | some other =>
      obtain ⟨e, he, -⟩ := shows_ofImage? (Icon.length_of_image? hother)
      simp [he]
  | some image =>
    cases hother : j.image? k with
    | none =>
      obtain ⟨e, he, -⟩ := shows_ofImage? (Icon.length_of_image? himage)
      simp [he]
    | some other =>
      exact ofImage?_eq_iff (Icon.length_of_image? himage) (Icon.length_of_image? hother)

theorem Element.ofIcon?_of_mono {k : Kind} (hk : k.depth = .mono) (i : Icon) :
    ofIcon? i k = (i.oneBit? k).map fun data => ⟨k.tag, data⟩ := by
  obtain ⟨size, depth⟩ := k
  subst hk
  rw [ofIcon?, Icon.oneBit?]
  cases himage : i.image? ⟨size, .mono⟩ with
  | none =>
    have hdependents : (Kind.dependents ⟨size, .mono⟩).any i.has = true ↔
        i.has ⟨size, .indexed4⟩ ∨ i.has ⟨size, .indexed8⟩ := by
      simp [Kind.dependents]
    simp only [hdependents]
    split <;> rfl
  | some image =>
    have hd : Depth.mono ≠ .color24 := by decide
    show ofImage? ⟨size, .mono⟩ image = some ⟨_, image⟩
    rw [ofImage?_of_ne hd, Bytes.split?_self (Icon.length_of_image? himage)]
    rfl

theorem Element.ofIcon?_eq_iff_oneBit {k : Kind} (hk : k.depth = .mono) (i j : Icon) :
    ofIcon? i k = ofIcon? j k ↔ i.oneBit? k = j.oneBit? k := by
  rw [ofIcon?_of_mono hk, ofIcon?_of_mono hk]
  cases i.oneBit? k <;> cases j.oneBit? k <;> simp

/-! ### Families and files -/

theorem Element.ofIcon?_eq_iff (i j : Icon) : (∀ k, ofIcon? i k = ofIcon? j k) ↔ i.LooksLike j := by
  constructor
  · intro h
    exact ⟨fun k hk => (ofIcon?_eq_iff_sameImage hk i j).1 (h k),
      fun k hk => (ofIcon?_eq_iff_oneBit hk i j).1 (h k)⟩
  · intro h k
    by_cases hk : k.depth = .mono
    · exact (ofIcon?_eq_iff_oneBit hk i j).2 (h.oneBit k hk)
    · exact (ofIcon?_eq_iff_sameImage hk i j).2 (h.images k hk)

theorem Family.ofIcon_eq_iff (i j : Icon) : ofIcon i = ofIcon j ↔ i.LooksLike j := by
  rw [← Element.ofIcon?_eq_iff]
  constructor
  · intro h k
    rw [← find?_ofIcon, ← find?_ofIcon, h]
  · intro h
    rw [ofIcon, ofIcon, funext h]

/-- Nothing but the images of an icon goes into its family. -/
theorem Family.ofIcon_congr {i j : Icon} (h : ∀ k, i.image? k = j.image? k) : ofIcon i = ofIcon j := by
  have hhas : i.has = j.has := by
    funext k
    rw [i.has_eq_isSome, j.has_eq_isSome, h k]
  have helement : Element.ofIcon? i = Element.ofIcon? j := by
    funext k
    rw [Element.ofIcon?, Element.ofIcon?, h k, hhas]
  rw [ofIcon, ofIcon, helement]

theorem Family.bytes_ofIcon_eq_iff (i j : Icon) :
    (ofIcon i).bytes = (ofIcon j).bytes ↔ ofIcon i = ofIcon j := by
  constructor
  · intro h
    have hread := (read_ofIcon i).2
    rw [h, (read_ofIcon j).2, Except.ok.injEq, Prod.mk.injEq] at hread
    exact hread.1.symm
  · exact congrArg Family.bytes

/-- **Two icons have the same file just if they look alike.** So neither the places of
the images, nor what else is in the data, nor name and index make any difference. -/
theorem Family.write_ofIcon_eq_iff (i j : Icon) :
    ∃ file other, (ofIcon i).write = .ok file ∧ (ofIcon j).write = .ok other ∧
      (file = other ↔ i.LooksLike j) ∧ ((∀ k, i.image? k = j.image? k) → file = other) := by
  refine ⟨_, _, (read_ofIcon i).1, (read_ofIcon j).1, ?_, ?_⟩
  · rw [bytes_ofIcon_eq_iff, ofIcon_eq_iff]
  · intro h
    rw [ofIcon_congr h]

end Icns

/-- An icon with one 24-bit image, which is all of one colour; only the first of its
alphas can be any. -/
def Archive.Icon.tinted (index : Nat) (name : String) (front : Bytes) (alpha : UInt8) : Icon where
  index := index
  name := name
  data := front ++ alpha :: List.replicate 1023 7
  offset k := if k = ⟨.small, .color24⟩ then some front.length else none
  inside := by
    intro k start h
    split at h
    · rename_i hk
      cases hk
      cases h
      rw [List.length_append, List.length_cons, List.length_replicate]
      exact Nat.le_refl _
    · cases h

theorem Archive.Icon.image?_tinted (index : Nat) (name : String) (front : Bytes) (alpha : UInt8) (k : Kind) :
    (tinted index name front alpha).image? k =
      if k = ⟨.small, .color24⟩ then some (alpha :: List.replicate 1023 7) else none := by
  show Option.map (fun start => ((front ++ alpha :: List.replicate 1023 7).drop start).take k.archiveLength)
    (if k = ⟨.small, .color24⟩ then some front.length else none) = _
  by_cases hk : k = ⟨.small, .color24⟩
  · subst hk
    have hlength : (alpha :: List.replicate 1023 7).length ≤ Kind.archiveLength ⟨.small, .color24⟩ := by
      rw [List.length_cons, List.length_replicate]
      exact Nat.le_refl 1024
    rw [if_pos rfl, if_pos rfl, Option.map_some, List.drop_left, List.take_of_length_le hlength]
  · rw [if_neg hk, if_neg hk]
    rfl

theorem Archive.Icon.looksLike_tinted (index index' : Nat) (name name' : String) (front front' : Bytes)
    (alpha alpha' : UInt8) : (tinted index name front alpha).LooksLike (tinted index' name' front' alpha') where
  images := by
    intro k _
    rw [SameImage, image?_tinted, image?_tinted]
    by_cases hk : k = ⟨.small, .color24⟩
    · subst hk
      -- A colour is never the first byte of the image.
      intro pixel c _ _
      rw [show 4 * pixel + 1 + c = 4 * pixel + c + 1 by omega, List.getElem?_cons_succ,
        List.getElem?_cons_succ]
    · rw [if_neg hk, if_neg hk]
      trivial
  oneBit := by
    intro k hk
    have hne : k ≠ ⟨.small, .color24⟩ := by
      intro h
      rw [h] at hk
      cases hk
    simp [oneBit?, has_eq_isSome, image?_tinted, hne]

/-- Neither alpha nor anything around the image shows. -/
theorem Icns.Family.write_ofIcon_eq_iff_of_tinted :
    ∃ file, (ofIcon (.tinted 0 "a" [] 0)).write = .ok file ∧
      (ofIcon (.tinted 7 "b" [1, 2] 0xff)).write = .ok file := by
  obtain ⟨file, other, hfile, hother, hiff, -⟩ :=
    write_ofIcon_eq_iff (.tinted 0 "a" [] 0) (.tinted 7 "b" [1, 2] 0xff)
  rw [hiff.2 (Icon.looksLike_tinted ..)] at hfile
  exact ⟨other, hfile, hother⟩

end ClassicIcons
