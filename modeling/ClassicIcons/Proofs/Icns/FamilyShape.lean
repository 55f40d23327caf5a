import ClassicIcons.Proofs.Icns.Appearance

/-! Which elements the family of an icon has, and in which order.

A family shows a kind of image if the icon has one, or if the kind is a one-bit one that
a palette image of its size needs (`Shown`). Those kinds are its elements, once each, in
the order of an icns file: one-bit images behind everything else. Images that are not
24-bit ones go in as they are, and only where a one-bit image is missing does a
placeholder stand (`shape_ofIcon`). -/
namespace ClassicIcons
open Archive (Icon)

/-- The icon has such an image, or needs one to stand in for it. -/
def Archive.Icon.Shown (i : Icon) (k : Kind) : Prop :=
  i.has k = true ∨
    k.depth = .mono ∧ (i.has ⟨k.size, .indexed4⟩ = true ∨ i.has ⟨k.size, .indexed8⟩ = true)

instance (i : Icon) : DecidablePred i.Shown := fun _ => inferInstanceAs (Decidable (_ ∨ _))

def Tag.IsOneBit (t : Tag) : Prop := ∃ size, t = Kind.tag ⟨size, .mono⟩

theorem Kind.isOneBit_tag {k : Kind} : k.tag.IsOneBit ↔ k.depth = .mono := by
  obtain ⟨size, depth⟩ := k
  constructor
  · intro h
    obtain ⟨size', htag⟩ := h
    exact congrArg Kind.depth (tag_injective htag)
  · intro h
    cases h
    exact ⟨size, rfl⟩

theorem Kind.nodup_icnsOrder : icnsOrder.Nodup := by decide

theorem Kind.icnsOrder_oneBitLast : icnsOrder.Pairwise fun j k => j.depth = .mono → k.depth = .mono := by
  decide

namespace Icns

/-- What a family must look like to show an icon. -/
structure Family.Shape (f : Family) (i : Icon) : Prop where
  order : f.elements.map Element.tag = (Kind.icnsOrder.filter fun k => i.Shown k).map Kind.tag
  distinct : (f.elements.map Element.tag).Nodup
  /-- Behind a one-bit image there are only others. -/
  oneBitLast : (f.elements.map Element.tag).Pairwise fun t u => t.IsOneBit → u.IsOneBit
  occurs_iff : ∀ k : Kind, (∃ e ∈ f.elements, e.tag = k.tag) ↔ i.Shown k
  find?_iff : ∀ k e, f.find? k = some e ↔ e ∈ f.elements ∧ e.tag = k.tag
  /-- A palette image never stands alone. -/
  companion : ∀ size,
    (∃ e ∈ f.elements, e.tag = Kind.tag ⟨size, .indexed4⟩ ∨ e.tag = Kind.tag ⟨size, .indexed8⟩) →
    ∃ e ∈ f.elements, e.tag = Kind.tag ⟨size, .mono⟩
  /-- A mask or a 24-bit image may. -/
  alone : ∀ size, (∀ depth, i.has ⟨size, depth⟩ = true → depth = .color24 ∨ depth = .mask8) →
    ∀ e ∈ f.elements, e.tag ≠ Kind.tag ⟨size, .mono⟩
  verbatim : ∀ k image, k.depth ≠ .color24 → i.image? k = some image → f.find? k = some ⟨k.tag, image⟩
  /-- A placeholder is black under a mask that covers everything. -/
  placeholder : ∀ k e, k.depth = .mono → i.has k = false → f.find? k = some e →
    e.data.length = k.icnsLength ∧
      e.data = List.replicate (k.icnsLength / 2) 0x00 ++ List.replicate (k.icnsLength / 2) 0xff

/-! ### Elements -/

theorem Element.isSome_ofIcon? {i : Icon} {k : Kind} : (ofIcon? i k).isSome = true ↔ i.Shown k := by
  by_cases hk : k.depth = .mono
  · rw [ofIcon?_of_mono hk, Option.isSome_map, Icon.oneBit?, Icon.Shown, Icon.has_eq_isSome i k]
    cases i.image? k <;> simp [hk]
  · have hshown : i.Shown k ↔ i.has k = true := or_iff_left fun h => hk h.1
    rw [ofIcon?_of_ne_mono hk, hshown, Icon.has_eq_isSome]
    cases himage : i.image? k with
    | none => exact Iff.rfl
    | some image =>
      obtain ⟨e, he, -⟩ := shows_ofImage? (Icon.length_of_image? himage)
      rw [Option.bind_some, he]
      exact Iff.rfl

/-- An image that is not a 24-bit one is its own element. -/
theorem Element.ofIcon?_of_image? {i : Icon} {k : Kind} {image : Bytes} (hk : k.depth ≠ .color24)
    (h : i.image? k = some image) : ofIcon? i k = some ⟨k.tag, image⟩ := by
  obtain ⟨e, he, hshows⟩ := shows_ofImage? (Icon.length_of_image? h)
  have hdata := hshows.bytes hk
  have htag := hshows.tag
  rw [ofIcon?, h]
  cases e
  cases hdata
  cases htag
  exact he

theorem Element.eq_placeholder_of_ofIcon? {i : Icon} {k : Kind} {e : Element} (h : i.has k = false)
    (he : ofIcon? i k = some e) : e = placeholder k := by
  rw [Icon.has_eq_isSome, Option.isSome_eq_false_iff, Option.isNone_iff_eq_none] at h
  simp only [ofIcon?, h] at he
  split at he
  · cases he
    rfl
  · cases he

/-- Image and mask of a one-bit image are of the same length. -/
theorem Element.data_placeholder {k : Kind} (hk : k.depth = .mono) :
    (placeholder k).data.length = k.icnsLength ∧ (placeholder k).data =
      List.replicate (k.icnsLength / 2) 0x00 ++ List.replicate (k.icnsLength / 2) 0xff := by
  have heven : k.icnsLength - k.icnsLength / 2 = k.icnsLength / 2 := by
    obtain ⟨size, depth⟩ := k
    cases hk
    cases size <;> rfl
  rw [placeholder, heven]
  refine ⟨?_, rfl⟩
  rw [List.length_append, List.length_replicate, List.length_replicate]
  omega

/-! ### Order -/

/-- Elements that are made kind by kind have the tags of their kinds. -/
theorem map_tag_filterMap {f : Kind → Option Element} (hf : ∀ k e, f k = some e → e.tag = k.tag)
    (kinds : List Kind) : (kinds.filterMap f).map Element.tag =
      (kinds.filter fun k => (f k).isSome).map Kind.tag := by
  induction kinds with
  | nil => rfl
  | cons k kinds ih =>
    cases he : f k with
    | none => rw [List.filterMap_cons_none he, List.filter_cons_of_neg (by simp [he]), ih]
    | some e =>
      rw [List.filterMap_cons_some he, List.filter_cons_of_pos (by simp [he]), List.map_cons,
        List.map_cons, hf k e he, ih]

theorem Family.map_tag_ofIcon (i : Icon) :
    (ofIcon i).elements.map Element.tag = (Kind.icnsOrder.filter fun k => i.Shown k).map Kind.tag := by
  rw [ofIcon, map_tag_filterMap fun _ _ => Element.tag_of_ofIcon?]
  congr 2
  funext k
  rw [Bool.eq_iff_iff, Element.isSome_ofIcon?, decide_eq_true_iff]

/-! ### Main statement -/

theorem Family.find?_ofIcon_iff {i : Icon} {k : Kind} {e : Element} :
    (ofIcon i).find? k = some e ↔ e ∈ (ofIcon i).elements ∧ e.tag = k.tag := by
  constructor
  · intro h
    have hfound := List.find?_some h
    exact ⟨List.mem_of_find?_eq_some h, of_decide_eq_true hfound⟩
  · intro h
    obtain ⟨hmem, htag⟩ := h
    obtain ⟨j, -, hj⟩ := List.mem_filterMap.1 hmem
    have hkind := Kind.tag_injective ((Element.tag_of_ofIcon? hj).symm.trans htag)
    rw [find?_ofIcon, ← hkind, hj]

theorem Family.mem_ofIcon_iff_shown {i : Icon} {k : Kind} :
    (∃ e ∈ (ofIcon i).elements, e.tag = k.tag) ↔ i.Shown k := by
  simp only [← find?_ofIcon_iff]
  rw [find?_ofIcon, ← Option.isSome_iff_exists, Element.isSome_ofIcon?]

/-- **A family shows the images of its icon and what they need, in the order of an icns
file.** -/
theorem Family.shape_ofIcon (i : Icon) : (ofIcon i).Shape i where
  order := map_tag_ofIcon i
  distinct := by
    rw [map_tag_ofIcon, List.Nodup, List.pairwise_map]
    refine (Kind.nodup_icnsOrder.filter _).imp ?_
    intro j k hne htag
    exact hne (Kind.tag_injective htag)
  oneBitLast := by
    rw [map_tag_ofIcon, List.pairwise_map]
    refine (Kind.icnsOrder_oneBitLast.filter _).imp ?_
    intro j k h
    rwa [Kind.isOneBit_tag, Kind.isOneBit_tag]
  occurs_iff _ := mem_ofIcon_iff_shown
  find?_iff _ _ := find?_ofIcon_iff
  companion size h := by
    obtain ⟨e, he, htag⟩ := h
    have hneeded : i.has ⟨size, .indexed4⟩ = true ∨ i.has ⟨size, .indexed8⟩ = true := by
      refine htag.imp (fun htag => ?_) fun htag => ?_
      · exact (mem_ofIcon_iff_shown.1 ⟨e, he, htag⟩).resolve_right fun h => nomatch h.1
      · exact (mem_ofIcon_iff_shown.1 ⟨e, he, htag⟩).resolve_right fun h => nomatch h.1
    exact mem_ofIcon_iff_shown.2 (.inr ⟨rfl, hneeded⟩)
  alone size h e he htag := by
    obtain hhas | ⟨-, hhas | hhas⟩ := mem_ofIcon_iff_shown.1 ⟨e, he, htag⟩
    · exact nomatch h _ hhas
    · exact nomatch h _ hhas
    · exact nomatch h _ hhas
  verbatim k image hk himage := by
    rw [find?_ofIcon, Element.ofIcon?_of_image? hk himage]
  placeholder k e hk hhas he := by
    rw [find?_ofIcon] at he
    rw [Element.eq_placeholder_of_ofIcon? hhas he]
    exact Element.data_placeholder hk

end Icns

/-- An icon whose images all lie over each other: two palette images, only one of which
has its one-bit image, and a mask. -/
def Archive.Icon.heaped : Icon where
  index := 0
  name := ""
  data := List.replicate 2304 7
  offset
    | ⟨.small, .indexed8⟩ => some 0
    | ⟨.large, .indexed4⟩ => some 1
    | ⟨.large, .mono⟩ => some 2
    | ⟨.huge, .mask8⟩ => some 0
    | _ => none
  inside := by
    intro k start h
    rw [List.length_replicate]
    obtain ⟨size, depth⟩ := k
    cases size <;> cases depth <;> cases h <;> decide

/-- One one-bit image is kept, another is made up, and a third is not needed. -/
theorem Icns.Family.shape_ofIcon_of_heaped :
    (ofIcon .heaped).elements.map Element.tag = [.ofChars 'i' 'c' 's' '8', .ofChars 'i' 'c' 'l' '4',
      .ofChars 'h' '8' 'm' 'k', .ofChars 'i' 'c' 's' '#', .ofChars 'I' 'C' 'N' '#'] ∧
    (ofIcon .heaped).find? ⟨.large, .mono⟩ = some ⟨.ofChars 'I' 'C' 'N' '#', List.replicate 256 7⟩ ∧
    (∃ e, (ofIcon .heaped).find? ⟨.small, .mono⟩ = some e ∧
      e.data = List.replicate 32 0x00 ++ List.replicate 32 0xff) ∧
    ∀ e ∈ (ofIcon .heaped).elements, e.tag ≠ .ofChars 'i' 'c' 'h' '#' := by
  have hshape := shape_ofIcon .heaped
  refine ⟨hshape.order.trans (by decide), hshape.verbatim ⟨.large, .mono⟩ _ (by decide) ?_, ?_,
    hshape.alone .huge ?_⟩
  · show some (((List.replicate 2304 7).drop 2).take 256) = some (List.replicate 256 7)
    rw [List.drop_replicate, List.take_replicate]
    rfl
  · obtain ⟨e, hmem, htag⟩ := (hshape.occurs_iff ⟨.small, .mono⟩).2 (by decide)
    have hfound := (hshape.find?_iff _ e).2 ⟨hmem, htag⟩
    exact ⟨e, hfound, (hshape.placeholder _ e rfl (by decide) hfound).2⟩
  · intro depth h
    cases depth with
    | mask8 => exact .inr rfl
    | mono | indexed4 | indexed8 | color24 => cases h

end ClassicIcons
