import ClassicIcons.Icns.Conversion
import ClassicIcons.Proofs.Icns.RoundTrip
import ClassicIcons.Proofs.Icns.Sizes

/-! The family of an icon.

Each kind has one element in it at most, and that is the one that the kind is
looked up by (`find?_ofIcon`): the image if the icon has one, or a placeholder if
it is a one-bit image that another one needs; there is nothing else in a family
(`mem_elements_ofIcon`). No icon has images enough to make
a file that is too long for its header, so every family that is built from an icon
can be written, and read again (`read_ofIcon`). -/
namespace ClassicIcons
open Archive (Icon)
namespace Icns

theorem Element.tag_of_ofImage? {k : Kind} {image : Bytes} {e : Element}
    (h : ofImage? k image = some e) : e.tag = k.tag := by
  unfold ofImage? at h
  split at h
  · obtain ⟨_, -, rfl⟩ := Option.map_eq_some_iff.1 h
    rfl
  · obtain ⟨_, -, rfl⟩ := Option.map_eq_some_iff.1 h
    rfl

theorem Element.tag_of_ofIcon? {i : Icon} {k : Kind} {e : Element} (h : ofIcon? i k = some e) :
    e.tag = k.tag := by
  unfold ofIcon? at h
  split at h
  · exact tag_of_ofImage? h
  · split at h
    · cases h
      rfl
    · cases h

/-! ### Looking up -/

/-- Tags tell the kinds apart, so the first element of a kind is the only one. -/
theorem find?_filterMap {f : Kind → Option Element} (hf : ∀ k e, f k = some e → e.tag = k.tag)
    (kinds : List Kind) (k : Kind) :
    (kinds.filterMap f).find? (fun e => e.tag = k.tag) = if k ∈ kinds then f k else none := by
  induction kinds with
  | nil => rfl
  | cons j kinds ih =>
    by_cases hj : j = k
    · subst hj
      rw [if_pos (List.mem_cons_self ..)]
      cases he : f j with
      | none =>
        rw [List.filterMap_cons_none he, ih, he]
        exact ite_self none
      | some e =>
        rw [List.filterMap_cons_some he]
        exact List.find?_cons_of_pos (decide_eq_true (hf j e he))
    · have hmem : k ∈ j :: kinds ↔ k ∈ kinds := by
        rw [List.mem_cons]
        exact or_iff_right fun h => hj h.symm
      simp only [hmem]
      rw [← ih]
      cases he : f j with
      | none => rw [List.filterMap_cons_none he]
      | some e =>
        have htag : ¬ e.tag = k.tag := by
          intro h
          rw [hf j e he] at h
          exact hj (Kind.tag_injective h)
        rw [List.filterMap_cons_some he]
        exact List.find?_cons_of_neg (by simpa using htag)

/-- **A kind is looked up by the one element that was built for it.** -/
theorem Family.find?_ofIcon (i : Icon) (k : Kind) :
    (ofIcon i).find? k = Element.ofIcon? i k := by
  have h := find?_filterMap (f := Element.ofIcon? i) (fun _ _ => Element.tag_of_ofIcon?)
    Kind.icnsOrder k
  rw [if_pos k.mem_icnsOrder] at h
  exact h

/-! ### Elements -/

/-- Only a one-bit image can be needed by others. -/
theorem mono_of_dependents {k j : Kind} (h : j ∈ k.dependents) : k.depth = .mono := by
  obtain ⟨size, depth⟩ := k
  cases depth with
  | mono => rfl
  | indexed4 | indexed8 | color24 | mask8 => cases h

/-- A family shows every image of its icon. -/
theorem Family.exists_find?_ofIcon {i : Icon} {k : Kind} (h : k ∈ i.kinds) :
    ∃ image e, i.image? k = some image ∧ (ofIcon i).find? k = some e ∧ e.Shows k image := by
  have hhas := (List.mem_filter.1 h).2
  rw [i.has_eq_isSome] at hhas
  obtain ⟨image, himage⟩ := Option.isSome_iff_exists.1 hhas
  obtain ⟨e, he, hshows⟩ := Element.shows_ofImage? (Icon.length_of_image? himage)
  refine ⟨image, e, himage, ?_, hshows⟩
  rw [find?_ofIcon, Element.ofIcon?, himage]
  exact he

/-- **There is nothing in a family but images of its icon and placeholders.** -/
theorem Family.mem_elements_ofIcon {i : Icon} {e : Element} (h : e ∈ (ofIcon i).elements) :
    (∃ k ∈ i.kinds, e.tag = k.tag) ∨ ∃ k : Kind, k.depth = .mono ∧ k ∉ i.kinds ∧ e = .placeholder k := by
  obtain ⟨k, -, hk⟩ := List.mem_filterMap.1 h
  have htag := Element.tag_of_ofIcon? hk
  have hkinds : k ∈ i.kinds ↔ (i.image? k).isSome = true := by
    rw [← i.has_eq_isSome, Icon.kinds, List.mem_filter]
    exact and_iff_right k.mem_all
  cases himage : i.image? k with
  | some image => exact .inl ⟨k, hkinds.2 (by rw [himage]; rfl), htag⟩
  | none =>
    simp only [Element.ofIcon?, himage] at hk
    split at hk
    · rename_i hneeded
      obtain ⟨j, hj, -⟩ := List.any_eq_true.1 hneeded
      cases hk
      exact .inr ⟨k, mono_of_dependents hj, by rw [hkinds, himage]; exact Bool.false_ne_true, rfl⟩
    · cases hk

/-! ### Writing -/

theorem Element.length_of_ofIcon? {i : Icon} {k : Kind} {e : Element} (h : ofIcon? i k = some e) :
    e.totalLength ≤ 8 + 9216 := by
  have hk := k.archiveLength_le
  unfold ofIcon? at h
  split at h
  · have hdata := length_of_ofImage? h
    simp only [totalLength, headerLength]
    omega
  · split at h
    · cases h
      have hicns := k.icnsLength_le_archiveLength
      simp only [totalLength, headerLength, placeholder, List.length_append, List.length_replicate]
      omega
    · cases h

theorem Family.lengthOf_filterMap_le {f : Kind → Option Element} {bound : Nat}
    (hf : ∀ k e, f k = some e → e.totalLength ≤ bound) (kinds : List Kind) :
    lengthOf (kinds.filterMap f) ≤ kinds.length * bound := by
  induction kinds with
  | nil => exact Nat.zero_le _
  | cons k kinds ih =>
    rw [List.length_cons, Nat.succ_mul]
    cases he : f k with
    | none =>
      rw [List.filterMap_cons_none he]
      omega
    | some e =>
      have hlength := hf k e he
      rw [List.filterMap_cons_some he, lengthOf_cons]
      omega

theorem Family.totalLength_ofIcon_lt (i : Icon) : (ofIcon i).totalLength < UInt32.size := by
  have h := lengthOf_filterMap_le (f := Element.ofIcon? i) (fun _ _ => Element.length_of_ofIcon?)
    Kind.icnsOrder
  have hcount : Kind.icnsOrder.length = 15 := rfl
  rw [hcount] at h
  rw [totalLength_eq]
  show 8 + lengthOf (Kind.icnsOrder.filterMap (Element.ofIcon? i)) < 4294967296
  omega

/-- **The family of an icon can be written and read again.** -/
theorem Family.read_ofIcon (i : Icon) :
    (ofIcon i).write = .ok (ofIcon i).bytes ∧ read (ofIcon i).bytes = .ok (ofIcon i, []) := by
  have hlength := totalLength_ofIcon_lt i
  have hread := read_bytes hlength []
  rw [List.append_nil] at hread
  exact ⟨if_pos hlength, hread⟩

end Icns
end ClassicIcons
