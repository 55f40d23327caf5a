import ClassicIcons.Proofs.Icns.Appearance

/-! The colours of 24-bit images.

Of a 24-bit image an element holds the colours, all of them and nothing else: they come
out of its planes again, and another image has the same element just if it has the same
colours (`colors_ofImage?`). -/
namespace ClassicIcons.Icns
namespace Element

/-- All colours stand in the image itself. -/
theorem getElem?_take_color {k : Kind} (hk : k.depth = .color24) (image : Bytes) {pixel c : Nat}
    (hpixel : pixel < k.area) (hc : c < 3) :
    (image.take k.archiveLength)[4 * pixel + 1 + c]? = image[4 * pixel + 1 + c]? := by
  have hlength := archiveLength_of_color24 hk
  exact List.getElem?_take_of_lt (by omega)

theorem sameColors_take {k : Kind} (hk : k.depth = .color24) (image other : Bytes) :
    k.SameColors (image.take k.archiveLength) (other.take k.archiveLength) ↔ k.SameColors image other := by
  refine forall_congr' fun pixel => forall_congr' fun c => forall_congr' fun hpixel => forall_congr' fun hc => ?_
  rw [getElem?_take_color hk image hpixel hc, getElem?_take_color hk other hpixel hc]

/-- **An element holds the colours of a 24-bit image, and nothing else.** Taken apart again,
it has three bytes for each pixel, the red, the green and the blue one. Neither alpha nor
what stands behind the image makes any difference, and every colour does. -/
theorem colors_ofImage? {k : Kind} (hk : k.depth = .color24) {image : Bytes}
    (h : k.archiveLength ≤ image.length) :
    ∃ e rgb, ofImage? k image = some e ∧ e.colors = .ok rgb ∧ rgb.length = 3 * k.area ∧
      (∀ pixel c, pixel < k.area → c < 3 → rgb[3 * pixel + c]? = image[4 * pixel + 1 + c]?) ∧
      ∀ other : Bytes, k.archiveLength ≤ other.length →
        (ofImage? k image = ofImage? k other ↔ k.SameColors image other) := by
  have hfront : (image.take k.archiveLength).length = k.archiveLength := List.length_take_of_le h
  obtain ⟨e, he, hshows⟩ := shows_ofImage? hfront
  obtain ⟨rgb, hcolors, hlength, hrgb⟩ := hshows.colors hk
  refine ⟨e, rgb, (ofImage?_take k h).symm.trans he, hcolors, hlength, ?_, ?_⟩
  · intro pixel c hpixel hc
    rw [hrgb pixel c hc, getElem?_take_color hk image hpixel hc]
  · intro other hother
    have hfront' : (other.take k.archiveLength).length = k.archiveLength := List.length_take_of_le hother
    rw [← ofImage?_take k h, ← ofImage?_take k hother, ofImage?_eq_iff hfront hfront', if_pos hk,
      sameColors_take hk]

/-- The smallest 24-bit image, all of one colour under an alpha of its own, with something
behind it. -/
def tinted (alpha : UInt8) (behind : Bytes) : Bytes := alpha :: (List.replicate 1023 7 ++ behind)

theorem length_tinted (alpha : UInt8) (behind : Bytes) :
    Kind.archiveLength ⟨.small, .color24⟩ ≤ (tinted alpha behind).length := by
  have hlength : Kind.archiveLength ⟨.small, .color24⟩ = 1024 := rfl
  rw [tinted, List.length_cons, List.length_append, List.length_replicate]
  omega

theorem getElem?_tinted (alpha : UInt8) (behind : Bytes) {i : Nat} (h : i < 1023) :
    (tinted alpha behind)[i + 1]? = some 7 := by
  rw [tinted, List.getElem?_cons_succ, List.getElem?_append_left (by rw [List.length_replicate]; exact h),
    List.getElem?_replicate_of_lt h]

theorem sameColors_tinted (alpha other : UInt8) (behind behind' : Bytes) :
    Kind.SameColors ⟨.small, .color24⟩ (tinted alpha behind) (tinted other behind') := by
  intro pixel c hpixel hc
  have harea : Kind.area ⟨.small, .color24⟩ = 256 := rfl
  rw [show 4 * pixel + 1 + c = 4 * pixel + c + 1 by omega, getElem?_tinted alpha behind (by omega),
    getElem?_tinted other behind' (by omega)]

theorem colors_ofImage?_of_tinted :
    Kind.depth ⟨.small, .color24⟩ = .color24 ∧
      Kind.archiveLength ⟨.small, .color24⟩ ≤ (tinted 0xff [9]).length ∧
      ∃ e rgb, ofImage? ⟨.small, .color24⟩ (tinted 0xff [9]) = some e ∧
        ofImage? ⟨.small, .color24⟩ (tinted 0 []) = some e ∧
        e.colors = .ok rgb ∧ rgb.length = 768 ∧ rgb[0]? = some 7 ∧ rgb[767]? = some 7 := by
  obtain ⟨e, rgb, he, hcolors, hlength, hrgb, hsame⟩ :=
    colors_ofImage? (k := ⟨.small, .color24⟩) rfl (length_tinted 0xff [9])
  have hother := (hsame (tinted 0 []) (length_tinted 0 [])).2 (sameColors_tinted 0xff 0 [9] [])
  have hfirst := (hrgb 0 0 (by decide) (by decide)).trans (getElem?_tinted 0xff [9] (by decide))
  have hlast := (hrgb 255 2 (by decide) (by decide)).trans (getElem?_tinted 0xff [9] (by decide))
  exact ⟨rfl, length_tinted 0xff [9], e, rgb, he, hother ▸ he, hcolors, hlength, hfirst, hlast⟩

end Element
end ClassicIcons.Icns
