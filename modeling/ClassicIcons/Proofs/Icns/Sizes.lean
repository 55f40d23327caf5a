import ClassicIcons.Proofs.Icns.Planes
import ClassicIcons.Proofs.RunLength.Sizes

/-! How long the element of an image is.

A 24-bit image is a quarter alpha, which is left out of its planes, and packing adds to
each of these one byte for every 128 of them at most. The quarter is more than that
(`planes_fit`), so the data of an element is never longer than the image that it was made of
(`length_of_ofImage?`). `packed_lengths` says this together with what it comes from, the
bounds on all packed bytes. -/
namespace ClassicIcons.Icns
namespace Element

theorem length_planes_le {n : Nat} {image : Bytes} (h : image.length = 4 * n) :
    (planes image).length ≤ 3 * (n + n ⌈/⌉ RunLength.maxLiteral) := by
  have hplane (byte : Nat) (hbyte : byte < 4) :
      (RunLength.Flavour.icns.pack ((channel byte).samples image)).length ≤
        n + n ⌈/⌉ RunLength.maxLiteral := by
    have hpack := RunLength.Flavour.icns.length_pack_le ((channel byte).samples image)
    rw [length_samples_channel byte hbyte h] at hpack
    exact hpack
  have hred := hplane 1 (by decide)
  have hgreen := hplane 2 (by decide)
  have hblue := hplane 3 (by decide)
  simp only [planes_eq, List.length_append]
  omega

/-- The alpha that is left out makes room for all that packing can add. -/
theorem planes_fit (k : Kind) : 3 * (k.area + k.area ⌈/⌉ RunLength.maxLiteral) ≤ 4 * k.area := by
  obtain ⟨size, depth⟩ := k
  cases size <;> cases depth <;> decide

theorem length_of_ofImage?_color24 {k : Kind} (hk : k.depth = .color24) {image : Bytes} {e : Element}
    (h : ofImage? k image = some e) : e.data.length ≤ 3 * (k.area + k.area ⌈/⌉ RunLength.maxLiteral) := by
  obtain ⟨size, depth⟩ := k
  subst hk
  rw [ofImage?_color24] at h
  obtain ⟨⟨argb, rest⟩, hsplit, rfl⟩ := Option.map_eq_some_iff.1 h
  exact length_planes_le (Bytes.split?_eq_some_iff.1 hsplit).2

/-- **No element is longer than its image.** -/
theorem length_of_ofImage? {k : Kind} {image : Bytes} {e : Element} (h : ofImage? k image = some e) :
    e.data.length ≤ k.archiveLength := by
  by_cases hk : k.depth = .color24
  · have hlength := length_of_ofImage?_color24 hk h
    rw [archiveLength_of_color24 hk]
    exact Nat.le_trans hlength (planes_fit k)
  · rw [ofImage?_of_ne hk] at h
    obtain ⟨⟨data, rest⟩, hsplit, rfl⟩ := Option.map_eq_some_iff.1 h
    exact Nat.le_of_eq (Bytes.split?_eq_some_iff.1 hsplit).2

/-- There is an element for every image that is long enough. -/
theorem exists_ofImage? {k : Kind} {image : Bytes} (h : k.archiveLength ≤ image.length) :
    ∃ e, ofImage? k image = some e := by
  obtain ⟨e, he, -⟩ := shows_ofImage? (List.length_take_of_le h)
  exact ⟨e, (ofImage?_take k h).symm.trans he⟩

/-- **How long packed bytes are, and the elements that are made of them.** In either flavour
packing makes at least two bytes for every longest run, whole or begun, that the bytes could
fill, and adds at most one byte for every 128, whole or begun. Bytes without a run get the
most, and equal bytes the least, unless two are left over. So every 24-bit image has an
element, with no more than a byte in each plane for a pixel and one for every 128 pixels,
whole or begun; and the four bytes that the image has for each pixel are room enough. -/
theorem packed_lengths :
    (∀ (f : RunLength.Flavour) (b : Bytes),
      2 * (b.length ⌈/⌉ f.maxRun) ≤ (f.pack b).length ∧
        (f.pack b).length ≤ b.length + b.length ⌈/⌉ 128) ∧
    (∀ (f : RunLength.Flavour) (b : Bytes), (∀ i, ¬RunLength.TripleAt b i) →
      (f.pack b).length = b.length + b.length ⌈/⌉ 128) ∧
    (∀ (f : RunLength.Flavour) (n : Nat) (value : UInt8), n % f.maxRun ≠ 2 →
      (f.pack (List.replicate n value)).length = 2 * (n ⌈/⌉ f.maxRun)) ∧
    ∀ (k : Kind) (image : Bytes), k.depth = .color24 → k.archiveLength ≤ image.length →
      ∃ e, ofImage? k image = some e ∧ e.data.length ≤ 3 * (k.area + k.area ⌈/⌉ 128) ∧
        3 * (k.area + k.area ⌈/⌉ 128) ≤ 4 * k.area ∧ 4 * k.area = k.archiveLength := by
  refine ⟨?_, ?_, ?_, ?_⟩
  · exact fun f b => ⟨f.le_length_pack b, f.length_pack_le b⟩
  · exact fun f b hplain => f.length_pack_of_plain hplain
  · exact fun f n value hleft => f.length_pack_replicate value hleft
  · intro k image hk hlength
    obtain ⟨e, he⟩ := exists_ofImage? hlength
    exact ⟨e, he, length_of_ofImage?_color24 hk he, planes_fit k, (archiveLength_of_color24 hk).symm⟩

/-- The smallest 24-bit image, its pixels of two colours in turn. -/
def striped : Bytes := (List.range 1024).map fun place => UInt8.ofNat (place / 4 % 2)

theorem length_striped : striped.length = Kind.archiveLength ⟨.small, .color24⟩ := by
  rw [striped, List.length_map, List.length_range]
  rfl

theorem getElem?_striped {place : Nat} {value : UInt8} (h : striped[place]? = some value) :
    value = UInt8.ofNat (place / 4 % 2) := by
  rw [striped, List.getElem?_map, Option.map_eq_some_iff] at h
  obtain ⟨_, hplace, rfl⟩ := h
  obtain ⟨_, rfl⟩ := List.getElem?_eq_some_iff.1 hplace
  rw [List.getElem_range]

/-- No plane of it has a run. -/
theorem not_tripleAt_striped {byte : Nat} (hbyte : byte < 4) (i : Nat) :
    ¬RunLength.TripleAt ((channel byte).samples striped) i := by
  rintro ⟨value, hfirst, hnext, -⟩
  rw [getElem?_samples_channel] at hfirst hnext
  have hvalue := (getElem?_striped hfirst).symm.trans (getElem?_striped hnext)
  have hpixel : (4 * i + byte) / 4 = i := by omega
  have hpixel' : (4 * (i + 1) + byte) / 4 = i + 1 := by omega
  rw [hpixel, hpixel'] at hvalue
  rcases Nat.mod_two_eq_zero_or_one i with h | h
  · rw [h, Nat.succ_mod_two_eq_one_iff.2 h] at hvalue
    exact absurd hvalue (by decide)
  · rw [h, Nat.succ_mod_two_eq_zero_iff.2 h] at hvalue
    exact absurd hvalue (by decide)

/-- Each plane of the image is as long as it could be, and a plane of one colour as short. -/
theorem packed_lengths_of_striped :
    Kind.depth ⟨.small, .color24⟩ = .color24 ∧
      Kind.archiveLength ⟨.small, .color24⟩ ≤ striped.length ∧
      (∀ i, ¬RunLength.TripleAt ((channel 1).samples striped) i) ∧
      256 % RunLength.Flavour.icns.maxRun ≠ 2 ∧
      (RunLength.Flavour.icns.pack (List.replicate 256 7)).length = 4 ∧
      ∃ e, ofImage? ⟨.small, .color24⟩ striped = some e ∧ e.data.length ≤ 3 * (256 + 2) ∧
        3 * (256 + 2) ≤ 4 * 256 ∧ 4 * 256 = striped.length ∧ e.data.length = 774 := by
  obtain ⟨-, hplain, hequal, himage⟩ := packed_lengths
  have hlength : Kind.archiveLength ⟨.small, .color24⟩ ≤ striped.length := Nat.le_of_eq length_striped.symm
  have hleft : 256 % RunLength.Flavour.icns.maxRun ≠ 2 := by decide
  obtain ⟨e, he, hmost, hfit, hroom⟩ := himage ⟨.small, .color24⟩ striped rfl hlength
  have hplanes : e.data = planes striped := by
    rw [ofImage?_color24, Bytes.split?_self length_striped] at he
    cases he
    rfl
  have hplane (byte : Nat) (hbyte : byte < 4) :
      (RunLength.Flavour.icns.pack ((channel byte).samples striped)).length = 256 + 256 ⌈/⌉ 128 := by
    rw [hplain _ _ (not_tripleAt_striped hbyte), length_samples_channel byte hbyte length_striped]
    rfl
  refine ⟨rfl, hlength, not_tripleAt_striped (by decide), hleft, hequal _ 256 7 hleft, e, he, hmost,
    hfit, hroom.trans length_striped.symm, ?_⟩
  rw [hplanes, planes_eq, List.length_append, List.length_append, hplane 1 (by decide),
    hplane 2 (by decide), hplane 3 (by decide)]
  rfl

end Element
end ClassicIcons.Icns
