import ClassicIcons.Icns.Element
import ClassicIcons.Proofs.RunLength.RoundTrip

/-! What an element keeps of an image.

Nothing behind an image is kept (`ofImage?_take`). Most images are kept byte for byte.
Of a 24-bit image the element has three packed planes; unpacked again, they are the
image without its alpha, pixel by pixel and colour by colour. `shows_ofImage?` says both
of every kind: no image of the right length is refused, and none loses anything but
alpha. -/
namespace ClassicIcons.Icns
namespace Element

/-! ### Planes -/

/-- Three bytes for each pixel, one from each plane. -/
theorem getElem?_interleave {red green blue : Bytes} (hg : green.length = red.length)
    (hb : blue.length = red.length) (i : Nat) :
    (interleave red green blue)[3 * i]? = red[i]? ∧
      (interleave red green blue)[3 * i + 1]? = green[i]? ∧
      (interleave red green blue)[3 * i + 2]? = blue[i]? := by
  induction red generalizing green blue i with
  | nil =>
    rw [List.length_eq_zero_iff.1 hg, List.length_eq_zero_iff.1 hb]
    simp [interleave]
  | cons r red ih =>
    obtain ⟨g, green, rfl⟩ := List.exists_cons_of_length_eq_add_one hg
    obtain ⟨b, blue, rfl⟩ := List.exists_cons_of_length_eq_add_one hb
    simp only [List.length_cons, Nat.add_right_cancel_iff] at hg hb
    cases i with
    | zero => simp [interleave]
    | succ i =>
      rw [show 3 * (i + 1) = 3 * i + 3 by omega]
      simp only [interleave, List.getElem?_cons_succ]
      exact ih hg hb i

theorem length_interleave {red green blue : Bytes} (hg : green.length = red.length)
    (hb : blue.length = red.length) : (interleave red green blue).length = 3 * red.length := by
  induction red generalizing green blue with
  | nil =>
    rw [List.length_eq_zero_iff.1 hg, List.length_eq_zero_iff.1 hb]
    rfl
  | cons r red ih =>
    obtain ⟨g, green, rfl⟩ := List.exists_cons_of_length_eq_add_one hg
    obtain ⟨b, blue, rfl⟩ := List.exists_cons_of_length_eq_add_one hb
    simp only [List.length_cons, Nat.add_right_cancel_iff] at hg hb
    have hrest := ih hg hb
    simp only [interleave, List.length_cons]
    omega

theorem plane_pack (b rest : Bytes) :
    plane b.length (RunLength.Flavour.icns.pack b ++ rest) = .ok (b, rest) := by
  rw [plane, RunLength.Flavour.unpack_pack]

theorem getElem?_samples_channel (byte : Nat) (image : Bytes) (i : Nat) :
    ((channel byte).samples image)[i]? = image[4 * i + byte]? := by
  have hplace : (channel byte).base + i * (channel byte).stride = 4 * i + byte := by
    show byte + i * 4 = 4 * i + byte
    omega
  rw [RunLength.Sampling.getElem?_samples, hplace]

theorem length_samples_channel (byte : Nat) {n : Nat} (hbyte : byte < 4) {image : Bytes}
    (h : image.length = 4 * n) : ((channel byte).samples image).length = n := by
  have hat (i : Nat) : i < ((channel byte).samples image).length ↔ byte + i * 4 < 4 * n := by
    rw [← h]
    exact (channel byte).lt_length_samples_iff image i
  have hn := hat n
  have hlength := hat ((channel byte).samples image).length
  omega

/-- The planes of an image, one behind another. -/
def planes (image : Bytes) : Bytes := RunLength.Flavour.icns.streams image channels

theorem foldl_append_channels (image : Bytes) :
    channels.foldl (fun data c => RunLength.Flavour.icns.append data image c) [] = planes image := by
  simp only [channels, planes, RunLength.Flavour.streams, List.foldl_cons, List.foldl_nil,
    RunLength.Flavour.append_eq, List.flatMap_cons, List.flatMap_nil, List.nil_append,
    List.append_nil, List.append_assoc]

theorem planes_eq (image : Bytes) :
    planes image = RunLength.Flavour.icns.pack ((channel 1).samples image) ++
      (RunLength.Flavour.icns.pack ((channel 2).samples image) ++
        RunLength.Flavour.icns.pack ((channel 3).samples image)) := by
  simp only [planes, RunLength.Flavour.streams, channels, List.flatMap_cons, List.flatMap_nil,
    List.append_nil]

/-- Three planes of one length are taken apart. -/
theorem colors_of_planes {size : Size} {red green blue : Bytes}
    (hred : red.length = Kind.area ⟨size, .color24⟩) (hgreen : green.length = red.length)
    (hblue : blue.length = red.length) :
    colors ⟨Kind.tag ⟨size, .color24⟩, RunLength.Flavour.icns.pack red ++
      (RunLength.Flavour.icns.pack green ++ RunLength.Flavour.icns.pack blue)⟩ =
      .ok (interleave red green blue) := by
  have hfirst := plane_pack red (RunLength.Flavour.icns.pack green ++ RunLength.Flavour.icns.pack blue)
  have hsecond := plane_pack green (RunLength.Flavour.icns.pack blue)
  have hthird := plane_pack blue []
  rw [hgreen, hred] at hsecond
  rw [hblue, hred, List.append_nil] at hthird
  rw [hred] at hfirst
  simp only [colors, kind?, Kind.ofTag?_tag, hfirst, hsecond, hthird, bind, Except.bind]
  rfl

/-- **The planes of an image are its colours**: unpacked, they have three bytes for
each pixel, the last three that the image has for it. -/
theorem colors_planes {size : Size} {image : Bytes}
    (h : image.length = 4 * Kind.area ⟨size, .color24⟩) :
    ∃ rgb, colors ⟨Kind.tag ⟨size, .color24⟩, planes image⟩ = .ok rgb ∧
      rgb.length = 3 * Kind.area ⟨size, .color24⟩ ∧
      ∀ i c, c < 3 → rgb[3 * i + c]? = image[4 * i + 1 + c]? := by
  have hred := length_samples_channel 1 (by decide) h
  have hgreen := (length_samples_channel 2 (by decide) h).trans hred.symm
  have hblue := (length_samples_channel 3 (by decide) h).trans hred.symm
  refine ⟨interleave ((channel 1).samples image) ((channel 2).samples image)
    ((channel 3).samples image), ?_, ?_, ?_⟩
  · rw [planes_eq, colors_of_planes hred hgreen hblue]
  · rw [length_interleave hgreen hblue, hred]
  · intro i c hc
    obtain ⟨h0, h1, h2⟩ := getElem?_interleave hgreen hblue i
    match c, hc with
    | 0, _ => rw [Nat.add_zero, h0, getElem?_samples_channel]
    | 1, _ => rw [h1, getElem?_samples_channel]
    | 2, _ => rw [h2, getElem?_samples_channel]

/-! ### Images -/

/-- The length of a 24-bit image: four bytes for each pixel. -/
theorem archiveLength_of_color24 {k : Kind} (hk : k.depth = .color24) : k.archiveLength = 4 * k.area := by
  obtain ⟨size, depth⟩ := k
  subst hk
  rfl

/-- The element shows an image of a kind: it has the image itself, or for a 24-bit
image the colours of its pixels. -/
structure Shows (e : Element) (k : Kind) (image : Bytes) : Prop where
  tag : e.tag = k.tag
  bytes : k.depth ≠ .color24 → e.data = image
  colors : k.depth = .color24 → ∃ rgb, e.colors = .ok rgb ∧ rgb.length = 3 * k.area ∧
    ∀ i c, c < 3 → rgb[3 * i + c]? = image[4 * i + 1 + c]?

theorem ofImage?_color24 (size : Size) (image : Bytes) :
    ofImage? ⟨size, .color24⟩ image = (image.split? (Kind.archiveLength ⟨size, .color24⟩)).map
      fun (argb, _) => ⟨Kind.tag ⟨size, .color24⟩, planes argb⟩ := by
  simp only [ofImage?, foldl_append_channels]

theorem ofImage?_of_ne {k : Kind} (h : k.depth ≠ .color24) (image : Bytes) :
    ofImage? k image = (image.split? k.archiveLength).map fun (data, _) => ⟨k.tag, data⟩ := by
  obtain ⟨size, depth⟩ := k
  cases depth <;> first | rfl | exact absurd rfl h

/-- What stands behind an image does not count. -/
theorem ofImage?_take (k : Kind) {image : Bytes} (h : k.archiveLength ≤ image.length) :
    ofImage? k (image.take k.archiveLength) = ofImage? k image := by
  have hfront : (image.take k.archiveLength).length = k.archiveLength := List.length_take_of_le h
  have hfound : image.split? k.archiveLength = some (image.take k.archiveLength, image.drop k.archiveLength) :=
    Bytes.split?_eq_some_iff.2 ⟨(List.take_append_drop _ _).symm, hfront⟩
  obtain ⟨size, depth⟩ := k
  by_cases hd : depth = .color24
  · subst hd
    rw [ofImage?_color24, ofImage?_color24, Bytes.split?_self hfront, hfound]
    rfl
  · rw [ofImage?_of_ne hd, ofImage?_of_ne hd, Bytes.split?_self hfront, hfound]
    rfl

/-- **Every image of the right length is shown by an element.** -/
theorem shows_ofImage? {k : Kind} {image : Bytes} (h : image.length = k.archiveLength) :
    ∃ e, ofImage? k image = some e ∧ e.Shows k image := by
  have hsplit := Bytes.split?_self h
  obtain ⟨size, depth⟩ := k
  by_cases hd : depth = .color24
  · subst hd
    refine ⟨⟨Kind.tag ⟨size, .color24⟩, planes image⟩, ?_, rfl, fun hd => absurd rfl hd,
      fun _ => colors_planes h⟩
    rw [ofImage?_color24, hsplit]
    rfl
  · refine ⟨⟨Kind.tag ⟨size, depth⟩, image⟩, ?_, rfl, fun _ => rfl, fun hd' => absurd hd' hd⟩
    rw [ofImage?_of_ne hd, hsplit]
    rfl

end Element
end ClassicIcons.Icns
