import ClassicIcons.Proofs.Icns.Colors

/-! Which data are the planes of a 24-bit image.

A plane is a row of complete groups for just as many bytes as the image has pixels
(`IsPlane`), so no group reaches from one plane into the next. The reader takes all of a
plane and nothing behind it (`plane_eq_ok_iff`); hence an element has colours just if its
data are three planes, and nothing else (`colors_eq_ok_iff`). Nothing can be cut off such
data or added to them, but there are many ways to pack the same colours: packed again,
from an image with any alpha, they need not have the same data (`colors_read`). -/
namespace ClassicIcons.Icns
open RunLength (Flavour Grouped expand)
namespace Element

/-- Complete groups that stand for these values, one for each of `area` pixels. -/
structure IsPlane (area : Nat) (packed values : Bytes) : Prop where
  grouped : ∃ groups, Grouped .icns groups packed ∧ expand groups = values
  length : values.length = area

/-- The data are three planes, one behind another, and nothing more. A pixel has three
bytes, one from each plane. -/
structure Planar (area : Nat) (data rgb : Bytes) : Prop where
  planes : ∃ p q r red green blue, data = p ++ (q ++ r) ∧
    IsPlane area p red ∧ IsPlane area q green ∧ IsPlane area r blue ∧
    ∀ i < area, rgb[3 * i]? = red[i]? ∧ rgb[3 * i + 1]? = green[i]? ∧ rgb[3 * i + 2]? = blue[i]?
  length : rgb.length = 3 * area

/-! ### Taking planes off -/

theorem plane_eq_ok_iff {area : Nat} {b values rest : Bytes} :
    plane area b = .ok (values, rest) ↔ ∃ packed, IsPlane area packed values ∧ b = packed ++ rest := by
  have hunpack : plane area b = .ok (values, rest) ↔ Flavour.icns.unpack b area = .ok (values, rest) := by
    unfold plane
    cases Flavour.icns.unpack b area with
    | error e => simp only [reduceCtorEq]
    | ok result =>
      obtain ⟨found, behind⟩ := result
      simp only [Except.ok.injEq, Prod.mk.injEq]
  rw [hunpack, Flavour.unpack_eq_ok_iff]
  constructor
  · intro h
    obtain ⟨groups, packed, hgrouped, rfl, hexpand, hlength⟩ := h
    exact ⟨packed, ⟨⟨groups, hgrouped, hexpand⟩, hlength⟩, rfl⟩
  · intro h
    obtain ⟨packed, ⟨⟨groups, hgrouped, hexpand⟩, hlength⟩, rfl⟩ := h
    exact ⟨groups, packed, hgrouped, rfl, hexpand, hlength⟩

theorem kind_of_plane {area : Nat} {b : Bytes} {err : Error} (h : plane area b = .error err) :
    err.kind = .invalidData := by
  unfold plane at h
  split at h
  · cases h
  · rename_i e _
    cases h
    cases e <;> rfl

/-- Takes three planes off the front. -/
def threePlanes (area : Nat) : Reader Error (Bytes × Bytes × Bytes) := do
  let red ← plane area
  let green ← plane area
  let blue ← plane area
  return (red, green, blue)

theorem kind_of_threePlanes {area : Nat} {b : Bytes} {err : Error} (h : threePlanes area b = .error err) :
    err.kind = .invalidData := by
  simp only [threePlanes, Reader.bind_eq_error_iff, Reader.pure_ne_error, and_false, exists_false,
    or_false] at h
  obtain h | ⟨_, _, -, h | ⟨_, _, -, h⟩⟩ := h
  · exact kind_of_plane h
  · exact kind_of_plane h
  · exact kind_of_plane h

theorem threePlanes_eq_ok_iff {area : Nat} {b rest red green blue : Bytes} :
    threePlanes area b = .ok ((red, green, blue), rest) ↔
      ∃ p q r, IsPlane area p red ∧ IsPlane area q green ∧ IsPlane area r blue ∧
        b = p ++ (q ++ (r ++ rest)) := by
  simp only [threePlanes, Reader.bind_eq_ok_iff, Reader.pure_eq_ok_iff, plane_eq_ok_iff]
  constructor
  · intro h
    obtain ⟨_, _, ⟨p, hp, rfl⟩, _, _, ⟨q, hq, rfl⟩, _, _, ⟨r, hr, rfl⟩, heq, rfl⟩ := h
    cases heq
    exact ⟨p, q, r, hp, hq, hr, rfl⟩
  · intro h
    obtain ⟨p, q, r, hp, hq, hr, rfl⟩ := h
    exact ⟨red, _, ⟨p, hp, rfl⟩, green, _, ⟨q, hq, rfl⟩, blue, _, ⟨r, hr, rfl⟩, rfl, rfl⟩

/-- The colours are those of three planes with nothing behind them. -/
theorem colors_eq (size : Size) (data : Bytes) :
    colors ⟨Kind.tag ⟨size, .color24⟩, data⟩ =
      match threePlanes (Kind.area ⟨size, .color24⟩) data with
      | .ok ((red, green, blue), rest) =>
        if rest = [] then .ok (interleave red green blue) else .error .trailingData
      | .error err => .error err := by
  simp only [colors, kind?, Kind.ofTag?_tag, threePlanes, bind, StateT.bind, Except.bind]
  cases plane (Kind.area ⟨size, .color24⟩) data with
  | error err => rfl
  | ok first =>
    simp only
    cases plane (Kind.area ⟨size, .color24⟩) first.2 with
    | error err => rfl
    | ok second =>
      simp only
      cases plane (Kind.area ⟨size, .color24⟩) second.2 with
      | error err => rfl
      | ok third => rfl

/-! ### Colours -/

/-- Pixels of three bytes are known by these. -/
theorem eq_of_pixels {area : Nat} {rgb rgb' : Bytes} (h : rgb.length = 3 * area)
    (h' : rgb'.length = 3 * area) (heq : ∀ i < area, ∀ c < 3, rgb[3 * i + c]? = rgb'[3 * i + c]?) :
    rgb = rgb' := by
  apply List.ext_getElem?
  intro j
  by_cases hj : j < 3 * area
  · have hplace := heq (j / 3) (by omega) (j % 3) (by omega)
    rwa [Nat.div_add_mod] at hplace
  · rw [List.getElem?_eq_none (by omega), List.getElem?_eq_none (by omega)]

theorem planar_append {area : Nat} {p q r red green blue : Bytes} (hp : IsPlane area p red)
    (hq : IsPlane area q green) (hr : IsPlane area r blue) :
    Planar area (p ++ (q ++ r)) (interleave red green blue) := by
  have hgreen := hq.length.trans hp.length.symm
  have hblue := hr.length.trans hp.length.symm
  refine ⟨⟨p, q, r, red, green, blue, rfl, hp, hq, hr, fun i _ => getElem?_interleave hgreen hblue i⟩, ?_⟩
  rw [length_interleave hgreen hblue, hp.length]

/-- Three planes are taken off, whatever stands behind them. -/
theorem Planar.threePlanes {area : Nat} {data rgb : Bytes} (h : Planar area data rgb) (more : Bytes) :
    ∃ red green blue, threePlanes area (data ++ more) = .ok ((red, green, blue), more) ∧
      interleave red green blue = rgb := by
  obtain ⟨⟨p, q, r, red, green, blue, rfl, hp, hq, hr, hpixels⟩, hlength⟩ := h
  have hplanar := planar_append hp hq hr
  refine ⟨red, green, blue, ?_, eq_of_pixels hplanar.length hlength fun i hi c hc => ?_⟩
  · exact threePlanes_eq_ok_iff.2 ⟨p, q, r, hp, hq, hr, by simp only [List.append_assoc]⟩
  · obtain ⟨h0, h1, h2⟩ := hpixels i hi
    obtain ⟨h0', h1', h2'⟩ :=
      getElem?_interleave (hq.length.trans hp.length.symm) (hr.length.trans hp.length.symm) i
    match c, hc with
    | 0, _ => exact h0'.trans h0.symm
    | 1, _ => exact h1'.trans h1.symm
    | 2, _ => exact h2'.trans h2.symm

/-- Nothing can be added to three planes. -/
theorem Planar.eq_nil_of_append {area : Nat} {data more rgb rgb' : Bytes} (h : Planar area data rgb)
    (h' : Planar area (data ++ more) rgb') : more = [] := by
  obtain ⟨_, _, _, hplanes, -⟩ := h.threePlanes more
  obtain ⟨_, _, _, hplanes', -⟩ := h'.threePlanes []
  rw [List.append_nil, hplanes] at hplanes'
  cases hplanes'
  rfl

/-- **An element has colours just if its data are three planes.** -/
theorem colors_eq_ok_iff {size : Size} {data rgb : Bytes} :
    colors ⟨Kind.tag ⟨size, .color24⟩, data⟩ = .ok rgb ↔
      Planar (Kind.area ⟨size, .color24⟩) data rgb := by
  rw [colors_eq]
  constructor
  · intro h
    split at h
    · rename_i red green blue rest hplanes
      split at h
      · rename_i hrest
        subst hrest
        cases h
        obtain ⟨p, q, r, hp, hq, hr, rfl⟩ := threePlanes_eq_ok_iff.1 hplanes
        rw [List.append_nil]
        exact planar_append hp hq hr
      · cases h
    · cases h
  · intro h
    obtain ⟨red, green, blue, hplanes, rfl⟩ := h.threePlanes []
    rw [List.append_nil] at hplanes
    rw [hplanes]
    rfl

theorem kind_of_colors {size : Size} {data : Bytes} {err : Error}
    (h : colors ⟨Kind.tag ⟨size, .color24⟩, data⟩ = .error err) : err.kind = .invalidData := by
  rw [colors_eq] at h
  split at h
  · split at h
    · cases h
    · cases h
      rfl
  · rename_i hplanes
    cases h
    exact kind_of_threePlanes hplanes

theorem tag_of_ofTag? {t : Tag} {k : Kind} (h : Kind.ofTag? t = some k) : t = k.tag := by
  have hfound := List.find?_some h
  exact (of_decide_eq_true hfound).symm

theorem colors_of_ne {e : Element} (h : ∀ size, e.tag ≠ Kind.tag ⟨size, .color24⟩) :
    e.colors = .error (.notColor24 e.tag) := by
  unfold colors
  split
  · rename_i size hkind
    exact absurd (tag_of_ofTag? hkind) (h size)
  · rfl

/-! ### Packing again -/

/-- Pixels of four bytes, an alpha before the three colours. -/
def withAlpha : (alpha rgb : Bytes) → Bytes
  | a :: alpha, r :: g :: b :: rgb => a :: r :: g :: b :: withAlpha alpha rgb
  | _, _ => []

theorem length_withAlpha {alpha rgb : Bytes} (h : rgb.length = 3 * alpha.length) :
    (withAlpha alpha rgb).length = 4 * alpha.length := by
  induction alpha generalizing rgb with
  | nil => rfl
  | cons a alpha ih =>
    match rgb, h with
    | r :: g :: b :: rgb, h =>
      have htail : rgb.length = 3 * alpha.length := by
        simp only [List.length_cons] at h
        omega
      have hrest := ih htail
      simp only [withAlpha, List.length_cons]
      omega

/-- The colours of a pixel stand behind its alpha. -/
theorem getElem?_withAlpha {alpha rgb : Bytes} (h : rgb.length = 3 * alpha.length) (i : Nat) {c : Nat}
    (hc : c < 3) : (withAlpha alpha rgb)[4 * i + 1 + c]? = rgb[3 * i + c]? := by
  induction alpha generalizing rgb i with
  | nil =>
    rw [List.length_eq_zero_iff.1 h]
    rfl
  | cons a alpha ih =>
    match rgb, h with
    | r :: g :: b :: rgb, h =>
      have htail : rgb.length = 3 * alpha.length := by
        simp only [List.length_cons] at h
        omega
      have hrest := ih htail
      cases i with
      | zero =>
        match c, hc with
        | 0, _ => rfl
        | 1, _ => rfl
        | 2, _ => rfl
      | succ i =>
        rw [show 4 * (i + 1) + 1 + c = 4 * i + 1 + c + 4 by omega,
          show 3 * (i + 1) + c = 3 * i + c + 3 by omega]
        exact hrest i

/-- Colours that are packed again can be taken apart again. -/
theorem exists_ofImage?_withAlpha {size : Size} {alpha rgb : Bytes}
    (halpha : alpha.length = Kind.area ⟨size, .color24⟩) (hrgb : rgb.length = 3 * alpha.length) :
    ∃ e, ofImage? ⟨size, .color24⟩ (withAlpha alpha rgb) = some e ∧ e.colors = .ok rgb := by
  have harchive : Kind.archiveLength ⟨size, .color24⟩ = 4 * Kind.area ⟨size, .color24⟩ := rfl
  have hlength : (withAlpha alpha rgb).length = Kind.archiveLength ⟨size, .color24⟩ := by
    rw [length_withAlpha hrgb, harchive, halpha]
  obtain ⟨e, he, hshows⟩ := shows_ofImage? hlength
  obtain ⟨rgb', hcolors, hlength', hpixels⟩ := hshows.colors rfl
  have hsame : rgb' = rgb := by
    refine eq_of_pixels hlength' (halpha ▸ hrgb) fun i _ c hc => ?_
    rw [hpixels i c hc, getElem?_withAlpha hrgb i hc]
  exact ⟨e, he, hsame ▸ hcolors⟩

/-! ### Main statement -/

/-- All that is known of the colours of an element. -/
structure ColorsRead (e : Element) : Prop where
  /-- Elements with another tag are refused, whatever their data. -/
  refused_iff : (∃ err, e.colors = .error err ∧ err.kind = .invalidInput) ↔
    ∀ size, e.tag ≠ Kind.tag ⟨size, .color24⟩
  ok_iff : ∀ size, e.tag = Kind.tag ⟨size, .color24⟩ → ∀ rgb,
    e.colors = .ok rgb ↔ Planar (Kind.area ⟨size, .color24⟩) e.data rgb
  malformed : ∀ size, e.tag = Kind.tag ⟨size, .color24⟩ →
    (¬ ∃ rgb, Planar (Kind.area ⟨size, .color24⟩) e.data rgb) →
    ∃ err, e.colors = .error err ∧ err.kind = .invalidData
  /-- Nothing is left of the colours when anything is cut off the data. -/
  cut : ∀ rgb, e.colors = .ok rgb → ∀ n < e.data.length,
    ∃ err, colors ⟨e.tag, e.data.take n⟩ = .error err ∧ err.kind = .invalidData
  grown : ∀ rgb, e.colors = .ok rgb → ∀ more, more ≠ [] →
    ∃ err, colors ⟨e.tag, e.data ++ more⟩ = .error err ∧ err.kind = .invalidData
  /-- The same colours come back from an image with any alpha. -/
  again : ∀ size, e.tag = Kind.tag ⟨size, .color24⟩ → ∀ rgb, e.colors = .ok rgb →
    ∀ alpha : Bytes, alpha.length = Kind.area ⟨size, .color24⟩ →
      ∃ e', ofImage? ⟨size, .color24⟩ (withAlpha alpha rgb) = some e' ∧ e'.colors = .ok rgb

theorem exists_error_of_not_planar {size : Size} {data : Bytes}
    (h : ¬ ∃ rgb, Planar (Kind.area ⟨size, .color24⟩) data rgb) :
    ∃ err, colors ⟨Kind.tag ⟨size, .color24⟩, data⟩ = .error err ∧ err.kind = .invalidData := by
  cases hcolors : colors ⟨Kind.tag ⟨size, .color24⟩, data⟩ with
  | error err => exact ⟨err, rfl, kind_of_colors hcolors⟩
  | ok rgb => exact absurd ⟨rgb, colors_eq_ok_iff.1 hcolors⟩ h

theorem exists_size_of_colors {e : Element} {rgb : Bytes} (h : e.colors = .ok rgb) :
    ∃ size, e.tag = Kind.tag ⟨size, .color24⟩ := by
  apply Classical.byContradiction
  intro hne
  rw [colors_of_ne fun size hsize => hne ⟨size, hsize⟩] at h
  cases h

/-- **Colours are read from three planes and from nothing else.** -/
theorem colors_read (e : Element) : e.ColorsRead where
  refused_iff := by
    constructor
    · intro h size hsize
      obtain ⟨tag, data⟩ := e
      obtain ⟨err, herr, hkind⟩ := h
      cases hsize
      rw [kind_of_colors herr] at hkind
      cases hkind
    · intro h
      exact ⟨_, colors_of_ne h, rfl⟩
  ok_iff size h rgb := by
    obtain ⟨tag, data⟩ := e
    cases h
    exact colors_eq_ok_iff
  malformed size h hnot := by
    obtain ⟨tag, data⟩ := e
    cases h
    exact exists_error_of_not_planar hnot
  cut rgb h n hn := by
    obtain ⟨tag, data⟩ := e
    obtain ⟨size, hsize⟩ := exists_size_of_colors h
    cases hsize
    refine exists_error_of_not_planar fun hfront => ?_
    obtain ⟨rgb', hfront⟩ := hfront
    have hwhole := colors_eq_ok_iff.1 h
    rw [← List.take_append_drop n data] at hwhole
    have hnil := hfront.eq_nil_of_append hwhole
    exact Nat.not_le.2 hn (List.drop_eq_nil_iff.1 hnil)
  grown rgb h more hmore := by
    obtain ⟨tag, data⟩ := e
    obtain ⟨size, hsize⟩ := exists_size_of_colors h
    cases hsize
    refine exists_error_of_not_planar fun hgrown => ?_
    obtain ⟨rgb', hgrown⟩ := hgrown
    exact hmore ((colors_eq_ok_iff.1 h).eq_nil_of_append hgrown)
  again size h rgb hcolors alpha halpha := by
    obtain ⟨tag, data⟩ := e
    cases h
    exact exists_ofImage?_withAlpha halpha (halpha ▸ (colors_eq_ok_iff.1 hcolors).length)

/-- A plane of one colour, packed into two runs of half its length. A packer would make the
first of them longer. -/
def halves (value : UInt8) : Bytes := [0xfd, value, 0xfd, value]

theorem isPlane_halves (value : UInt8) : IsPlane 256 (halves value) (List.replicate 256 value) where
  grouped := by
    have hrun : RunLength.Complete .icns (.run 128 value) [0xfd, value] := .run (c := 0xfd) (by decide)
    refine ⟨[.run 128 value, .run 128 value], .cons hrun (.cons hrun .nil), ?_⟩
    show List.replicate 128 value ++ (List.replicate 128 value ++ []) = List.replicate 256 value
    rw [List.append_nil, List.replicate_append_replicate]
  length := List.length_replicate

/-- The smallest 24-bit image, all of one colour, made of such planes. -/
def halved : Element := ⟨Kind.tag ⟨.small, .color24⟩, halves 1 ++ (halves 2 ++ halves 3)⟩

def halvedColors : Bytes :=
  interleave (List.replicate 256 1) (List.replicate 256 2) (List.replicate 256 3)

theorem planar_halved : Planar 256 halved.data halvedColors :=
  planar_append (isPlane_halves 1) (isPlane_halves 2) (isPlane_halves 3)

set_option maxRecDepth 20000 in
/-- Packed again, the same colours have other data. -/
theorem colors_read_of_halved :
    halved.colors = .ok halvedColors ∧
      (∃ err, colors ⟨halved.tag, halved.data.take 11⟩ = .error err ∧ err.kind = .invalidData) ∧
      (∃ err, colors ⟨halved.tag, halved.data ++ [0]⟩ = .error err ∧ err.kind = .invalidData) ∧
      (∃ e, ofImage? ⟨.small, .color24⟩ (withAlpha (List.replicate 256 0x80) halvedColors) = some e ∧
        e.colors = .ok halvedColors ∧ e.data ≠ halved.data) ∧
      ∃ err, colors ⟨.ofChars 'q' 'u' 'u' 'x', halved.data⟩ = .error err ∧ err.kind = .invalidInput := by
  have hhalved := colors_read halved
  have hcolors := (hhalved.ok_iff .small rfl halvedColors).2 planar_halved
  refine ⟨hcolors, hhalved.cut halvedColors hcolors 11 (by decide),
    hhalved.grown halvedColors hcolors [0] (by simp), ?_, (colors_read _).refused_iff.2 ?_⟩
  · obtain ⟨e, he, hagain⟩ :=
      hhalved.again .small rfl halvedColors hcolors (List.replicate 256 0x80) List.length_replicate
    have hdata : (ofImage? ⟨.small, .color24⟩ (withAlpha (List.replicate 256 0x80) halvedColors)).map
        Element.data = some [0xff, 1, 0xfb, 1, 0xff, 2, 0xfb, 2, 0xff, 3, 0xfb, 3] := by cbv
    rw [he, Option.map_some, Option.some.injEq] at hdata
    exact ⟨e, he, hagain, by rw [hdata]; decide⟩
  · intro size
    cases size <;> decide

end Element
end ClassicIcons.Icns
