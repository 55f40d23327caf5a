import ClassicIcons.Archive.Build
import ClassicIcons.Proofs.Archive.Images

/-! Icons made of pictures.

The images of a picture stand in its data one behind another, so each is found again
where those before it end (`Picture.image?_icon`). Both versions say where that is, each
in its own way: the first stores the offsets themselves, and the second a bit for each
kind that is there. Read as an archive reads them, both are the offsets of the
picture (`legacyOffset_storedOffsets`, `packedOffset_presence`). -/
namespace ClassicIcons.Archive
namespace Picture

variable (p : Picture)

/-- All images are of these kinds. -/
def Within (kinds : List Kind) : Prop := ∀ k, p.has k = true → k ∈ kinds

theorem has_iff {p : Picture} {k : Kind} : p.has k = true ↔ ∃ image, p.image? k = some image :=
  Option.isSome_iff_exists

/-! ### Data -/

theorem data_append (order order' : List Kind) : p.data (order ++ order') = p.data order ++ p.data order' :=
  List.flatMap_append

theorem data_cons (k : Kind) (order : List Kind) :
    p.data (k :: order) = (p.image? k).getD [] ++ p.data order := rfl

/-- The length of the images of some kinds. -/
def lengthOf (order : List Kind) : Nat := order.foldr (fun k length => k.archiveLength + length) 0

theorem lengthOf_cons (k : Kind) (order : List Kind) :
    lengthOf (k :: order) = k.archiveLength + lengthOf order := rfl

theorem lengthOf_append (order order' : List Kind) :
    lengthOf (order ++ order') = lengthOf order + lengthOf order' := by
  induction order with
  | nil => exact (Nat.zero_add _).symm
  | cons k order ih => rw [List.cons_append, lengthOf_cons, lengthOf_cons, ih, Nat.add_assoc]

theorem length_data_le (order : List Kind) : (p.data order).length ≤ lengthOf order := by
  induction order with
  | nil => exact Nat.zero_le _
  | cons k order ih =>
    rw [data_cons, List.length_append, lengthOf, List.foldr_cons, ← lengthOf]
    apply Nat.add_le_add _ ih
    cases h : p.image? k with
    | none => exact Nat.zero_le _
    | some image => exact Nat.le_of_eq (p.image_length k image h)

theorem takeWhile_append_cons {order : List Kind} {k : Kind} (hk : k ∈ order) :
    ∃ rest, order = order.takeWhile (· ≠ k) ++ k :: rest := by
  induction order with
  | nil => cases hk
  | cons j order ih =>
    by_cases hj : j = k
    · subst hj
      exact ⟨order, by simp⟩
    · have hk' : k ∈ order := (List.mem_cons.1 hk).resolve_left fun h => hj h.symm
      obtain ⟨rest, hrest⟩ := ih hk'
      refine ⟨rest, ?_⟩
      rw [List.takeWhile_cons_of_pos (by simpa using hj), List.cons_append, ← hrest]

/-- An image stands in the data behind those before it. -/
theorem data_around {p : Picture} {order : List Kind} {k : Kind} (hk : k ∈ order) {image : Bytes}
    (h : p.image? k = some image) :
    ∃ rest, p.data order = p.data (order.takeWhile (· ≠ k)) ++ (image ++ rest) := by
  obtain ⟨after, hafter⟩ := takeWhile_append_cons hk
  have hdata := congrArg p.data hafter
  rw [data_append, data_cons, h] at hdata
  exact ⟨p.data after, hdata⟩

theorem offset?_inside {p : Picture} {order : List Kind} (hp : p.Within order) (k : Kind) (start : Nat)
    (h : p.offset? order k = some start) : start + k.archiveLength ≤ (p.data order).length := by
  obtain ⟨image, himage, rfl⟩ := Option.map_eq_some_iff.1 h
  obtain ⟨rest, hdata⟩ := data_around (hp k (has_iff.2 ⟨image, himage⟩)) himage
  rw [hdata, List.length_append, List.length_append, p.image_length k image himage]
  omega

/-! ### Icons -/

/-- The icon that a picture makes. -/
def icon (index : Nat) {order : List Kind} (hp : p.Within order) : Icon :=
  ⟨index, Text.decode p.name, p.data order, p.offset? order, offset?_inside hp⟩

/-- **An icon has the images of its picture.** -/
theorem image?_icon (index : Nat) {order : List Kind} (hp : p.Within order) (k : Kind) :
    (p.icon index hp).image? k = p.image? k := by
  show (p.offset? order k).map (fun start => ((p.data order).drop start).take k.archiveLength) = _
  rw [offset?, Option.map_map]
  cases h : p.image? k with
  | none => rfl
  | some image =>
    obtain ⟨rest, hdata⟩ := data_around (hp k (has_iff.2 ⟨image, h⟩)) h
    have hlength := p.image_length k image h
    show some (((p.data order).drop (p.data (order.takeWhile (· ≠ k))).length).take k.archiveLength) = _
    rw [hdata, List.drop_left, ← hlength, List.take_left]

theorem of_eq_icon (index : Nat) {order : List Kind} (hp : p.Within order) :
    Icon.of index (Text.decode p.name) (p.data order) (p.offset? order) = .ok (p.icon index hp) :=
  Icon.of_of_inside index (Text.decode p.name) (offset?_inside hp)

/-! ### Stored offsets -/

/-- The offsets of the first version. -/
def storedOffsets : Vector UInt16 6 :=
  ⟨(Kind.legacy.map fun k => UInt16.ofNat (p.storedOffset k)).toArray, rfl⟩

theorem lookup_zip_map {α β : Type} [BEq α] [LawfulBEq α] (f : α → β) (keys : List α) (k : α) :
    (keys.zip (keys.map f)).lookup k = if k ∈ keys then some (f k) else none := by
  induction keys with
  | nil => rfl
  | cons j keys ih =>
    rw [List.map_cons, List.zip_cons_cons, List.lookup_cons, ih]
    by_cases hj : k = j
    · subst hj
      simp
    · rw [beq_false_of_ne hj]
      simp [hj]

theorem offset?_le (order : List Kind) {k : Kind} {start : Nat} (h : p.offset? order k = some start) :
    start ≤ (p.data order).length := by
  obtain ⟨image, -, rfl⟩ := Option.map_eq_some_iff.1 h
  have hdata := congrArg p.data (List.takeWhile_append_dropWhile (p := (· ≠ k)) (l := order))
  rw [data_append] at hdata
  rw [← hdata, List.length_append]
  exact Nat.le_add_right _ _

/-- An offset that the first version stores fits in two bytes. -/
theorem storedOffset_lt (k : Kind) : p.storedOffset k < UInt16.size := by
  have hname := p.name_length
  have hdata := p.length_data_le Kind.legacy
  have hsum : lengthOf Kind.legacy = 2240 := by decide
  unfold storedOffset
  cases h : p.offset? Kind.legacy k with
  | none => exact (by decide : 0 < UInt16.size)
  | some start =>
    have hstart := p.offset?_le Kind.legacy h
    show start + (p.name.length + 17) < 65536
    omega

/-- Stored offsets are those of the images, none where there is no image. -/
theorem legacyOffset_storedOffsets {p : Picture} (hp : p.Within Kind.legacy) :
    Layout.legacyOffset p.storedOffsets p.name.length = p.offset? Kind.legacy := by
  funext k
  have hlookup : (Kind.legacy.zip p.storedOffsets.toList).lookup k = _ :=
    lookup_zip_map (fun k => UInt16.ofNat (p.storedOffset k)) Kind.legacy k
  have hstored : (UInt16.ofNat (p.storedOffset k)).toNat = p.storedOffset k :=
    UInt16.toNat_ofNat_of_lt' (p.storedOffset_lt k)
  rw [Layout.legacyOffset, hlookup]
  by_cases hk : k ∈ Kind.legacy
  · rw [if_pos hk, Option.bind_some, hstored, storedOffset]
    cases h : p.offset? Kind.legacy k with
    | none => rfl
    | some start =>
      show (if p.name.length + 17 ≤ start + (p.name.length + 17) then
        some (start + (p.name.length + 17) - (p.name.length + 17)) else none) = some start
      rw [if_pos (Nat.le_add_left _ _), Nat.add_sub_cancel]
  · have hnone : p.image? k = none := by
      cases h : p.image? k with
      | none => rfl
      | some image => exact absurd (hp k (has_iff.2 ⟨image, h⟩)) hk
    rw [if_neg hk, offset?, hnone]
    rfl

/-! ### Presence -/

/-- Each kind has a bit of its own. -/
theorem testBit_presenceMask (j k : Kind) :
    j.presenceMask.toNat.testBit k.presenceBit = decide (j = k) := by
  have h : ∀ j ∈ Kind.all, ∀ k ∈ Kind.all,
      j.presenceMask.toNat.testBit k.presenceBit = decide (j = k) := by decide
  exact h j j.mem_all k k.mem_all

theorem testBit_foldl_presenceMask (kinds : List Kind) (bits : UInt16) (k : Kind) :
    (kinds.foldl (fun bits j => bits ||| j.presenceMask) bits).toNat.testBit k.presenceBit =
      (bits.toNat.testBit k.presenceBit || decide (k ∈ kinds)) := by
  induction kinds generalizing bits with
  | nil => simp
  | cons j kinds ih =>
    rw [List.foldl_cons, ih, UInt16.toNat_or, Nat.testBit_or, testBit_presenceMask, Bool.or_assoc]
    congr 1
    simp only [List.mem_cons, eq_comm, Bool.decide_or]

theorem presentKinds_presence : Layout.presentKinds p.presence = Kind.all.filter p.has := by
  apply List.filter_congr
  intro k _
  rw [presence, testBit_foldl_presenceMask]
  simp [k.mem_all]

/-- Kinds without an image take no place. -/
theorem data_filter (order : List Kind) :
    lengthOf (order.filter p.has) = (p.data order).length := by
  induction order with
  | nil => rfl
  | cons k order ih =>
    rw [data_cons, List.length_append, ← ih]
    cases h : p.image? k with
    | none =>
      have hk : ¬ p.has k = true := by simp [has, h]
      rw [List.filter_cons_of_neg hk]
      simp
    | some image =>
      have hk : p.has k = true := has_iff.2 ⟨image, h⟩
      rw [List.filter_cons_of_pos hk, lengthOf, List.foldr_cons, ← p.image_length k image h]
      rfl

/-- Behind the images of the kinds before it stands an image in the data. -/
theorem packedOffset_presence :
    Layout.packedOffset (Layout.presentKinds p.presence) = p.offset? Kind.all := by
  funext k
  rw [presentKinds_presence, Layout.packedOffset]
  cases h : p.image? k with
  | none =>
    have hk : ¬ k ∈ Kind.all.filter p.has := by simp [has, h]
    rw [if_neg hk, offset?, h]
    rfl
  | some image =>
    have hhas : p.has k = true := has_iff.2 ⟨image, h⟩
    have hk : k ∈ Kind.all.filter p.has := List.mem_filter.2 ⟨k.mem_all, hhas⟩
    have hbefore : (fun j => !p.has j || decide (j ≠ k)) = fun j => decide (j ≠ k) := by
      funext j
      by_cases hj : j = k
      · subst hj
        simp [hhas]
      · simp [hj]
    rw [if_pos hk, List.takeWhile_filter, hbefore, ← lengthOf, data_filter, offset?, h]
    rfl

end Picture
end ClassicIcons.Archive
