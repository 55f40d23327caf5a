import ClassicIcons.Proofs.Archive.Faults
import ClassicIcons.Proofs.RunLength.Grammar

/-! Records of the first version.

The header of such a record has an offset for each of six kinds. It counts from 17 bytes
and the length of the name before the data, and a smaller one stands for a missing image
(`Layout.legacyOffset_slot`); so both what is there and where it is depend on the length
of the name. A longer name makes no difference once the offsets are adapted to it
(`Layout.legacyOffset_moved`). -/
namespace ClassicIcons

/-- The kind that has this place in the table of offsets. -/
def Kind.slot (j : Fin 6) : Kind := Kind.legacy.get j

theorem Kind.exists_slot {k : Kind} (h : k ∈ Kind.legacy) : ∃ j, Kind.slot j = k := List.mem_iff_get.1 h

namespace Archive

/-! ### Offsets -/

/-- The value at the place of a key. -/
theorem lookup_zip_of_getElem? {α β : Type} [BEq α] [LawfulBEq α] {keys : List α} (hkeys : keys.Nodup)
    {values : List β} {i : Nat} {k : α} {v : β} (hk : keys[i]? = some k) (hv : values[i]? = some v) :
    (keys.zip values).lookup k = some v := by
  induction keys generalizing values i with
  | nil => cases hk
  | cons j keys ih =>
    obtain ⟨hj, hkeys⟩ := List.nodup_cons.1 hkeys
    cases values with
    | nil => cases hv
    | cons w values =>
      cases i with
      | zero =>
        cases hk
        cases hv
        rw [List.zip_cons_cons, List.lookup_cons_self]
      | succ i =>
        rw [List.getElem?_cons_succ] at hk hv
        have hne : k ≠ j := fun h => hj (h ▸ List.mem_of_getElem? hk)
        rw [List.zip_cons_cons, List.lookup_cons, beq_false_of_ne hne]
        exact ih hkeys hk hv

namespace Layout

theorem legacyOffset_slot (offsets : Vector UInt16 6) (nameLength : Nat) (j : Fin 6) :
    legacyOffset offsets nameLength (Kind.slot j) =
      if nameLength + legacyBias ≤ offsets[j].toNat then some (offsets[j].toNat - (nameLength + legacyBias))
      else none := by
  have hkeys : Kind.legacy.Nodup := by decide
  have hk : Kind.legacy[j.val]? = some (Kind.slot j) := List.getElem?_eq_getElem j.isLt
  have hv : offsets.toList[j.val]? = some offsets[j] := by simp
  rw [legacyOffset, lookup_zip_of_getElem? hkeys hk hv]
  rfl

theorem legacyOffset_of_not_mem (offsets : Vector UInt16 6) (nameLength : Nat) {k : Kind}
    (h : k ∉ Kind.legacy) : legacyOffset offsets nameLength k = none := by
  have hnone : (Kind.legacy.zip offsets.toList).lookup k = none := by
    apply List.lookup_eq_none_iff.2
    intro entry hentry
    have hmem := (List.of_mem_zip hentry).1
    exact bne_iff_ne.2 fun hk => h (hk ▸ hmem)
  rw [legacyOffset, hnone]
  rfl

/-- All images lie inside if those of the table do. -/
theorem inside_legacyOffset_iff {offsets : Vector UInt16 6} {nameLength size : Nat} :
    Icon.Inside size (legacyOffset offsets nameLength) ↔
      ∀ j : Fin 6, nameLength + legacyBias ≤ offsets[j].toNat →
        offsets[j].toNat - (nameLength + legacyBias) + (Kind.slot j).archiveLength ≤ size := by
  constructor
  · intro h j hj
    exact h (Kind.slot j) _ ((legacyOffset_slot offsets nameLength j).trans (if_pos hj))
  · intro h k start hstart
    by_cases hk : k ∈ Kind.legacy
    · obtain ⟨j, rfl⟩ := Kind.exists_slot hk
      rw [legacyOffset_slot] at hstart
      by_cases hj : nameLength + legacyBias ≤ offsets[j].toNat
      · rw [if_pos hj] at hstart
        cases hstart
        exact h j hj
      · rw [if_neg hj] at hstart
        cases hstart
    · rw [legacyOffset_of_not_mem offsets nameLength hk] at hstart
      cases hstart

/-- The first image that reaches past the end has the first place in the table of all
that do. -/
theorem exists_slot_of_find? {offsets : Vector UInt16 6} {nameLength size : Nat} {k : Kind}
    (h : Kind.all.find? (Icon.overruns size (legacyOffset offsets nameLength)) = some k) :
    ∃ j, Kind.slot j = k ∧
      ∀ i < j, Icon.overruns size (legacyOffset offsets nameLength) (Kind.slot i) = false := by
  have hpresent (k : Kind) (hk : decide (k ∈ Kind.legacy) = false) :
      legacyOffset offsets nameLength k = none :=
    legacyOffset_of_not_mem offsets nameLength (of_decide_eq_false hk)
  have hlegacy : Kind.all.filter (fun k => decide (k ∈ Kind.legacy)) = Kind.legacy := by decide
  rw [Icon.find?_overruns hpresent, hlegacy] at h
  obtain ⟨-, i, hi, rfl, hbefore⟩ := List.find?_eq_some_iff_getElem.1 h
  refine ⟨⟨i, hi⟩, rfl, fun j hj => ?_⟩
  have hfits := hbefore j.val hj
  rw [Bool.not_eq_true'] at hfits
  exact hfits

theorem start_moved {base delta stored stored' : Nat}
    (h : stored' = if base ≤ stored then stored + delta else stored) :
    (if base + delta ≤ stored' then some (stored' - (base + delta)) else none) =
      if base ≤ stored then some (stored - base) else none := by
  by_cases hbase : base ≤ stored
  · rw [if_pos hbase] at h
    rw [h, if_pos (Nat.add_le_add_right hbase delta), if_pos hbase, Nat.add_sub_add_right]
  · rw [if_neg hbase] at h
    rw [h, if_neg (by omega), if_neg hbase]

/-- An offset that moves with the name is that of the same place in the data. -/
theorem legacyOffset_moved {offsets offsets' : Vector UInt16 6} {nameLength delta : Nat}
    (h : ∀ j : Fin 6, offsets'[j].toNat =
      if nameLength + legacyBias ≤ offsets[j].toNat then offsets[j].toNat + delta else offsets[j].toNat) :
    legacyOffset offsets' (nameLength + delta) = legacyOffset offsets nameLength := by
  funext k
  by_cases hk : k ∈ Kind.legacy
  · obtain ⟨j, rfl⟩ := Kind.exists_slot hk
    rw [legacyOffset_slot, legacyOffset_slot, Nat.add_right_comm]
    exact start_moved (h j)
  · rw [legacyOffset_of_not_mem _ _ hk, legacyOffset_of_not_mem _ _ hk]

end Layout

/-! ### Decoding -/

namespace Record
open RunLength

theorem unpack_of_ok {payload data rest : Bytes} {size : Nat}
    (h : Flavour.packBits.unpack payload size = .ok (data, rest)) : unpack payload size = .ok data := by
  rw [unpack, h]

theorem unpack_of_error {payload : Bytes} {size : Nat} {e : RunLength.Error}
    (h : Flavour.packBits.unpack payload size = .error e) :
    unpack payload size = .error (.decompressionFailed (.packed e)) := by
  rw [unpack, h]

/-- What the offsets count from lies this far before the data. -/
def base (r : Record) : Nat := r.name.length + Layout.legacyBias

/-- The image in this place of the table, if there is one, lies inside the data. -/
def Contains (r : Record) (offsets : Vector UInt16 6) (j : Fin 6) : Prop :=
  r.base ≤ offsets[j].toNat →
    offsets[j].toNat - r.base + (Kind.slot j).archiveLength ≤ r.uncompressedSize.toNat

instance (r : Record) (offsets : Vector UInt16 6) (j : Fin 6) : Decidable (r.Contains offsets j) :=
  inferInstanceAs (Decidable (_ → _))

/-- What becomes of a record of the first version. -/
structure DecodesPlaced [Zlib.Decoder] (r : Record) (offsets : Vector UInt16 6) (index : Nat)
    (payload : Bytes) : Prop where
  base_eq : r.base = r.name.length + 17
  ok_iff : (∃ icon, r.decode index payload = .ok icon) ↔
    (∃ data rest, Flavour.packBits.unpack payload r.uncompressedSize.toNat = .ok (data, rest)) ∧
      ∀ j, r.Contains offsets j
  icon : ∀ icon, r.decode index payload = .ok icon →
    icon.index = index ∧ icon.name = r.text ∧ icon.data.length = r.uncompressedSize.toNat ∧
      (∃ rest, Flavour.packBits.unpack payload r.uncompressedSize.toNat = .ok (icon.data, rest)) ∧
      (∀ j : Fin 6, icon.offset (Kind.slot j) =
        if r.base ≤ offsets[j].toNat then some (offsets[j].toNat - r.base) else none) ∧
      ∀ k, k ∉ Kind.legacy → icon.offset k = none
  /-- An offset of zero always stands for a missing image. -/
  zero : ∀ icon, r.decode index payload = .ok icon → ∀ j : Fin 6, offsets[j] = 0 →
    icon.has (Kind.slot j) = false
  /-- What is wrong with the payload is said first. -/
  packed : ∀ e, Flavour.packBits.unpack payload r.uncompressedSize.toNat = .error e →
    r.decode index payload = .error (.decompressionFailed (.packed e))
  /-- Of the images that reach past the end the first is named. -/
  overrun : ∀ data rest, Flavour.packBits.unpack payload r.uncompressedSize.toNat = .ok (data, rest) →
    ∀ e, r.decode index payload = .error e → ∃ j : Fin 6,
      e = .decompressionFailed
        (.imageOverrun (Kind.slot j) (offsets[j].toNat - r.base) r.uncompressedSize.toNat) ∧
      ¬ r.Contains offsets j ∧ ∀ i < j, r.Contains offsets i
  /-- What stands behind the payload has no effect. -/
  padding : ∀ icon, r.decode index payload = .ok icon → ∀ more,
    r.decode index (payload ++ more) = .ok icon
  /-- Neither has the name, with offsets that move with it. -/
  renamed : ∀ (r' : Record) (offsets' : Vector UInt16 6) (delta : Nat),
    r'.layout = .legacy offsets' → r'.uncompressedSize = r.uncompressedSize →
    r'.name.length = r.name.length + delta →
    (∀ j : Fin 6, offsets'[j].toNat =
      if r.base ≤ offsets[j].toNat then offsets[j].toNat + delta else offsets[j].toNat) →
    r'.decode index payload =
      (r.decode index payload).map fun icon => { icon with name := r'.text }

section
variable [Zlib.Decoder] {r : Record} {offsets : Vector UInt16 6} (hr : r.layout = .legacy offsets)
include hr

theorem decode_of_unpack_error {payload : Bytes} {e : RunLength.Error}
    (h : Flavour.packBits.unpack payload r.uncompressedSize.toNat = .error e) (index : Nat) :
    r.decode index payload = .error (.decompressionFailed (.packed e)) := by
  simp only [decode, hr, unpack_of_error h]
  rfl

/-- An icon is made of what is unpacked. -/
theorem of_of_decode {index : Nat} {payload : Bytes} {icon : Icon} (h : r.decode index payload = .ok icon) :
    ∃ rest, Flavour.packBits.unpack payload r.uncompressedSize.toNat = .ok (icon.data, rest) ∧
      Icon.of index r.text icon.data (Layout.legacyOffset offsets r.name.length) = .ok icon := by
  cases hunpack : Flavour.packBits.unpack payload r.uncompressedSize.toNat with
  | error e =>
    rw [decode_of_unpack_error hr hunpack] at h
    cases h
  | ok result =>
    obtain ⟨data, rest⟩ := result
    rw [decode_legacy hr (unpack_of_ok hunpack)] at h
    obtain ⟨-, -, rfl, -⟩ := Icon.of_eq_ok_iff.1 h
    exact ⟨rest, rfl, h⟩

theorem length_of_decode {index : Nat} {payload : Bytes} {icon : Icon} (h : r.decode index payload = .ok icon) :
    icon.data.length = r.uncompressedSize.toNat := by
  obtain ⟨rest, hunpack, -⟩ := of_of_decode hr h
  obtain ⟨-, -, -, -, -, hlength⟩ := Flavour.unpack_eq_ok_iff.1 hunpack
  exact hlength

/-- A record is decoded if its payload is unpacked and all images lie inside. -/
theorem exists_icon_iff {index : Nat} {payload : Bytes} :
    (∃ icon, r.decode index payload = .ok icon) ↔
      (∃ data rest, Flavour.packBits.unpack payload r.uncompressedSize.toNat = .ok (data, rest)) ∧
        Icon.Inside r.uncompressedSize.toNat (Layout.legacyOffset offsets r.name.length) := by
  constructor
  · intro h
    obtain ⟨icon, hicon⟩ := h
    obtain ⟨rest, hunpack, hof⟩ := of_of_decode hr hicon
    obtain ⟨-, -, -, hoffset⟩ := Icon.of_eq_ok_iff.1 hof
    have hinside := icon.inside
    rw [hoffset, length_of_decode hr hicon] at hinside
    exact ⟨⟨icon.data, rest, hunpack⟩, hinside⟩
  · intro h
    obtain ⟨⟨data, rest, hunpack⟩, hinside⟩ := h
    obtain ⟨-, -, -, -, -, hlength⟩ := Flavour.unpack_eq_ok_iff.1 hunpack
    rw [← hlength] at hinside
    exact ⟨_, (decode_legacy hr (unpack_of_ok hunpack) index).trans (Icon.of_of_inside index r.text hinside)⟩

/-- If all is unpacked, only an image can be at fault. -/
theorem overrun_of_decode {index : Nat} {payload data rest : Bytes} {e : Error}
    (hunpack : Flavour.packBits.unpack payload r.uncompressedSize.toNat = .ok (data, rest))
    (h : r.decode index payload = .error e) : ∃ j : Fin 6,
      e = .decompressionFailed
        (.imageOverrun (Kind.slot j) (offsets[j].toNat - r.base) r.uncompressedSize.toNat) ∧
      ¬ r.Contains offsets j ∧ ∀ i < j, r.Contains offsets i := by
  obtain ⟨-, -, -, -, -, hlength⟩ := Flavour.unpack_eq_ok_iff.1 hunpack
  rw [decode_legacy hr (unpack_of_ok hunpack)] at h
  cases hfind : Kind.all.find?
      (Icon.overruns data.length (Layout.legacyOffset offsets r.name.length)) with
  | none =>
    rw [Icon.of_of_inside index r.text (Icon.find?_overruns_eq_none_iff.1 hfind)] at h
    cases h
  | some k =>
    obtain ⟨start, hstart, hlt⟩ := Icon.exists_offset_of_find? hfind
    obtain ⟨j, rfl, hbefore⟩ := Layout.exists_slot_of_find? hfind
    rw [Icon.of_of_first index r.text hfind hstart] at h
    cases h
    rw [Layout.legacyOffset_slot] at hstart
    rw [hlength] at hlt hbefore ⊢
    by_cases hj : r.base ≤ offsets[j].toNat
    · have hbegins : start = offsets[j].toNat - r.base := Option.some.inj (hstart.symm.trans (if_pos hj))
      rw [hbegins] at hlt ⊢
      refine ⟨j, rfl, fun hcontains => Nat.not_lt.2 (hcontains hj) hlt, fun i hi hpresent => ?_⟩
      have hfits := hbefore i hi
      rw [Icon.overruns_of_offset ((Layout.legacyOffset_slot _ _ i).trans (if_pos hpresent))] at hfits
      exact Nat.not_lt.1 (of_decide_eq_false hfits)
    · cases (if_neg hj).symm.trans hstart

/-- **A record of the first version is decoded just if its payload can be unpacked to the
length that it declares, and every image lies inside.** -/
theorem decodes_placed (index : Nat) (payload : Bytes) : r.DecodesPlaced offsets index payload where
  base_eq := rfl
  ok_iff := by
    rw [exists_icon_iff hr, Layout.inside_legacyOffset_iff]
    rfl
  icon icon h := by
    obtain ⟨rest, hunpack, hof⟩ := of_of_decode hr h
    obtain ⟨hindex, hname, -, hoffset⟩ := Icon.of_eq_ok_iff.1 hof
    refine ⟨hindex, hname, length_of_decode hr h, ⟨rest, hunpack⟩, fun j => ?_, fun k hk => ?_⟩
    · rw [hoffset]
      exact Layout.legacyOffset_slot offsets r.name.length j
    · rw [hoffset]
      exact Layout.legacyOffset_of_not_mem offsets r.name.length hk
  zero icon h j hj := by
    obtain ⟨-, -, hof⟩ := of_of_decode hr h
    obtain ⟨-, -, -, hoffset⟩ := Icon.of_eq_ok_iff.1 hof
    have hnone : ¬ r.name.length + Layout.legacyBias ≤ offsets[j].toNat := by
      rw [hj]
      exact Nat.not_le_of_gt (Nat.add_pos_right _ (by decide))
    rw [Icon.has, hoffset, Layout.legacyOffset_slot, if_neg hnone]
    rfl
  packed e h := decode_of_unpack_error hr h index
  overrun data rest hunpack e h := overrun_of_decode hr hunpack h
  padding icon h more := by
    obtain ⟨rest, hunpack, hof⟩ := of_of_decode hr h
    rw [decode_legacy hr (unpack_of_ok (Flavour.unpack_append hunpack more))]
    exact hof
  renamed r' offsets' delta hr' hsize hname hmoved := by
    cases hunpack : Flavour.packBits.unpack payload r.uncompressedSize.toNat with
    | error e =>
      rw [decode_of_unpack_error hr hunpack, decode_of_unpack_error hr' (by rw [hsize]; exact hunpack)]
      rfl
    | ok result =>
      obtain ⟨data, rest⟩ := result
      have hdata := unpack_of_ok hunpack
      rw [decode_legacy hr hdata, decode_legacy hr' (by rw [hsize]; exact hdata), hname,
        Layout.legacyOffset_moved hmoved]
      exact Icon.of_renamed index r.text r'.text

end

attribute [local instance] Zlib.inflater

/-- A record of a name with nothing but a small one-bit image, which starts where its offset
says. -/
def placing (name : Bytes) (offset : UInt16) : Record where
  size := 0
  reserved := Vector.replicate 4 0
  uncompressedSize := 64
  name := name
  layout := .legacy #v[0, 0, 0, offset, 0, 0]

theorem decodes_placed_of_run :
    (∃ icon, (placing [0x61] 18).decode 0 [0xc1, 0xcc] = .ok icon ∧
      icon.data.length = 64 ∧ icon.offset (Kind.slot 3) = some 0 ∧ icon.has (Kind.slot 0) = false ∧
      (placing [0x61] 18).decode 0 [0xc1, 0xcc, 0, 0] = .ok icon ∧
      (placing [0x61, 0x62, 0x63] 20).decode 0 [0xc1, 0xcc] =
        .ok { icon with name := (placing [0x61, 0x62, 0x63] 20).text }) ∧
    (∃ e, (placing [0x61] 19).decode 0 [0xc1, 0xcc] = .error e) ∧
    (placing [0x61] 18).decode 0 [0xc1] = .error (.decompressionFailed (.packed .truncated)) := by
  have hcomplete : Complete .packBits (.run 64 0xcc) [0xc1, 0xcc] := .run (c := 0xc1) (by decide)
  have hunpack : Flavour.packBits.unpack [0xc1, 0xcc] 64 = .ok (List.replicate 64 0xcc, []) :=
    Flavour.unpack_eq_ok_iff.2 ⟨_, _, .cons hcomplete .nil, rfl, rfl, rfl⟩
  have hplaced := decodes_placed (r := placing [0x61] 18) rfl 0 [0xc1, 0xcc]
  have hmoved := decodes_placed (r := placing [0x61] 19) rfl 0 [0xc1, 0xcc]
  refine ⟨?_, ?_, ?_⟩
  · have hcontains : ∀ j, (placing [0x61] 18).Contains #v[0, 0, 0, 18, 0, 0] j := by decide
    obtain ⟨icon, hicon⟩ := hplaced.ok_iff.2 ⟨⟨_, _, hunpack⟩, hcontains⟩
    obtain ⟨-, -, hlength, -, hoffset, -⟩ := hplaced.icon icon hicon
    have hrenamed := hplaced.renamed (placing [0x61, 0x62, 0x63] 20) #v[0, 0, 0, 20, 0, 0] 2
      rfl rfl rfl (by decide)
    rw [hicon] at hrenamed
    exact ⟨icon, hicon, hlength, hoffset 3, hplaced.zero icon hicon 0 rfl,
      hplaced.padding icon hicon [0, 0], hrenamed⟩
  · cases hdecode : (placing [0x61] 19).decode 0 [0xc1, 0xcc] with
    | error e => exact ⟨e, rfl⟩
    | ok icon =>
      have hcontains := (hmoved.ok_iff.1 ⟨icon, hdecode⟩).2 3
      exact absurd hcontains (by decide)
  · have hgroup : Flavour.packBits.group 64 64 [0xc1] = .error .truncated := rfl
    have htruncated : Flavour.packBits.unpack [0xc1] 64 = .error .truncated := by
      rw [Flavour.unpack, Flavour.groupsFrom_of_group_error (by decide) hgroup]
    exact (decodes_placed (r := placing [0x61] 18) rfl 0 [0xc1]).packed .truncated htruncated

end Record
end Archive
end ClassicIcons
