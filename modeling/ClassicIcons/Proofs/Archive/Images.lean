import ClassicIcons.Archive.Icon

/-! The images of an icon.

An icon is refused for the first image that reaches past the end of its data, in the order
of `Kind.all` (`Icon.of_of_first`), and for nothing else (`Icon.of_of_inside`). Only the
kinds that have an image count (`Icon.find?_overruns`). -/
namespace ClassicIcons.Archive
namespace Icon

variable {size : Nat} {offset : Kind → Option Nat}

/-- No image reaches past the end. -/
def Inside (size : Nat) (offset : Kind → Option Nat) : Prop :=
  ∀ k start, offset k = some start → start + k.archiveLength ≤ size

theorem overruns_eq_true_iff {k : Kind} :
    overruns size offset k = true ↔ ∃ start, offset k = some start ∧ size < start + k.archiveLength := by
  unfold overruns
  cases offset k with
  | none => simp
  | some start => simp

theorem overruns_of_offset {k : Kind} {start : Nat} (h : offset k = some start) :
    overruns size offset k = decide (size < start + k.archiveLength) := by
  simp only [overruns, h]

theorem overruns_of_none {k : Kind} (h : offset k = none) : overruns size offset k = false := by
  simp only [overruns, h]

theorem find?_overruns_eq_none_iff : Kind.all.find? (overruns size offset) = none ↔ Inside size offset := by
  refine ⟨inside_of_find?_eq_none, fun h => List.find?_eq_none.2 fun k _ hk => ?_⟩
  obtain ⟨start, hstart, hlt⟩ := overruns_eq_true_iff.1 hk
  exact Nat.not_lt.2 (h k start hstart) hlt

theorem exists_offset_of_find? {k : Kind} (h : Kind.all.find? (overruns size offset) = some k) :
    ∃ start, offset k = some start ∧ size < start + k.archiveLength :=
  overruns_eq_true_iff.1 (List.find?_some h)

/-- Kinds without an image can be left out of the search. -/
theorem find?_overruns {present : Kind → Bool} (h : ∀ k, present k = false → offset k = none) :
    Kind.all.find? (overruns size offset) = (Kind.all.filter present).find? (overruns size offset) := by
  rw [List.find?_filter]
  congr 1
  funext k
  cases hk : present k with
  | true => simp
  | false => simp [overruns_of_none (h k hk)]

variable {data : Bytes} (index : Nat) (name : String)

/-- **Images that all lie inside the data make an icon.** -/
theorem of_of_inside (h : Inside data.length offset) :
    of index name data offset = .ok ⟨index, name, data, offset, h⟩ := by
  have hnone := find?_overruns_eq_none_iff.2 h
  unfold of
  split
  · rename_i k hk
    rw [hnone] at hk
    cases hk
  · rfl

/-- An icon is what it is made of. -/
theorem of_eq_ok_iff {index : Nat} {name : String} {icon : Icon} :
    of index name data offset = .ok icon ↔
      icon.index = index ∧ icon.name = name ∧ icon.data = data ∧ icon.offset = offset := by
  constructor
  · intro h
    unfold of at h
    split at h
    · cases h
    · cases h
      exact ⟨rfl, rfl, rfl, rfl⟩
  · intro h
    obtain ⟨rfl, rfl, rfl, rfl⟩ := h
    exact of_of_inside icon.index icon.name icon.inside

/-- **The first image that does not is named.** -/
theorem of_of_first {k : Kind} (h : Kind.all.find? (overruns data.length offset) = some k) {start : Nat}
    (hstart : offset k = some start) :
    of index name data offset = .error (.decompressionFailed (.imageOverrun k start data.length)) := by
  unfold of
  split
  · rename_i j hj
    rw [h] at hj
    cases hj
    rw [hstart]
    rfl
  · rename_i hnone
    rw [h] at hnone
    cases hnone

/-- A name has no effect on anything else. -/
theorem of_renamed (name' : String) :
    of index name' data offset = (of index name data offset).map fun icon => { icon with name := name' } := by
  cases hfind : Kind.all.find? (overruns data.length offset) with
  | none =>
    have hinside := find?_overruns_eq_none_iff.1 hfind
    rw [of_of_inside index name hinside, of_of_inside index name' hinside]
    rfl
  | some k =>
    obtain ⟨start, hstart, -⟩ := exists_offset_of_find? hfind
    rw [of_of_first index name hfind hstart, of_of_first index name' hfind hstart]
    rfl

end Icon
end ClassicIcons.Archive
