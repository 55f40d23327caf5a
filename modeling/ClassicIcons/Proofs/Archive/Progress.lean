import ClassicIcons.Proofs.Archive.Places
import ClassicIcons.Zlib.Stream

/-! How a walk gets on.

Whoever asks for records one at a time gets the items of the archive in order and
then nothing any more (`calls_eq`, `items_calls`). A walk never leaves its way
(`Through`): it stands in front of a record that can be reached, or it is
finished, so what is left to come is counted without falling below zero. Together
with the places that is the whole account of a walk (`account`). -/
namespace ClassicIcons.Archive

/-! ### The way of a walk -/

namespace Walk

/-- On the way through an archive: in front of a record behind others that can be
walked past, or finished there. -/
def Through (a : Archive) (w : Walk) : Prop :=
  ∃ i, i ≤ a.header.iconCount.toNat ∧ (∀ j, j < i → ¬ a.Blocked j) ∧
    (w = a.walkAt i ∨ w = (a.walkAt i).finished)

theorem through_walk (a : Archive) : Through a a.walk :=
  ⟨0, Nat.zero_le _, fun j hj => absurd hj (Nat.not_lt_zero j), .inl rfl⟩

theorem Through.index_le {a : Archive} {w : Walk} (h : Through a w) :
    w.count = a.header.iconCount.toNat ∧ w.index ≤ a.header.iconCount.toNat := by
  obtain ⟨i, hi, -, rfl | rfl⟩ := h
  · exact ⟨rfl, hi⟩
  · exact ⟨rfl, Nat.le_refl _⟩

end Walk

/-- No record starts further behind the end of the archive than a size can say. -/
theorem place_le {a : Archive} {i : Nat} (h : ∀ j, j < i → ¬ a.Blocked j) :
    a.place i ≤ max a.header.recordsOffset (a.data.length + UInt32.size) := by
  cases i with
  | zero => exact Nat.le_max_left _ _
  | succ i =>
    obtain ⟨size, hsize, -⟩ := not_blocked_iff.1 (h i (Nat.lt_succ_self i))
    obtain ⟨field, hfield, rfl⟩ := Option.map_eq_some_iff.1 hsize
    have hstart := place_le_of_size? hsize
    have hlt := Bytes.value_lt field
    have hwidth : field.length = Walk.sizeFieldLength := by
      obtain ⟨hin, rfl⟩ := Bytes.slice?_eq_some_iff.1 hfield
      simp only [List.length_take, List.length_drop]
      omega
    rw [hwidth, show Bytes.capacity Walk.sizeFieldLength = UInt32.size by decide] at hlt
    rw [place_succ hsize]
    omega

theorem recordsOffset_lt (h : Header) : h.recordsOffset < 8 * UInt32.size := by
  have hcount := h.iconCount.toNat_lt
  have hbase : Header.recordsBase h.version ≤ 0x440 := by cases h.version <;> decide
  rw [Header.recordsOffset, UInt32.size]
  omega

section
variable [Zlib.Decoder]

namespace Walk

/-! ### Calls -/

/-- The walk behind `n` calls has found the first `n` items. -/
theorem items_calls (n : Nat) (w : Walk) : (w.calls n).2.items = w.items.drop n := by
  induction n generalizing w with
  | zero => rfl
  | succ n ih =>
    cases h : w.next with
    | none =>
      have hdone := ih w
      rw [items_of_next_none h, List.drop_nil] at hdone
      rw [calls, call_of_next_none h, items_of_next_none h, List.drop_nil]
      exact hdone
    | some step =>
      obtain ⟨item, w'⟩ := step
      rw [calls, call_of_next h, items_of_next h, List.drop_succ_cons]
      exact ih w'

/-- Calls find the items in order, and behind the last one nothing any more. -/
theorem calls_eq (n : Nat) (w : Walk) :
    (w.calls n).1 = (w.items.take n).map some ++ List.replicate (n - w.items.length) none := by
  induction n generalizing w with
  | zero => simp [calls]
  | succ n ih =>
    cases h : w.next with
    | none =>
      have hdone := ih w
      rw [items_of_next_none h] at hdone
      rw [calls, call_of_next_none h, items_of_next_none h]
      simpa [List.replicate_succ] using hdone
    | some step =>
      obtain ⟨item, w'⟩ := step
      rw [calls, call_of_next h, items_of_next h]
      simpa using ih w'

/-- A walk that has come to its end stays there. -/
theorem calls_of_next_none {w : Walk} (h : w.next = none) (n : Nat) :
    w.calls n = (List.replicate n none, w) := by
  induction n with
  | zero => rfl
  | succ n ih =>
    rw [calls, call_of_next_none h]
    simp only [ih, List.replicate_succ]

/-- One call keeps to the way. -/
theorem Through.call {a : Archive} {w : Walk} (h : Through a w) : Through a w.call.2 := by
  obtain ⟨i, hi, hpassed, rfl | rfl⟩ := h
  · rcases Nat.lt_or_eq_of_le hi with hlt | heq
    · by_cases hb : a.Blocked i
      · rw [call_of_next ((next_walkAt hlt).1 hb)]
        exact ⟨i, hi, hpassed, .inr rfl⟩
      · rw [call_of_next ((next_walkAt hlt).2 hb)]
        refine ⟨i + 1, hlt, fun j hj => ?_, .inl rfl⟩
        rcases Nat.lt_or_eq_of_le (Nat.le_of_lt_succ hj) with hj | rfl
        · exact hpassed j hj
        · exact hb
    · rw [call_of_next_none (next_walkAt_of_le (Nat.le_of_eq heq.symm))]
      exact ⟨i, hi, hpassed, .inl rfl⟩
  · rw [call_of_next_none ((next_eq_none_iff _).2 (Nat.le_refl _))]
    exact ⟨i, hi, hpassed, .inr rfl⟩

/-- Any number of calls keeps to the way. -/
theorem Through.calls {a : Archive} {w : Walk} (h : Through a w) (n : Nat) :
    Through a (w.calls n).2 := by
  induction n generalizing w with
  | zero => exact h
  | succ n ih => exact ih h.call

end Walk

/-! ### The account of a walk -/

/-- The walk through an archive behind `n` calls. -/
def after (a : Archive) (n : Nat) : Walk := (a.walk.calls n).2

/-- As long as nothing is in the way, every call leads behind one more record. -/
theorem calls_walkAt {a : Archive} {i n : Nat} (hcount : i + n ≤ a.header.iconCount.toNat)
    (h : ∀ j, i ≤ j → j < i + n → ¬ a.Blocked j) : ((a.walkAt i).calls n).2 = a.walkAt (i + n) := by
  induction n generalizing i with
  | zero => rfl
  | succ n ih =>
    have hi : i < a.header.iconCount.toNat := by omega
    have hb := h i (Nat.le_refl i) (by omega)
    have hnext : i + 1 + n = i + (n + 1) := by omega
    rw [Walk.calls, Walk.call_of_next ((next_walkAt hi).2 hb), ← hnext]
    exact ih (by omega) fun j hj hj' => h j (by omega) (by omega)

theorem after_eq_walkAt {a : Archive} {i : Nat} (hcount : i ≤ a.header.iconCount.toNat)
    (h : ∀ j, j < i → ¬ a.Blocked j) : a.after i = a.walkAt i := by
  have hcalls := calls_walkAt (i := 0) (n := i) (by omega) fun j _ hj => h j (by omega)
  rw [Nat.zero_add] at hcalls
  exact hcalls

theorem through_after (a : Archive) (n : Nat) : Walk.Through a (a.after n) :=
  (Walk.through_walk a).calls n

/-- The walk ends before the promised number of records just where a size field
leads nowhere. -/
theorem length_items_lt_iff (a : Archive) :
    a.items.length < a.header.iconCount.toNat ↔
      ∃ i, i + 1 < a.header.iconCount.toNat ∧ i < a.items.length ∧ a.Blocked i := by
  constructor
  · intro hlt
    have hnot : ¬ a.Reached a.items.length := fun h =>
      Nat.lt_irrefl _ (lt_length_items_iff.2 h)
    apply Classical.byContradiction
    intro hnone
    refine hnot ⟨hlt, fun j hj hb => hnone ⟨j, ?_, hj, hb⟩⟩
    omega
  · rintro ⟨i, hcount, -, hb⟩
    have hnot : ¬ a.Reached (i + 1) := fun h => h.2 i (Nat.lt_succ_self i) hb
    rw [← lt_length_items_iff] at hnot
    omega

/-- An item whose size field leads nowhere is the last one. -/
theorem length_items_of_blocked {a : Archive} {i : Nat} (hi : i < a.items.length)
    (hb : a.Blocked i) : a.items.length = i + 1 := by
  have hnot : ¬ a.Reached (i + 1) := fun h => h.2 i (Nat.lt_succ_self i) hb
  rw [← lt_length_items_iff] at hnot
  omega

/-- Every item but the last one takes up a size field of the archive. -/
theorem length_items_le (a : Archive) :
    a.items.length ≤ 1 + (a.data.length - a.header.recordsOffset) / Walk.sizeFieldLength := by
  cases hlength : a.items.length with
  | zero => exact Nat.zero_le _
  | succ last =>
    have hlast : a.Reached last := lt_length_items_iff.1 (by omega)
    cases last with
    | zero => exact Nat.le_add_right 1 _
    | succ i =>
      have hplace := place_add_le fun j hj => hlast.2 j (Nat.lt_succ_of_lt hj)
      have hinside := (place_of_not_blocked (hlast.2 i (Nat.lt_succ_self i))).1
      have hdiv : i + 1 ≤ (a.data.length - a.header.recordsOffset) / Walk.sizeFieldLength := by
        rw [Nat.le_div_iff_mul_le (by decide), Nat.succ_mul]
        omega
      omega

/-- What is known of a walk through an archive, and of where it stands behind `n`
calls. -/
structure Account (a : Archive) (n : Nat) : Prop where
  /-- The calls find the items in order, and behind the last one nothing any more. -/
  calls : (a.walk.calls n).1 =
    (a.items.take n).map some ++ List.replicate (n - a.items.length) none
  /-- Items are numbered without a gap. -/
  indices : a.items.map Item.index = List.range a.items.length
  /-- The walk finds item `i` at the place of record `i`. -/
  places : ∀ i, i < a.items.length →
    (a.after i).position = a.place i ∧ a.items[i]? = some (a.found i)
  /-- The first place is behind the header; the way from one place to the next is
  the declared size, whatever becomes of the record. -/
  steps : a.place 0 = a.header.recordsOffset ∧ ∀ i size, i < a.items.length →
    a.size? i = some size → Walk.sizeFieldLength ≤ size →
      a.place (i + 1) = a.place i + size ∧ (a.after (i + 1)).position = a.place i + size
  /-- Fewer items than promised mean a size field that leads nowhere. -/
  early : a.items.length < a.header.iconCount.toNat ↔
    ∃ i, i + 1 < a.header.iconCount.toNat ∧ i < a.items.length ∧ a.Blocked i
  /-- The item with such a size field is a failure, and the last one. -/
  last : ∀ i, i < a.items.length → a.Blocked i → a.items.length = i + 1 ∧
    ∃ fault, a.items[i]? = some ⟨i, none, .error (.decompressionFailed fault)⟩
  /-- However many records the header promises. -/
  bound : a.items.length ≤
    1 + (a.data.length - a.header.recordsOffset) / Walk.sizeFieldLength
  /-- The index never passes the number of records, so the hint is their difference. -/
  hint : (a.after n).index ≤ a.header.iconCount.toNat ∧
    (a.after n).sizeHint = (0, some (a.header.iconCount.toNat - (a.after n).index))
  /-- The hint is no less than the number of items to come. -/
  enough : (a.items.drop n).length ≤ (a.after n).left
  /-- The hint falls with every item. -/
  falls : ∀ item w, (a.after n).next = some (item, w) → w.left < (a.after n).left
  /-- The hint is zero just at the end, where the walk stays for ever. -/
  ends : ((a.after n).left = 0 ↔ (a.after n).next = none) ∧
    ((a.after n).next = none → ∀ m, (a.after n).calls m = (List.replicate m none, a.after n))
  /-- Positions in an archive that fits into memory are numbers of 64 bits. -/
  fits : a.data.length ≤ 0x7fffffffffffffff → (a.after n).position < UInt64.size

theorem account (a : Archive) (n : Nat) : Account a n where
  calls := Walk.calls_eq n a.walk
  indices := by
    rw [items_eq a, List.map_map, List.length_map, List.length_range]
    exact (List.map_congr_left fun i _ => index_found a i).trans (List.map_id _)
  places := by
    intro i hi
    have hreached := lt_length_items_iff.1 hi
    rw [after_eq_walkAt (Nat.le_of_lt hreached.1) hreached.2]
    exact ⟨rfl, getElem?_items_eq_some_iff.2 ⟨hreached, rfl⟩⟩
  steps := by
    refine ⟨rfl, fun i size hi hsize hle => ?_⟩
    have hreached := lt_length_items_iff.1 hi
    have hb : ¬ a.Blocked i := not_blocked_iff.2 ⟨size, hsize, hle⟩
    have hpassed : ∀ j, j < i + 1 → ¬ a.Blocked j := by
      intro j hj
      rcases Nat.lt_or_eq_of_le (Nat.le_of_lt_succ hj) with hj | rfl
      · exact hreached.2 j hj
      · exact hb
    rw [after_eq_walkAt hreached.1 hpassed]
    exact ⟨place_succ hsize, place_succ hsize⟩
  early := length_items_lt_iff a
  last := by
    intro i hi hb
    refine ⟨length_items_of_blocked hi hb, ?_⟩
    obtain ⟨fault, hfound⟩ := found_of_blocked hb
    exact ⟨fault, getElem?_items_eq_some_iff.2 ⟨lt_length_items_iff.1 hi, hfound⟩⟩
  bound := length_items_le a
  hint := by
    obtain ⟨hcount, hindex⟩ := (through_after a n).index_le
    exact ⟨hindex, by rw [Walk.sizeHint, Walk.left, hcount]⟩
  enough := by
    have hitems : (a.after n).items = a.items.drop n := Walk.items_calls n a.walk
    rw [← hitems]
    exact Walk.length_items_le_left _
  falls := fun item w h => Walk.left_of_next h
  ends := ⟨Walk.left_eq_zero_iff _, Walk.calls_of_next_none⟩
  fits := by
    intro hdata
    obtain ⟨i, -, hpassed, hw⟩ := through_after a n
    have hposition : (a.after n).position = a.place i := by
      rcases hw with hw | hw <;> rw [hw] <;> rfl
    have hplace := place_le hpassed
    have hoffset := recordsOffset_lt a.header
    simp only [UInt32.size, UInt64.size] at *
    omega

/-- **Whatever the bytes of an archive are, its walk is accounted for**, at any
time. -/
theorem account_of_parse {data : Bytes} {a : Archive} (h : parse data = .ok a) (n : Nat) :
    a.data = data ∧ Account a n :=
  ⟨data_of_parse h, account a n⟩

end

attribute [local instance] Zlib.inflater

/-- Three icons are promised. The second record has a size field of 2, which does
not lead past itself. -/
def cutShort : Bytes :=
  Header.magic ++ [0, 0, 0, 1, 0, 0, 0, 3] ++ List.replicate 60 0 ++ [0, 0, 0, 4, 0, 0, 0, 2, 9, 9]

theorem account_of_cut_short : ∃ a, parse cutShort = .ok a ∧ a.data = cutShort ∧ Account a 2 := by
  have hparse : parse cutShort = .ok ⟨cutShort,
      ⟨[0, 0], 3, List.replicate 32 0, 0, List.replicate 8 0, .first⟩⟩ := rfl
  exact ⟨_, hparse, account_of_parse hparse 2⟩

end ClassicIcons.Archive
