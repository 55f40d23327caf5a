import ClassicIcons.Proofs.Archive.Images

/-! Icons on a machine.

Places in data are words on a machine. A program stops (`Panic`) at a sum for which there
is no word, and at bytes that are not there; a step that could stop is `Checked` here. An
icon is made with an eye on that: if there is no word for the end of an image, the image
reaches past the end of any data, and is refused for it (`ofWords_eq`). Images are cut out
without another look at their places, and that never goes wrong (`checkedImage_eq`). -/
namespace ClassicIcons

/-- Why a program stops. -/
inductive Panic where
  /-- A sum is too great for a word. -/
  | overflow
  /-- Bytes are asked for that are not there. -/
  | range
  deriving DecidableEq, Repr

/-- What a program computes that may stop on the way. -/
abbrev Checked (α : Type) := Except Panic α

namespace Checked

/-- The sum of two words. -/
def add {width : Nat} (a b : BitVec width) : Checked (BitVec width) :=
  if a.uaddOverflow b then .error .overflow else .ok (a + b)

/-- The bytes from one place up to another. -/
def slice (start stop : BitVec 64) (b : Bytes) : Checked Bytes :=
  if start.toNat ≤ stop.toNat ∧ stop.toNat ≤ b.length then
    .ok ((b.drop start.toNat).take (stop.toNat - start.toNat))
  else .error .range

/-- There is a word for the number. -/
def IsWord (width n : Nat) : Prop := ∃ w : BitVec width, w.toNat = n

theorem isWord_iff {width n : Nat} : IsWord width n ↔ (BitVec.ofNat width n).toNat = n := by
  constructor
  · intro h
    obtain ⟨w, rfl⟩ := h
    rw [BitVec.toNat_ofNat, Nat.mod_eq_of_lt w.isLt]
  · intro h
    exact ⟨_, h⟩

theorem IsWord.of_le {width m n : Nat} (h : IsWord width n) (hle : m ≤ n) : IsWord width m := by
  obtain ⟨w, rfl⟩ := h
  rw [isWord_iff, BitVec.toNat_ofNat, Nat.mod_eq_of_lt (Nat.lt_of_le_of_lt hle w.isLt)]

theorem isWord_of_lt_size32 {n : Nat} (h : n < UInt32.size) : IsWord 32 n :=
  isWord_iff.2 (Nat.mod_eq_of_lt h)

theorem toNat_of_lt_size32 {n : Nat} (h : n < UInt32.size) : (BitVec.ofNat 32 n).toNat = n :=
  isWord_iff.1 (isWord_of_lt_size32 h)

theorem isWord_size64_iff {n : Nat} : IsWord 64 n ↔ n < UInt64.size := by
  constructor
  · intro h
    obtain ⟨w, rfl⟩ := h
    exact w.isLt
  · intro h
    exact isWord_iff.2 (Nat.mod_eq_of_lt h)

theorem add_eq_ok_iff {width : Nat} {a b c : BitVec width} :
    add a b = .ok c ↔ c.toNat = a.toNat + b.toNat := by
  unfold add BitVec.uaddOverflow
  constructor
  · intro h
    split at h
    · cases h
    · rename_i hover
      have hlt := Nat.not_le.1 (of_decide_eq_false (Bool.eq_false_iff.2 hover))
      cases h
      rw [BitVec.toNat_add, Nat.mod_eq_of_lt hlt]
  · intro h
    have hlt := h ▸ c.isLt
    rw [if_neg (Bool.eq_false_iff.1 (decide_eq_false (Nat.not_le.2 hlt))), Except.ok.injEq]
    apply BitVec.eq_of_toNat_eq
    rw [BitVec.toNat_add, Nat.mod_eq_of_lt hlt, h]

theorem not_isWord_of_add {width : Nat} {a b : BitVec width} {p : Panic} (h : add a b = .error p) :
    ¬ IsWord width (a.toNat + b.toNat) := by
  intro hword
  obtain ⟨c, hc⟩ := hword
  rw [add_eq_ok_iff.2 hc] at h
  cases h

/-- Words are added as numbers are, as long as there is a word for the sum. -/
theorem add_ofNat {width m n : Nat} (h : IsWord width (m + n)) :
    add (BitVec.ofNat width m) (BitVec.ofNat width n) = .ok (BitVec.ofNat width (m + n)) := by
  rw [add_eq_ok_iff, isWord_iff.1 h, isWord_iff.1 (h.of_le (Nat.le_add_right m n)),
    isWord_iff.1 (h.of_le (Nat.le_add_left n m))]

theorem slice_of_le {start n : Nat} {b : Bytes} (hb : IsWord 64 b.length) (h : start + n ≤ b.length) :
    slice (BitVec.ofNat 64 start) (BitVec.ofNat 64 (start + n)) b = .ok ((b.drop start).take n) := by
  have hle := Nat.le_add_right start n
  have hstop := hb.of_le h
  rw [slice, isWord_iff.1 hstop, isWord_iff.1 (hstop.of_le hle), if_pos ⟨hle, h⟩, Nat.add_sub_cancel_left]

end Checked

namespace Archive.Icon

theorem toNat_archiveLength (k : Kind) : (BitVec.ofNat 64 k.archiveLength).toNat = k.archiveLength :=
  Checked.isWord_iff.1 (Checked.isWord_size64_iff.2 (Nat.lt_of_le_of_lt k.archiveLength_le (by decide)))

/-! ### Construction -/

/-- Whether an image that starts at a word would reach past the end, or past all words. -/
def overrunsWord (size : Nat) (offset : Kind → Option (BitVec 64)) (k : Kind) : Bool :=
  match offset k with
  | some start =>
    match Checked.add start (BitVec.ofNat 64 k.archiveLength) with
    | .ok stop => size < stop.toNat
    | .error _ => true
  | none => false

theorem overrunsWord_eq_true_iff {size : Nat} {offset : Kind → Option (BitVec 64)} {k : Kind} :
    overrunsWord size offset k = true ↔ ∃ start, offset k = some start ∧
      (UInt64.size ≤ start.toNat + k.archiveLength ∨ size < start.toNat + k.archiveLength) := by
  unfold overrunsWord
  cases offset k with
  | none => simp
  | some start =>
    simp only [Option.some.injEq, exists_eq_left']
    cases hstop : Checked.add start (BitVec.ofNat 64 k.archiveLength) with
    | error p =>
      have hoverflow := Checked.not_isWord_of_add hstop
      rw [toNat_archiveLength, Checked.isWord_size64_iff, Nat.not_lt] at hoverflow
      exact iff_of_true rfl (.inl hoverflow)
    | ok stop =>
      have hsum := Checked.add_eq_ok_iff.1 hstop
      rw [toNat_archiveLength] at hsum
      have hword : start.toNat + k.archiveLength < UInt64.size := hsum ▸ stop.isLt
      rw [decide_eq_true_iff, hsum, or_iff_right (Nat.not_le.2 hword)]

/-- The places as numbers. -/
def places (offset : Kind → Option (BitVec 64)) (k : Kind) : Option Nat := (offset k).map BitVec.toNat

theorem places_eq_some_iff {offset : Kind → Option (BitVec 64)} {k : Kind} {start : Nat} :
    places offset k = some start ↔ ∃ word, offset k = some word ∧ word.toNat = start :=
  Option.map_eq_some_iff

theorem inside_of_find?_overrunsWord {size : Nat} {offset : Kind → Option (BitVec 64)}
    (h : Kind.all.find? (overrunsWord size offset) = none) : Inside size (places offset) := by
  intro k start hstart
  obtain ⟨word, hword, rfl⟩ := places_eq_some_iff.1 hstart
  apply Nat.not_lt.1
  intro hlt
  exact List.find?_eq_none.1 h k k.mem_all (overrunsWord_eq_true_iff.2 ⟨word, hword, .inr hlt⟩)

/-- The icon of the given data, unless an image reaches past the end of them. -/
def ofWords (index : Nat) (name : String) (data : Bytes) (offset : Kind → Option (BitVec 64)) :
    Except Error Icon :=
  match h : Kind.all.find? (overrunsWord data.length offset) with
  | some k =>
    .error (.decompressionFailed (.imageOverrun k ((places offset k).getD 0) data.length))
  | none => .ok ⟨index, name, data, places offset, inside_of_find?_overrunsWord h⟩

/-- An image that starts there reaches past the end of the data. -/
def PastEnd (size : Nat) (offset : Kind → Option (BitVec 64)) (k : Kind) : Prop :=
  ∃ start, offset k = some start ∧ size < start.toNat + k.archiveLength

theorem overruns_places_iff {size : Nat} {offset : Kind → Option (BitVec 64)} {k : Kind} :
    overruns size (places offset) k = true ↔ PastEnd size offset k := by
  rw [overruns_eq_true_iff]
  constructor
  · intro h
    obtain ⟨start, hstart, hlt⟩ := h
    obtain ⟨word, hword, rfl⟩ := places_eq_some_iff.1 hstart
    exact ⟨word, hword, hlt⟩
  · intro h
    obtain ⟨word, hword, hlt⟩ := h
    exact ⟨word.toNat, places_eq_some_iff.2 ⟨word, hword, rfl⟩, hlt⟩

/-- What reaches past all words reaches past the end, too. -/
theorem overrunsWord_eq {size : Nat} (h : size < UInt64.size) (offset : Kind → Option (BitVec 64)) :
    overrunsWord size offset = overruns size (places offset) := by
  funext k
  rw [Bool.eq_iff_iff, overrunsWord_eq_true_iff, overruns_places_iff]
  refine exists_congr fun start => and_congr_right fun _ => ?_
  omega

section
variable {index : Nat} {name : String} {data : Bytes} {offset : Kind → Option (BitVec 64)}

/-- Words make no difference, as long as the length of the data is one. -/
theorem ofWords_eq (h : data.length < UInt64.size) :
    ofWords index name data offset = of index name data (places offset) := by
  have hsame := overrunsWord_eq h offset
  unfold ofWords of
  split
  · rename_i k hk
    rw [hsame] at hk
    split
    · rename_i j hj
      rw [hk] at hj
      cases hj
      rfl
    · rename_i hnone
      rw [hk] at hnone
      cases hnone
  · rename_i hnone
    rw [hsame] at hnone
    split
    · rename_i k hk
      rw [hnone] at hk
      cases hk
    · rfl

/-- An image is never let in by a sum for which there is no word. -/
theorem exists_error_of_overrunsWord {k : Kind} (h : overrunsWord data.length offset k = true) :
    ∃ e, ofWords index name data offset = .error e := by
  unfold ofWords
  split
  · exact ⟨_, rfl⟩
  · rename_i hnone
    exact absurd h (List.find?_eq_none.1 hnone k k.mem_all)

theorem of_places_eq_ok_iff :
    (∃ icon, of index name data (places offset) = .ok icon) ↔ ∀ k, ¬ PastEnd data.length offset k := by
  have hinside : Inside data.length (places offset) ↔ ∀ k, ¬ PastEnd data.length offset k := by
    simp only [← find?_overruns_eq_none_iff, List.find?_eq_none, ← overruns_places_iff, Kind.mem_all,
      true_implies]
  rw [← hinside]
  constructor
  · intro h
    obtain ⟨icon, hicon⟩ := h
    obtain ⟨-, -, rfl, hoffset⟩ := of_eq_ok_iff.1 hicon
    rw [← hoffset]
    exact icon.inside
  · intro h
    exact ⟨_, of_of_inside index name h⟩

/-- The first image at fault is named. -/
theorem error_of_places {e : Error} (h : of index name data (places offset) = .error e) :
    ∃ front k back start, Kind.all = front ++ k :: back ∧ (∀ j ∈ front, ¬ PastEnd data.length offset j) ∧
      offset k = some start ∧ data.length < start.toNat + k.archiveLength ∧
      e = .decompressionFailed (.imageOverrun k start.toNat data.length) := by
  cases hfind : Kind.all.find? (overruns data.length (places offset)) with
  | none =>
    rw [of_of_inside index name (find?_overruns_eq_none_iff.1 hfind)] at h
    cases h
  | some k =>
    obtain ⟨hover, front, back, hall, hfront⟩ := List.find?_eq_some_iff_append.1 hfind
    obtain ⟨start, hstart, hlt⟩ := overruns_places_iff.1 hover
    have hplace : places offset k = some start.toNat := places_eq_some_iff.2 ⟨start, hstart, rfl⟩
    rw [of_of_first index name hfind hplace] at h
    refine ⟨front, k, back, start, hall, fun j hj hpast => ?_, hstart, hlt, (Except.error.inj h).symm⟩
    have hnot := hfront j hj
    rw [overruns_places_iff.2 hpast] at hnot
    cases hnot

end

/-! ### Images -/

/-- The image of a kind, cut out of the data. -/
def checkedImage (i : Icon) (k : Kind) : Checked (Option Bytes) :=
  match i.offset k with
  | some start => do
    let stop ← Checked.add (BitVec.ofNat 64 start) (BitVec.ofNat 64 k.archiveLength)
    let image ← Checked.slice (BitVec.ofNat 64 start) stop i.data
    return some image
  | none => return none

/-- **Every image can be cut out**, since it lies inside the data. -/
theorem checkedImage_eq {i : Icon} (h : i.data.length < UInt64.size) (k : Kind) :
    i.checkedImage k = .ok (i.image? k) := by
  unfold checkedImage image?
  cases hstart : i.offset k with
  | none => rfl
  | some start =>
    have hinside := i.inside k start hstart
    have hdata := Checked.isWord_size64_iff.2 h
    have hstop : Checked.add (BitVec.ofNat 64 start) (BitVec.ofNat 64 k.archiveLength) =
        .ok (BitVec.ofNat 64 (start + k.archiveLength)) := Checked.add_ofNat (hdata.of_le hinside)
    simp only [hstop, Checked.slice_of_le hdata hinside, bind, Except.bind, pure, Except.pure, Option.map_some]

end Archive.Icon
end ClassicIcons
