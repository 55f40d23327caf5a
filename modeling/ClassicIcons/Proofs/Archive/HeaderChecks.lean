import ClassicIcons.Proofs.Archive.HeaderForm

/-! Which headers are refused, and what for.

A header is looked at from its front on, and refused for the first thing that is wrong:
one of its two magic words, a version that is not known, or the end of the bytes
(`Header.fault?`). If nothing is, all of its fields are read, each from a place of its own
(`Header.ofPlaces`). These two are all that reading a header comes to
(`Header.read_decided`). -/
namespace ClassicIcons

namespace Bytes

/-- The `n` bytes from a place on, or as many of them as there are. -/
def part (b : Bytes) (place n : Nat) : Bytes := (b.drop place).take n

/-- The byte at a place, if there is one. -/
def byteAt (b : Bytes) (place : Nat) : UInt8 := b.getD place 0

theorem part_drop (b : Bytes) (front place n : Nat) : part (b.drop front) place n = b.part (front + place) n := by
  rw [part, part, List.drop_drop]

theorem byteAt_drop (b : Bytes) (front place : Nat) : byteAt (b.drop front) place = b.byteAt (front + place) := by
  simp only [byteAt, List.getD_eq_getElem?_getD, List.getElem?_drop]

theorem length_part {b : Bytes} {place n : Nat} (h : place + n ≤ b.length) : (b.part place n).length = n := by
  rw [part, List.length_take, List.length_drop]
  omega

/-- A part of one byte is a number of one byte. -/
theorem value_part_one (b : Bytes) (place : Nat) : (b.part place 1).value = (b.byteAt place).toNat := by
  rw [part, byteAt, List.getD_eq_getElem?_getD]
  cases h : b[place]? with
  | none =>
    rw [List.drop_of_length_le (List.getElem?_eq_none_iff.1 h)]
    rfl
  | some byte =>
    obtain ⟨hlt, hbyte⟩ := List.getElem?_eq_some_iff.1 h
    rw [List.drop_eq_getElem_cons hlt, hbyte]
    simp [value]

end Bytes

/-! ### Fields -/

namespace Reader
variable {ε α β : Type} [Truncated ε]

/-- The reader reads a field of `n` bytes, from which its value is got by `value`. -/
def IsField (n : Nat) (value : Bytes → α) (m : Reader ε α) : Prop :=
  ∀ b, m b = if b.length < n then .error Truncated.truncated else .ok (value b, b.drop n)

/-- A field that is too long for what is there, alone or together with the one before it. -/
theorem ite_length_drop {γ : Type} (b : Bytes) (n n' : Nat) (short long : γ) :
    (if b.length < n then short else if (b.drop n).length < n' then short else long) =
      if b.length < n + n' then short else long := by
  rw [List.length_drop]
  by_cases h : b.length < n + n'
  · rw [if_pos h]
    split
    · rfl
    · rw [if_pos (by omega)]
  · rw [if_neg h, if_neg (by omega), if_neg (by omega)]

namespace IsField

theorem pure (x : α) : IsField 0 (fun _ => x) (pure x : Reader ε α) :=
  fun _ => (if_neg (Nat.not_lt_zero _)).symm

/-- What comes behind a field is read from what the field leaves. -/
theorem bind_eq {n : Nat} {value : Bytes → α} {m : Reader ε α} (hm : IsField n value m) (f : α → Reader ε β)
    (b : Bytes) :
    (m >>= f) b = if b.length < n then .error Truncated.truncated else f (value b) (b.drop n) := by
  show (m b >>= fun (x, rest) => f x rest) = _
  rw [hm b]
  split <;> rfl

theorem bind {n n' : Nat} {value : Bytes → α} {value' : α → Bytes → β} {m : Reader ε α} {f : α → Reader ε β}
    (hm : IsField n value m) (hf : ∀ x, IsField n' (value' x) (f x)) :
    IsField (n + n') (fun b => value' (value b) (b.drop n)) (m >>= f) := by
  intro b
  rw [hm.bind_eq, hf, ite_length_drop, List.drop_drop]

theorem bytes (n : Nat) : IsField n (fun b => b.part 0 n) (Reader.bytes n : Reader ε Bytes) := by
  intro b
  split
  · rename_i h
    exact bytes_eq_error_iff.2 ⟨h, rfl⟩
  · rename_i h
    exact bytes_eq_ok_iff.2 ⟨(List.take_append_drop n b).symm, List.length_take_of_le (Nat.not_lt.1 h)⟩

theorem word (n : Nat) (f : Nat → α) :
    IsField n (fun b => f (b.part 0 n).value) (do return f (← Reader.number n) : Reader ε α) :=
  ((bytes n).bind fun _ => pure _).bind fun _ => pure _

theorem u8 : IsField 1 (fun b => b.byteAt 0) (Reader.u8 : Reader ε UInt8) := by
  have hbyte : (fun b : Bytes => UInt8.ofNat (b.part 0 1).value) = fun b => b.byteAt 0 := by
    funext b
    rw [Bytes.value_part_one, UInt8.ofNat_toNat]
  rw [← hbyte]
  exact word 1 UInt8.ofNat

end IsField

omit [Truncated ε] in
/-- Where something is required, nothing is read. -/
theorem require_bind_eq (c : Prop) [Decidable c] (e : ε) (f : Unit → Reader ε β) (b : Bytes) :
    (require c e >>= f) b = if ¬c then .error e else f () b := by
  show (require c e b >>= fun (x, rest) => f x rest) = _
  unfold require
  by_cases h : c
  · rw [if_pos h, if_neg (not_not_intro h)]
    rfl
  · rw [if_neg h, if_pos h]
    rfl

omit [Truncated ε] in
/-- What is refused first is not looked at further. -/
theorem ite_error_bind (c : Prop) [Decidable c] (e : ε) (x : Except ε α) (f : α → Except ε β) :
    ((if c then .error e else x) >>= f) = if c then .error e else x >>= f := by
  split <;> rfl

end Reader

namespace Archive
open Reader (IsField)

theorem truncated_eq : (Truncated.truncated : Error) = .unsupportedFormat .truncated := rfl

/-- A text starts behind its length. -/
theorem isField_paddedText (width : Nat) : IsField (1 + width)
    (fun b => Text.decode (b.part 1 (min (b.byteAt 0).toNat width))) (paddedText width) := by
  have hfield : IsField _ _ (paddedText width) :=
    IsField.u8.bind fun length => (IsField.bytes width).bind fun field => .pure (Text.decode (field.take length.toNat))
  intro b
  rw [hfield b]
  simp only [Bytes.part, List.drop_drop, List.take_take, Nat.add_zero]

/-! ### What is at which place -/

/-- What a header of the second version says in its own part. -/
def Extended.ofPlaces (b : Bytes) : Extended where
  reserved := b.part 68 57
  locked := b.byteAt 125 ≠ 0
  reservedFlags := b.part 126 2
  copyright := Text.decode (b.part 129 (min (b.byteAt 128).toNat 63))
  comment := Text.decode (b.part 193 (min (b.byteAt 192).toNat 255))

/-- The version that a file says it has. -/
def numberAt (b : Bytes) : Nat := (b.part 10 2).value

/-- What a header says, each field at its place. -/
def Header.ofPlaces (b : Bytes) : Header where
  reserved := b.part 8 2
  iconCount := UInt32.ofNat (b.part 12 4).value
  reservedBlock := b.part 16 32
  timestamp := UInt64.ofNat (b.part 48 8).value
  reservedTail := b.part 56 8
  edition := if numberAt b = 1 then .first else .second (.ofPlaces b)

/-- What is wrong with a header, the first thing first. -/
def Header.fault? (b : Bytes) : Option Error :=
  if b.length < 8 then some (.unsupportedFormat .truncated)
  else if b.part 0 8 ≠ magic then some (.unsupportedFormat .magic)
  else if b.length < 12 then some (.unsupportedFormat .truncated)
  else if numberAt b ≠ 1 ∧ numberAt b ≠ 2 then some (.unsupportedVersion (UInt16.ofNat (numberAt b)))
  else if b.length < 64 then some (.unsupportedFormat .truncated)
  else if numberAt b = 1 then none
  else if b.length < 68 then some (.unsupportedFormat .truncated)
  else if b.part 64 4 ≠ extendedMagic then some (.unsupportedFormat .extendedMagic)
  else if b.length < 448 then some (.unsupportedFormat .truncated)
  else none

/-! ### Reading -/

theorem Version.read_bind_eq {α : Type} (f : Version → Reader Error α) (b : Bytes) :
    (Version.read >>= f) b = if b.length < 2 then .error (.unsupportedFormat .truncated)
      else match Version.ofNumber? (UInt16.ofNat (b.part 0 2).value) with
        | some v => f v (b.drop 2)
        | none => .error (.unsupportedVersion (UInt16.ofNat (b.part 0 2).value)) := by
  have hnumber : IsField (ε := Error) 2 _ Reader.u16 := IsField.word 2 UInt16.ofNat
  rw [Version.read, bind_assoc, hnumber.bind_eq]
  split
  · rfl
  · cases Version.ofNumber? (UInt16.ofNat (b.part 0 2).value) <;> rfl

theorem Extended.read_eq (b : Bytes) :
    Extended.read b = if b.length < 4 then .error (.unsupportedFormat .truncated)
      else if b.part 0 4 ≠ Header.extendedMagic then .error (.unsupportedFormat .extendedMagic)
      else if b.length < 384 then .error (.unsupportedFormat .truncated)
      else .ok (⟨b.part 4 57, b.byteAt 61 ≠ 0, b.part 62 2,
        Text.decode (b.part 65 (min (b.byteAt 64).toNat 63)),
        Text.decode (b.part 129 (min (b.byteAt 128).toNat 255))⟩, b.drop 384) := by
  have hfields : IsField (ε := Error) 380 _ _ :=
    (IsField.bytes 57).bind fun reserved => IsField.u8.bind fun lock => (IsField.bytes 2).bind fun flags =>
      (isField_paddedText 63).bind fun copyright => (isField_paddedText 255).bind fun comment =>
        .pure (⟨reserved, lock ≠ 0, flags, copyright, comment⟩ : Extended)
  rw [Extended.read, (IsField.bytes 4).bind_eq, Reader.require_bind_eq, hfields, List.length_drop]
  refine ite_congr rfl (fun _ => rfl) fun _ => ite_congr rfl (fun _ => rfl) fun _ => ?_
  refine ite_congr (propext (by omega)) (fun _ => rfl) fun _ => ?_
  simp only [Bytes.part_drop, Bytes.byteAt_drop, List.drop_drop, Nat.reduceAdd]

/-- What is read behind the first 64 bytes of a file. -/
theorem Edition.read_bind_eq {α : Type} (v : Version) (f : Edition → α) (b : Bytes) :
    (do return f (← Edition.read v) : Reader Error α) (b.drop 64) =
      if v = .first then .ok (f .first, b.drop 64)
      else if b.length < 68 then .error (.unsupportedFormat .truncated)
      else if b.part 64 4 ≠ Header.extendedMagic then .error (.unsupportedFormat .extendedMagic)
      else if b.length < 448 then .error (.unsupportedFormat .truncated)
      else .ok (f (.second (.ofPlaces b)), b.drop 448) := by
  cases v with
  | first => rfl
  | second =>
    have hlength : (b.drop 64).length = b.length - 64 := List.length_drop
    rw [Edition.read, bind_assoc, if_neg (by decide)]
    show (Extended.read (b.drop 64) >>= fun result => .ok (f (.second result.1), result.2)) = _
    rw [Extended.read_eq, hlength, Bytes.part_drop]
    simp only [Reader.ite_error_bind]
    refine ite_congr (propext (by omega)) (fun _ => rfl) fun _ => ite_congr rfl (fun _ => rfl) fun _ => ?_
    refine ite_congr (propext (by omega)) (fun _ => rfl) fun _ => ?_
    simp only [Bytes.part_drop, Bytes.byteAt_drop, List.drop_drop, Nat.reduceAdd]
    rfl

/-- What follows the version, up to the part that only one version has. -/
theorem Header.rest_bind_eq {α : Type} (f : UInt32 → Bytes → UInt64 → Bytes → Reader Error α) (b : Bytes) :
    (do f (← Reader.u32) (← Reader.bytes 32) (← Reader.u64) (← Reader.bytes 8) : Reader Error α) b =
      if b.length < 52 then .error (.unsupportedFormat .truncated)
      else f (UInt32.ofNat (b.part 0 4).value) (b.part 4 32) (UInt64.ofNat (b.part 36 8).value) (b.part 44 8)
        (b.drop 52) := by
  have hword : IsField (ε := Error) 4 _ Reader.u32 := IsField.word 4 UInt32.ofNat
  have hlong : IsField (ε := Error) 8 _ Reader.u64 := IsField.word 8 UInt64.ofNat
  rw [hword.bind_eq, (IsField.bytes 32).bind_eq, hlong.bind_eq, (IsField.bytes 8).bind_eq]
  simp only [Reader.ite_length_drop]
  simp only [Bytes.part_drop, List.drop_drop, Nat.reduceAdd]
  rfl

theorem toNat_numberAt {b : Bytes} (h : 12 ≤ b.length) : (UInt16.ofNat (numberAt b)).toNat = numberAt b := by
  have hlt := Bytes.value_lt (b.part 10 2)
  rw [Bytes.length_part h] at hlt
  exact UInt16.toNat_ofNat_of_lt' hlt

theorem Version.ofNumber?_numberAt_eq_none {b : Bytes} (h : 12 ≤ b.length) (h1 : numberAt b ≠ 1)
    (h2 : numberAt b ≠ 2) : Version.ofNumber? (UInt16.ofNat (numberAt b)) = none := by
  rw [Option.eq_none_iff_forall_ne_some]
  intro v hv
  have hnumber := congrArg UInt16.toNat (ofNumber?_eq_some_iff.1 hv)
  rw [toNat_numberAt h] at hnumber
  cases v with
  | first => exact h1 hnumber
  | second => exact h2 hnumber

theorem Version.ofNumber?_of_eq {b : Bytes} {v : Version} (h : numberAt b = v.number.toNat) :
    Version.ofNumber? (UInt16.ofNat (b.part 10 2).value) = some v := by
  rw [ofNumber?_eq_some_iff, ← UInt16.ofNat_toNat (x := v.number), ← h, numberAt]

/-- One check, on both sides. -/
theorem ite_eq_elim {α : Type} {c c' : Prop} [Decidable c] [Decidable c'] {e : Error} {x : Except Error α}
    {fault : Option Error} {y : α} (hc : c ↔ c') (h : ¬c' → x = fault.elim (.ok y) .error) :
    (if c then .error e else x) = (if c' then some e else fault).elim (.ok y) .error := by
  by_cases hc' : c'
  · rw [if_pos (hc.2 hc'), if_pos hc']
    rfl
  · rw [if_neg (hc' ∘ hc.1), if_neg hc', h hc']

theorem Header.read_eq (b : Bytes) :
    Header.read b = (fault? b).elim (.ok (ofPlaces b, b.drop (ofPlaces b).version.headerLength)) .error := by
  rw [Header.read, (IsField.bytes 8).bind_eq, Reader.require_bind_eq, (IsField.bytes 2).bind_eq,
    Version.read_bind_eq]
  simp only [truncated_eq, rest_bind_eq, Reader.ite_length_drop]
  simp only [Bytes.part_drop, List.drop_drop, List.length_drop, Nat.reduceAdd, Edition.read_bind_eq]
  unfold fault?
  refine ite_eq_elim Iff.rfl fun _ => ite_eq_elim Iff.rfl fun _ => ite_eq_elim (by omega) fun h12 => ?_
  -- The version is looked up before anything behind it, so its check stands between two lengths.
  by_cases hnumber : numberAt b ≠ 1 ∧ numberAt b ≠ 2
  · have hnone := Version.ofNumber?_numberAt_eq_none (Nat.not_lt.1 h12) hnumber.1 hnumber.2
    rw [numberAt] at hnone
    rw [if_pos hnumber, hnone]
    rfl
  obtain ⟨v, hv⟩ : ∃ v : Version, numberAt b = v.number.toNat := by
    rcases Nat.lt_or_ge 1 (numberAt b) with h | h
    · exact ⟨.second, show numberAt b = 2 by omega⟩
    · exact ⟨.first, show numberAt b = 1 by omega⟩
  rw [if_neg hnumber, Version.ofNumber?_of_eq hv]
  refine ite_eq_elim (by omega) fun _ => ?_
  cases v with
  | first =>
    have h1 : numberAt b = 1 := hv
    have hplaces : ofPlaces b = { ofPlaces b with edition := .first } := by rw [ofPlaces, if_pos h1]
    rw [if_pos h1, hplaces]
    rfl
  | second =>
    have h1 : ¬ numberAt b = 1 := by
      rw [hv]
      decide
    have hplaces : ofPlaces b = { ofPlaces b with edition := .second (.ofPlaces b) } := by
      rw [ofPlaces, if_neg h1]
    have hother : ¬Version.second = .first := by decide
    rw [if_neg hother, if_neg h1, hplaces]
    exact ite_eq_elim Iff.rfl fun _ => ite_eq_elim Iff.rfl fun _ => ite_eq_elim Iff.rfl fun _ => rfl

/-! ### Writing back -/

/-- What stands behind the first 64 bytes, up to the lock. -/
def Edition.front : Edition → Bytes
  | first => []
  | second x => Header.extendedMagic ++ x.reserved

/-- The bytes of a header up to the lock, which its fields keep as they are. -/
def Header.front (h : Header) : Bytes :=
  magic ++ (h.reserved ++ (Bytes.ofNat 2 h.version.number.toNat ++ (Bytes.ofNat 4 h.iconCount.toNat ++
    (h.reservedBlock ++ (Bytes.ofNat 8 h.timestamp.toNat ++ (h.reservedTail ++ h.edition.front))))))

theorem Edition.exists_eq_front_append {e : Edition} {b : Bytes} (hb : e.Written b) :
    ∃ tail, b = e.front ++ tail ∧ 64 + e.front.length = min e.version.headerLength 125 := by
  cases e with
  | first => exact ⟨b, rfl, rfl⟩
  | second x =>
    obtain ⟨⟨lock, copyright, comment, rfl, -, -, -⟩, hreserved, -⟩ := hb
    refine ⟨lock :: (x.reservedFlags ++ (copyright ++ comment)), (List.append_assoc ..).symm, ?_⟩
    rw [front, List.length_append, hreserved]
    rfl

theorem Header.exists_eq_front_append {h : Header} {b : Bytes} (hb : h.Written b) :
    ∃ tail, b = h.front ++ tail ∧ h.front.length = min h.version.headerLength 125 := by
  obtain ⟨⟨_, rfl, hedition⟩, hreserved, hblock, htail⟩ := hb
  obtain ⟨tail, rfl, hlength⟩ := Edition.exists_eq_front_append hedition
  refine ⟨tail, by simp only [front, List.append_assoc], ?_⟩
  rw [version, ← hlength]
  have hmagic : magic.length = 8 := rfl
  simp only [front, List.length_append, Bytes.length_ofNat, hmagic, hreserved, hblock, htail]
  omega

theorem Header.recordsOffset_ofPlaces {b : Bytes} (h : 16 ≤ b.length) :
    (ofPlaces b).recordsOffset = (if numberAt b = 1 then 0x40 else 0x440) + 4 * (b.part 12 4).value := by
  have hlt := Bytes.value_lt (b.part 12 4)
  rw [Bytes.length_part h] at hlt
  have hcount : (ofPlaces b).iconCount.toNat = (b.part 12 4).value := UInt32.toNat_ofNat_of_lt' hlt
  rw [recordsOffset, hcount, version, ofPlaces]
  by_cases h1 : numberAt b = 1
  · rw [if_pos h1, if_pos h1]
    rfl
  · rw [if_neg h1, if_neg h1]
    rfl

/-! ### Main statement -/

/-- All that there is to know of reading the header of a file. -/
structure Header.ReadDecided (b : Bytes) : Prop where
  error_iff : ∀ e, read b = .error e ↔ fault? b = some e
  ok_iff : ∀ h rest, read b = .ok (h, rest) ↔
    fault? b = none ∧ h = ofPlaces b ∧ rest = b.drop h.version.headerLength
  /-- The bytes that are taken off the file are there. -/
  length_le : ∀ h rest, read b = .ok (h, rest) → h.version.headerLength ≤ b.length
  /-- All of them that stand before the lock can be written again. -/
  front_eq : ∀ h rest, read b = .ok (h, rest) → (b.take h.version.headerLength).take 125 = h.front
  recordsOffset_eq : ∀ h rest, read b = .ok (h, rest) →
    h.recordsOffset = (if numberAt b = 1 then 0x40 else 0x440) + 4 * (b.part 12 4).value

theorem Header.read_eq_ok_iff_ofPlaces {h : Header} {b rest : Bytes} : read b = .ok (h, rest) ↔
    fault? b = none ∧ h = ofPlaces b ∧ rest = b.drop h.version.headerLength := by
  rw [read_eq]
  cases fault? b with
  | some e => simp
  | none =>
    simp only [Option.elim_none, Except.ok.injEq, Prod.mk.injEq, true_and]
    constructor
    · rintro ⟨rfl, rfl⟩
      exact ⟨rfl, rfl⟩
    · rintro ⟨rfl, rfl⟩
      exact ⟨rfl, rfl⟩

theorem Header.length_le_of_read {h : Header} {b rest : Bytes} (hread : read b = .ok (h, rest)) :
    h.version.headerLength ≤ b.length := by
  obtain ⟨front, hfront, rfl⟩ := read_eq_ok_iff.1 hread
  rw [← length_of_written hfront, List.length_append]
  exact Nat.le_add_right _ _

/-- **A header is refused for the first thing that is wrong with it**, and if nothing is, each
of its fields is what stands at its place. -/
theorem Header.read_decided (b : Bytes) : ReadDecided b where
  error_iff e := by
    rw [read_eq]
    cases fault? b <;> simp
  ok_iff _ _ := read_eq_ok_iff_ofPlaces
  length_le _ _ := length_le_of_read
  front_eq h rest hread := by
    obtain ⟨front, hfront, rfl⟩ := read_eq_ok_iff.1 hread
    obtain ⟨tail, hsplit, hlength⟩ := exists_eq_front_append hfront
    rw [List.take_take, Nat.min_comm, ← hlength, hsplit, List.append_assoc, List.take_left]
  recordsOffset_eq h rest hread := by
    have hle := length_le_of_read hread
    obtain ⟨-, rfl, -⟩ := read_eq_ok_iff_ofPlaces.1 hread
    refine recordsOffset_ofPlaces (Nat.le_trans ?_ hle)
    cases (ofPlaces b).version <;> decide

/-- A file of the second version whose texts claim to be longer than they can be, and one byte
more. -/
def overlong : Bytes :=
  Header.magic ++ ([1, 2] ++ (Bytes.ofNat 2 2 ++ (Bytes.ofNat 4 3 ++ (List.replicate 32 7 ++
    (List.replicate 8 9 ++ (List.replicate 8 5 ++ (Header.extendedMagic ++ (List.replicate 57 6 ++
      (2 :: ([0, 8] ++ (200 :: (List.replicate 63 0x41 ++ (255 :: (List.replicate 255 0x42 ++ [4]))))))))))))))

theorem Header.read_decided_of_overlong :
    (∃ h, read overlong = .ok (h, [4]) ∧ h = ofPlaces overlong ∧ overlong.take 125 = h.front) ∧
    read (overlong.take 20) = .error (.unsupportedFormat .truncated) ∧
    read ((overlong.take 12).set 11 3) = .error (.unsupportedVersion 3) := by
  have hwhole := read_decided overlong
  have hread : read overlong = .ok (ofPlaces overlong, [4]) :=
    (hwhole.ok_iff _ _).2 ⟨by decide +kernel, rfl, by decide +kernel⟩
  refine ⟨⟨_, hread, rfl, ?_⟩, ?_, ?_⟩
  · rw [← hwhole.front_eq _ _ hread]
    decide +kernel
  · exact ((read_decided _).error_iff _).2 (by decide +kernel)
  · exact ((read_decided _).error_iff _).2 (by decide +kernel)

end Archive
end ClassicIcons
