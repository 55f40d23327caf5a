import ClassicIcons.Extract.FileName
import ClassicIcons.Proofs.Disk.Paths
import ClassicIcons.Proofs.Disk.Following

/-! The names of extracted files.

Whatever an icon is called, the name of its file is a name that can stand in a directory:
it is not empty, leads neither upwards nor to where it stands, and has no slash and no NUL
(`isName_fileName`, `slash_not_mem_fileName`, `nul_not_mem_fileName`). What may be wrong
with it is its length (`utf8ByteSize_fileName_le`).

Two icons never share a file, whatever their names are (`index_of_fileName_eq`), for
the number ends where the first character after it is no digit. Nor is there a file for an
icon under the name of the archive itself (`fileName_ne_of_stem`): this name goes on behind
its stem with a dot, that of a file with an underscore. -/
namespace ClassicIcons.Extract
open Disk (Path)

/-! ### What a name is made of -/

/-- What stands behind the number. -/
def afterNumber (name : String) : List Char :=
  (if name = "" then [] else '_' :: (sanitize name).toList) ++ ['.', 'i', 'c', 'n', 's']

theorem toList_toString (n : Nat) : (toString n).toList = Nat.toDigits 10 n := by
  rw [Nat.toString_eq_ofList_toDigits, String.toList_ofList]

theorem toList_fileName (stem : String) (index : Nat) (name : String) :
    (fileName stem index name).toList =
      stem.toList ++ '_' :: (Nat.toDigits 10 index ++ afterNumber name) := by
  have hlist : ".icns".toList = ['.', 'i', 'c', 'n', 's'] := rfl
  simp only [fileName, afterNumber, String.toList_append, toList_toString, hlist, List.append_assoc]
  split <;> simp [String.toList_append]

/-- Behind the number stands no digit. -/
theorem exists_afterNumber (name : String) :
    ∃ c rest, afterNumber name = c :: rest ∧ c.isDigit = false := by
  unfold afterNumber
  split
  · exact ⟨'.', _, rfl, rfl⟩
  · exact ⟨'_', _, rfl, rfl⟩

theorem toList_sanitize (name : String) :
    (sanitize name).toList = name.toList.map fun c => if isForbidden c then '_' else c :=
  String.toList_ofList ..

/-- What is forbidden is replaced. -/
theorem not_isForbidden_of_mem_sanitize {name : String} {c : Char} (hc : c ∈ (sanitize name).toList) :
    isForbidden c = false := by
  rw [toList_sanitize] at hc
  obtain ⟨a, -, rfl⟩ := List.mem_map.1 hc
  split
  · rfl
  · rename_i ha
    exact Bool.not_eq_true _ ▸ ha

theorem toNat_of_isDigit {c : Char} (hc : c.isDigit = true) : 48 ≤ c.toNat ∧ c.toNat ≤ 57 := by
  simpa [Char.isDigit, UInt32.le_iff_toNat_le] using hc

theorem isForbidden_of_isDigit {c : Char} (hc : c.isDigit = true) : isForbidden c = false := by
  have hrange := toNat_of_isDigit hc
  have hne : ∀ a : Char, a.toNat < 48 ∨ 57 < a.toNat → c ≠ a := by
    intro a ha heq
    rw [← heq] at ha
    omega
  have hcontrol : isControl c = false := by
    simp only [isControl, Bool.or_eq_false_iff, Bool.and_eq_false_iff, decide_eq_false_iff_not]
    omega
  simp [isForbidden, hcontrol, hne '/' (by decide), hne '\\' (by decide), hne ':' (by decide)]

/-- Only the stem can bring something forbidden into the name of a file. -/
theorem mem_stem_of_isForbidden {stem : String} {index : Nat} {name : String} {c : Char}
    (hc : c ∈ (fileName stem index name).toList) (hforbidden : isForbidden c = true) :
    c ∈ stem.toList := by
  have hno : ¬isForbidden c = false := by
    rw [hforbidden]
    exact Bool.noConfusion
  rw [toList_fileName, afterNumber] at hc
  simp only [List.mem_append, List.mem_cons] at hc
  rcases hc with hc | rfl | hc | hc | hc
  · exact hc
  · exact absurd rfl hno
  · exact absurd (isForbidden_of_isDigit (Nat.isDigit_of_mem_toDigits (by decide) (by decide) hc)) hno
  · split at hc
    · cases hc
    · rcases List.mem_cons.1 hc with rfl | hc
      · exact absurd rfl hno
      · exact absurd (not_isForbidden_of_mem_sanitize hc) hno
  · rcases hc with rfl | rfl | rfl | rfl | rfl | hc
    · exact absurd rfl hno
    · exact absurd rfl hno
    · exact absurd rfl hno
    · exact absurd rfl hno
    · exact absurd rfl hno
    · cases hc

theorem slash_not_mem_fileName {stem : String} (hstem : '/' ∉ stem.toList) (index : Nat) (name : String) :
    '/' ∉ (fileName stem index name).toList :=
  fun hc => hstem (mem_stem_of_isForbidden hc rfl)

theorem nul_not_mem_fileName {stem : String} (hstem : '\x00' ∉ stem.toList) (index : Nat) (name : String) :
    '\x00' ∉ (fileName stem index name).toList :=
  fun hc => hstem (mem_stem_of_isForbidden hc rfl)

/-- The name of a file is longer than what leads upwards or stays. -/
theorem three_le_length_fileName (stem : String) (index : Nat) (name : String) :
    3 ≤ (fileName stem index name).toList.length := by
  rw [toList_fileName, afterNumber]
  simp only [List.length_append, List.length_cons, List.length_nil]
  omega

theorem fileName_ne_empty (stem : String) (index : Nat) (name : String) :
    fileName stem index name ≠ "" := by
  intro h
  have := three_le_length_fileName stem index name
  rw [h] at this
  exact absurd this (by decide)

theorem isName_fileName (stem : String) (index : Nat) (name : String) :
    Disk.isName (fileName stem index name) = true := by
  have hne : ∀ part : String, part.toList.length < 3 → fileName stem index name ≠ part := by
    intro part hpart h
    have := three_le_length_fileName stem index name
    rw [h] at this
    omega
  exact Disk.isName_iff.2 ⟨hne "." (by decide), hne ".." (by decide)⟩

/-! ### What tells names apart -/

theorem takeWhile_afterNumber (index : Nat) (name : String) :
    (Nat.toDigits 10 index ++ afterNumber name).takeWhile Char.isDigit = Nat.toDigits 10 index := by
  obtain ⟨c, rest, hafter, hc⟩ := exists_afterNumber name
  rw [List.takeWhile_append_of_pos fun c => Nat.isDigit_of_mem_toDigits (by decide) (by decide), hafter,
    List.takeWhile_cons_of_neg (by rw [hc]; exact Bool.false_ne_true), List.append_nil]

/-- **Files of one archive are told apart by their numbers.** -/
theorem index_of_fileName_eq {stem : String} {i j : Nat} {name other : String}
    (h : fileName stem i name = fileName stem j other) : i = j := by
  have hlist := congrArg String.toList h
  rw [toList_fileName, toList_fileName] at hlist
  have hbehind := List.cons.inj (List.append_cancel_left hlist) |>.2
  -- The names of the icons may have digits in them, but behind something that is none.
  have hdigits : Nat.toDigits 10 i = Nat.toDigits 10 j := by
    rw [← takeWhile_afterNumber i name, hbehind, takeWhile_afterNumber]
  calc i
    _ = Nat.ofDigitChars 10 (Nat.toDigits 10 i) 0 := Nat.ofDigitChars_ten_toDigits.symm
    _ = Nat.ofDigitChars 10 (Nat.toDigits 10 j) 0 := by rw [hdigits]
    _ = j := Nat.ofDigitChars_ten_toDigits

/-- No file is named like that from whose name the stem is taken. -/
theorem fileName_ne_of_stem (own : String) (index : Nat) (name : String) :
    fileName (Path.stem own) index name ≠ own := by
  intro h
  obtain ⟨rest, hown, hrest⟩ := Path.exists_toList_stem own
  have hlist := congrArg String.toList h
  rw [toList_fileName, hown] at hlist
  have hbehind := List.append_cancel_left hlist
  rcases hrest with rfl | hdot
  · cases hbehind
  · rw [← hbehind] at hdot
    exact absurd hdot (by simp)

/-! ### The stem -/

theorem stemOf_of_fileName? {input : Path} {own : String} (h : input.fileName? = some own) :
    stemOf input = Path.stem own := by
  rw [stemOf, Path.fileStem?, h]
  rfl

/-- The stem comes from the path, or is a word of our own. -/
theorem mem_stemOf {input : Path} {c : Char} (hc : c ∈ (stemOf input).toList) :
    (c ≠ '/' ∧ c ∈ input.text.toList) ∨ c ∈ "icon".toList := by
  unfold stemOf Path.fileStem? at hc
  cases h : input.fileName? with
  | none =>
    rw [h] at hc
    exact .inr hc
  | some name =>
    rw [h] at hc
    exact .inl (Path.mem_of_mem_parts (Path.mem_parts_of_fileName? h) (Path.mem_of_mem_stem hc))

theorem slash_not_mem_stemOf (input : Path) : '/' ∉ (stemOf input).toList := by
  intro hc
  rcases mem_stemOf hc with h | h
  · exact h.1 rfl
  · exact absurd h (by decide)

theorem nul_not_mem_stemOf {input : Path} (h : '\x00' ∉ input.text.toList) :
    '\x00' ∉ (stemOf input).toList := by
  intro hc
  rcases mem_stemOf hc with hc | hc
  · exact h hc.2
  · exact absurd hc (by decide)

/-! ### Lengths -/

theorem utf8ByteSize_map_le {f : Char → Char} (hf : ∀ c, (f c).utf8Size ≤ c.utf8Size) (s : List Char) :
    (String.ofList (s.map f)).utf8ByteSize ≤ (String.ofList s).utf8ByteSize := by
  induction s with
  | nil => exact Nat.le_refl _
  | cons c s ih =>
    rw [List.map_cons, String.ofList_cons, String.ofList_cons, String.utf8ByteSize_append,
      String.utf8ByteSize_append, String.utf8ByteSize_singleton, String.utf8ByteSize_singleton]
    exact Nat.add_le_add (hf c) ih

theorem utf8ByteSize_sanitize_le (name : String) : (sanitize name).utf8ByteSize ≤ name.utf8ByteSize := by
  have hone (c : Char) : (if isForbidden c then '_' else c).utf8Size ≤ c.utf8Size := by
    split
    · exact c.utf8Size_pos
    · exact Nat.le_refl _
  calc (sanitize name).utf8ByteSize
    _ ≤ (String.ofList name.toList).utf8ByteSize := utf8ByteSize_map_le hone name.toList
    _ = name.utf8ByteSize := by rw [String.ofList_toList]

/-- Characters of one byte each. -/
theorem utf8ByteSize_of_ascii {s : List Char} (h : ∀ c ∈ s, c.utf8Size = 1) :
    (String.ofList s).utf8ByteSize = s.length := by
  induction s with
  | nil => rfl
  | cons c s ih =>
    rw [String.ofList_cons, String.utf8ByteSize_append, String.utf8ByteSize_singleton,
      h c (List.mem_cons_self ..), ih fun c hc => h c (List.mem_cons_of_mem _ hc), List.length_cons,
      Nat.add_comm]

theorem utf8Size_of_isDigit {c : Char} (hc : c.isDigit = true) : c.utf8Size = 1 :=
  Char.utf8Size_eq_one_iff.2 (UInt32.le_iff_toNat_le.2 (Nat.le_trans (toNat_of_isDigit hc).2 (by decide)))

/-- The number has at most ten digits. -/
theorem utf8ByteSize_toString_le {index : Nat} (h : index < UInt32.size) :
    (toString index).utf8ByteSize ≤ 10 := by
  rw [Nat.toString_eq_ofList_toDigits,
    utf8ByteSize_of_ascii fun c hc =>
      utf8Size_of_isDigit (Nat.isDigit_of_mem_toDigits (by decide) (by decide) hc),
    Nat.length_toDigits_le_iff (by decide) (by decide)]
  exact Nat.lt_trans h (by decide)

/-- **The name of a file is at most 17 bytes longer than the stem and the name of the icon.** -/
theorem utf8ByteSize_fileName_le (stem : String) {index : Nat} (h : index < UInt32.size) (name : String) :
    (fileName stem index name).utf8ByteSize ≤ stem.utf8ByteSize + name.utf8ByteSize + 17 := by
  have hindex := utf8ByteSize_toString_le h
  have hname := utf8ByteSize_sanitize_le name
  have hunderscore : "_".utf8ByteSize = 1 := rfl
  have hicns : ".icns".utf8ByteSize = 5 := rfl
  simp only [fileName, String.utf8ByteSize_append, hunderscore, hicns]
  split
  · have hempty : "".utf8ByteSize = 0 := rfl
    omega
  · rw [String.utf8ByteSize_append, hunderscore]
    omega

theorem length_le_utf8ByteSize (s : List Char) : s.length ≤ (String.ofList s).utf8ByteSize := by
  induction s with
  | nil => exact Nat.zero_le _
  | cons c s ih =>
    have hc := c.utf8Size_pos
    rw [String.ofList_cons, String.utf8ByteSize_append, String.utf8ByteSize_singleton, List.length_cons]
    omega

/-- The name of a file is longer than the name of the icon. -/
theorem length_lt_utf8ByteSize_fileName (stem : String) (index : Nat) (name : String) :
    name.toList.length < (fileName stem index name).utf8ByteSize := by
  have hle := length_le_utf8ByteSize (fileName stem index name).toList
  rw [String.ofList_toList, toList_fileName, afterNumber] at hle
  by_cases hname : name = ""
  · rw [hname] at hle ⊢
    simp only [List.length_append, List.length_cons, List.length_nil] at hle
    have hempty : "".toList.length = 0 := rfl
    omega
  · rw [if_neg hname, toList_sanitize] at hle
    simp only [List.length_append, List.length_cons, List.length_map] at hle
    omega

end ClassicIcons.Extract
