import ClassicIcons.Text.Classic

/-! Texts that are decoded byte by byte.

In Mac Roman every byte is a character, and no two bytes are the same one
(`MacRoman.char_injective`). So what does not start with a byte order mark is decoded byte by
byte: texts can be taken apart and put together like their bytes, and different bytes are
different texts. Behind a mark this is lost, for a mark is no character, and the encodings
that a mark announces have no more characters than bytes (`length_decode_lt`).
`decode_bytewise` says both. -/
namespace ClassicIcons.Text

namespace MacRoman

theorem length_upper : upper.toList.length = 128 := by decide +kernel

/-- The upper half has no character twice. -/
theorem nodup_upper : (upper.toList.map Char.toNat).Nodup := by decide +kernel

/-- The upper half has no character of ASCII. -/
theorem le_toNat_of_mem_upper {c : Char} (h : c ∈ upper.toList) : 0x80 ≤ c.toNat := by
  have hall : upper.toList.all (fun c => 0x80 ≤ c.toNat) = true := by decide +kernel
  simpa using List.all_eq_true.1 hall c h

theorem toNat_char_of_lt {b : UInt8} (h : b < 0x80) : (char b).toNat = b.toNat := by
  have hlt : b.toNat < 0x80 := UInt8.lt_iff_toNat_lt.1 h
  have hvalid : b.toNat.isValidChar := .inl (Nat.lt_trans hlt (by decide))
  rw [char, if_pos h, Char.ofNat, dif_pos hvalid]
  rfl

theorem getElem?_upper {b : UInt8} (h : ¬b < 0x80) : upper.toList[b.toNat - 0x80]? = some (char b) := by
  have hindex : b.toNat - 0x80 < upper.toList.length := by
    have hbyte := b.toNat_lt
    rw [length_upper]
    omega
  rw [char, if_neg h, Array.getD_eq_getD_getElem?, ← Array.getElem?_toList,
    List.getElem?_eq_getElem hindex, Option.getD_some]

theorem le_toNat_char {b : UInt8} (h : ¬b < 0x80) : 0x80 ≤ (char b).toNat :=
  le_toNat_of_mem_upper (List.mem_of_getElem? (getElem?_upper h))

theorem char_ne_of_lt {b c : UInt8} (hb : b < 0x80) (hc : ¬c < 0x80) : char b ≠ char c := by
  intro h
  have hlow : (char b).toNat < 0x80 := by
    rw [toNat_char_of_lt hb]
    exact UInt8.lt_iff_toNat_lt.1 hb
  rw [h] at hlow
  exact Nat.not_lt.2 (le_toNat_char hc) hlow

/-- No character stands for two bytes. -/
theorem char_injective {b c : UInt8} (h : char b = char c) : b = c := by
  apply UInt8.toNat_inj.1
  by_cases hb : b < 0x80 <;> by_cases hc : c < 0x80
  · rw [← toNat_char_of_lt hb, ← toNat_char_of_lt hc, h]
  · exact absurd h (char_ne_of_lt hb hc)
  · exact absurd h.symm (char_ne_of_lt hc hb)
  · have hplace {d : UInt8} (hd : ¬d < 0x80) :
        (upper.toList.map Char.toNat)[d.toNat - 0x80]? = some (char d).toNat := by
      rw [List.getElem?_map, getElem?_upper hd, Option.map_some]
    have hindex : b.toNat - 0x80 < (upper.toList.map Char.toNat).length :=
      (List.getElem?_eq_some_iff.1 (hplace hb)).1
    have hsame : b.toNat - 0x80 = c.toNat - 0x80 :=
      (List.getElem?_inj hindex nodup_upper).1 (by rw [hplace hb, hplace hc, h])
    have hb' : ¬b.toNat < 0x80 := fun h => hb (UInt8.lt_iff_toNat_lt.2 h)
    have hc' : ¬c.toNat < 0x80 := fun h => hc (UInt8.lt_iff_toNat_lt.2 h)
    omega

end MacRoman

/-! ### Other encodings -/

namespace Utf8

/-- How many characters may still come of the bytes that were read. -/
def pending : State → Nat
  | .start => 0
  | .inside .. => 1

theorem length_first_le (n : Nat) : (first n).1.length + pending (first n).2 ≤ 1 := by
  unfold first
  repeat' split
  all_goals exact Nat.le_refl 1

/-- A byte makes no more than one character. -/
theorem length_next_le (state : State) (n : Nat) :
    (next state n).1.length + pending (next state n).2 ≤ pending state + 1 := by
  cases state with
  | start => exact length_first_le n
  | inside more low high value =>
    simp only [next]
    split
    · split <;> exact Nat.le_succ 1
    · have hfirst := length_first_le n
      have hpending : pending (.inside more low high value) = 1 := rfl
      simp only [List.length_cons]
      omega

theorem length_decodeFrom_le (state : State) (b : Bytes) :
    (decodeFrom state b).length ≤ pending state + b.length := by
  induction b generalizing state with
  | nil => cases state <;> exact Nat.le_refl _
  | cons byte rest ih =>
    have hnext := length_next_le state byte.toNat
    have hrest := ih (next state byte.toNat).2
    rw [decodeFrom, List.length_append, List.length_cons]
    omega

theorem length_decode_le (b : Bytes) : (decode b).length ≤ b.length := by
  have h := length_decodeFrom_le .start b
  rwa [pending, Nat.zero_add] at h

end Utf8

namespace Utf16

/-- How many characters may still come of the units that were read. -/
def pending : Option Nat → Nat
  | none => 0
  | some _ => 1

theorem length_first_le (n : Nat) : (first n).1.length + pending (first n).2 ≤ 1 := by
  unfold first
  repeat' split
  all_goals exact Nat.le_refl 1

/-- A unit makes no more than one character. -/
theorem length_next_le (waiting : Option Nat) (n : Nat) :
    (next waiting n).1.length + pending (next waiting n).2 ≤ pending waiting + 1 := by
  cases waiting with
  | none => exact length_first_le n
  | some lead =>
    simp only [next]
    split
    · exact Nat.le_succ 1
    · have hfirst := length_first_le n
      have hpending : pending (some lead) = 1 := rfl
      simp only [List.length_cons]
      omega

theorem length_decodeFrom_le (waiting : Option Nat) (units : List Unit16) :
    (decodeFrom waiting units).length ≤ pending waiting + units.length := by
  induction units generalizing waiting with
  | nil => cases waiting <;> exact Nat.le_refl _
  | cons unit rest ih =>
    cases unit with
    | odd =>
      have hone : decodeFrom waiting (.odd :: rest) = [replacement] := by
        cases waiting <;> rfl
      rw [hone, List.length_cons, List.length_cons]
      exact Nat.le_trans (Nat.succ_le_succ (Nat.zero_le _)) (Nat.le_add_left _ _)
    | unit n =>
      have hnext := length_next_le waiting n
      have hrest := ih (next waiting n).2
      rw [decodeFrom, List.length_append, List.length_cons]
      omega

theorem length_units_le (order : Order) (b : Bytes) : (units order b).length ≤ b.length := by
  fun_induction units order b with
  | case1 first second rest n ih =>
    simp only [List.length_cons]
    omega
  | case2 => exact Nat.le_refl 1
  | case3 => exact Nat.le_refl 0

theorem length_decode_le (order : Order) (b : Bytes) : (decode order b).length ≤ b.length := by
  have h := length_decodeFrom_le none (units order b)
  rw [pending, Nat.zero_add] at h
  exact Nat.le_trans h (length_units_le order b)

end Utf16

/-! ### Marks -/

/-- A text that starts with a byte order mark. -/
def Marked (b : Bytes) : Prop := ∃ mark : Mark, mark.bytes <+: b

namespace Mark

theorem mem_all (mark : Mark) : mark ∈ all := by
  rcases mark with _ | _ | _ <;> decide

theorem of?_eq_none_iff {b : Bytes} : of? b = none ↔ ¬Marked b := by
  simp only [of?, List.find?_eq_none, List.isPrefixOf_iff_prefix, Marked, not_exists]
  exact ⟨fun h mark => h mark (mem_all mark), fun h mark _ => h mark⟩

theorem isPrefix_of_of? {mark : Mark} {b : Bytes} (h : of? b = some mark) : mark.bytes <+: b := by
  have hfound : all.find? (fun mark => mark.bytes.isPrefixOf b) = some mark := h
  have hprefix : mark.bytes.isPrefixOf b = true := by simpa using List.find?_some hfound
  exact List.isPrefixOf_iff_prefix.1 hprefix

end Mark

instance (b : Bytes) : Decidable (Marked b) :=
  decidable_of_decidable_of_iff (p := ¬Mark.of? b = none)
    (by rw [Mark.of?_eq_none_iff, Classical.not_not])

/-- The front of a text without a mark has none. -/
theorem not_marked_of_append {a b : Bytes} (h : ¬Marked (a ++ b)) : ¬Marked a :=
  fun ⟨mark, hmark⟩ => h ⟨mark, hmark.trans (List.prefix_append a b)⟩

/-- Behind a mark a text has fewer characters than bytes. -/
theorem length_decode_lt {b : Bytes} (h : Marked b) : (decode b).length < b.length := by
  obtain ⟨mark, hmark⟩ : ∃ mark, Mark.of? b = some mark := by
    rw [← Option.isSome_iff_exists, Option.isSome_iff_ne_none, ne_eq, Mark.of?_eq_none_iff]
    exact not_not_intro h
  have hlong : mark.bytes.length ≤ b.length := (Mark.isPrefix_of_of? hmark).length_le
  have hpos : 0 < mark.bytes.length := by rcases mark with _ | _ | _ <;> decide
  have hrest : (chars b).length ≤ (b.drop mark.bytes.length).length := by
    unfold chars
    rw [hmark]
    cases mark with
    | utf8 => exact Utf8.length_decode_le _
    | utf16 order => exact Utf16.length_decode_le order _
  rw [List.length_drop] at hrest
  rw [decode, String.length_ofList]
  omega

/-! ### Unmarked texts -/

/-- Decoded with one character for each byte, each that of its byte alone. -/
structure Bytewise (b : Bytes) : Prop where
  length : (decode b).length = b.length
  char (i : Nat) : (decode b).toList[i]? = b[i]?.map MacRoman.char

theorem toList_decode {b : Bytes} (h : ¬Marked b) : (decode b).toList = MacRoman.decode b := by
  rw [decode, String.toList_ofList, chars_of_no_mark (Mark.of?_eq_none_iff.2 h), MacRoman.decode]

/-- Exactly the texts without a mark are decoded byte by byte. -/
theorem bytewise_iff {b : Bytes} : Bytewise b ↔ ¬Marked b := by
  constructor
  · intro h hmarked
    exact Nat.ne_of_lt (length_decode_lt hmarked) h.length
  · intro h
    refine ⟨?_, fun i => ?_⟩
    · rw [← String.length_toList, toList_decode h, MacRoman.length_decode]
    · rw [toList_decode h, MacRoman.decode, List.getElem?_map]

theorem decode_append {a b : Bytes} (hall : ¬Marked (a ++ b)) (hb : ¬Marked b) :
    decode (a ++ b) = decode a ++ decode b := by
  apply String.toList_inj.1
  rw [String.toList_append, toList_decode hall, toList_decode (not_marked_of_append hall),
    toList_decode hb, MacRoman.decode_append]

theorem decode_inj {a b : Bytes} (ha : ¬Marked a) (hb : ¬Marked b) : decode a = decode b ↔ a = b := by
  rw [← String.toList_inj, toList_decode ha, toList_decode hb]
  exact List.map_inj_right fun _ _ => MacRoman.char_injective

/-- **A text is decoded byte by byte just if it has no mark.** The table has no repetitions,
so texts without a mark can be put together like their bytes, and no two of them look the
same. A text with a mark comes out too short. -/
theorem decode_bytewise (b : Bytes) :
    (Bytewise b ↔ ¬Marked b) ∧
    (Marked b → (decode b).length < b.length) ∧
    (∀ a, ¬Marked (a ++ b) → ¬Marked b → decode (a ++ b) = decode a ++ decode b) ∧
    (∀ a, ¬Marked a → ¬Marked b → decode a = decode b → a = b) ∧
    ∀ x y, MacRoman.char x = MacRoman.char y → x = y := by
  refine ⟨bytewise_iff, length_decode_lt, ?_, ?_, ?_⟩
  · exact fun a => decode_append
  · exact fun a ha hb => (decode_inj ha hb).1
  · exact fun x y => MacRoman.char_injective

/-- "Café", put together from two parts. -/
theorem decode_bytewise_of_cafe :
    let front : Bytes := [0x43, 0x61]
    let rest : Bytes := [0x66, 0x8e]
    ¬Marked (front ++ rest) ∧ ¬Marked rest ∧ Bytewise rest ∧
      decode (front ++ rest) = decode front ++ decode rest ∧ decode (front ++ rest) = "Café" := by
  intro front rest
  have hall : ¬Marked (front ++ rest) := by decide
  have hrest : ¬Marked rest := by decide
  obtain ⟨hbytewise, -, happend, -, -⟩ := decode_bytewise rest
  exact ⟨hall, hrest, hbytewise.2 hrest, happend front hall hrest, by decide +kernel⟩

/-- The two bytes of "ˇ˛" are a byte order mark, so nothing is left of that text: it looks
like the empty one, and not like its two letters. -/
theorem decode_not_bytewise :
    let caron : Bytes := [0xff]
    let ogonek : Bytes := [0xfe]
    decode caron = "ˇ" ∧ decode ogonek = "˛" ∧ ¬Bytewise (caron ++ ogonek) ∧
      decode (caron ++ ogonek) ≠ decode caron ++ decode ogonek ∧
      decode (caron ++ ogonek) = decode [] := by
  intro caron ogonek
  have hmarked : Marked (caron ++ ogonek) := ⟨.utf16 .little, List.prefix_refl _⟩
  exact ⟨by decide +kernel, by decide +kernel, fun h => bytewise_iff.1 h hmarked,
    by decide +kernel, by decide +kernel⟩

end ClassicIcons.Text
