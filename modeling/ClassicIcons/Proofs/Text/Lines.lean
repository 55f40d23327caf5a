import ClassicIcons.Text.Quoted

/-! Texts on one line.

A text is on one line if none of the characters is in it at which a line may be broken.
Numbers are (`oneLine_toString`), and so is a quoted text, whatever is quoted
(`oneLine_quoted`): a line break does not show, so it is written as its number. -/
namespace ClassicIcons.Text

/-- The characters at which a line may be broken. -/
def lineBreaks : List Char := ['\n', '\x0b', '\x0c', '\r', '\u0085', '\u2028', '\u2029']

/-- There is no line break in the text. -/
def OneLine (s : String) : Prop := ∀ c ∈ s.toList, c ∉ lineBreaks

instance (s : String) : Decidable (OneLine s) :=
  List.decidableBAll (fun c => c ∉ lineBreaks) s.toList

theorem OneLine.append {s t : String} (hs : OneLine s) (ht : OneLine t) : OneLine (s ++ t) := by
  intro c hc
  rw [String.toList_append] at hc
  rcases List.mem_append.1 hc with hc | hc
  · exact hs c hc
  · exact ht c hc

theorem oneLine_intercalate {separator : String} (hseparator : OneLine separator) {texts : List String}
    (h : ∀ s ∈ texts, OneLine s) : OneLine (separator.intercalate texts) := by
  induction texts with
  | nil =>
    rw [String.intercalate_nil]
    decide
  | cons s texts ih =>
    have hs := h s List.mem_cons_self
    have ih := ih fun t ht => h t (List.mem_cons_of_mem s ht)
    cases texts with
    | nil =>
      rw [String.intercalate_singleton]
      exact hs
    | cons t texts =>
      rw [String.intercalate_cons_cons]
      exact (hs.append hseparator).append ih

/-! ### Numbers -/

theorem exists_digitChar {b n : Nat} (hb : 1 < b) {c : Char} (h : c ∈ Nat.toDigits b n) :
    ∃ d, Nat.digitChar d = c := by
  induction n using Nat.strongRecOn with
  | _ n ih =>
    rw [Nat.toDigits_eq_if hb] at h
    split at h
    · exact ⟨n, (List.mem_singleton.1 h).symm⟩
    · rename_i hn
      rcases List.mem_append.1 h with h | h
      · exact ih (n / b) (Nat.div_lt_self (by omega) hb) h
      · exact ⟨n % b, (List.mem_singleton.1 h).symm⟩

/-- No digit is a line break, up to any base. -/
theorem not_mem_lineBreaks_of_mem_toDigits {b n : Nat} (hb : 1 < b) {c : Char}
    (h : c ∈ Nat.toDigits b n) : c ∉ lineBreaks := by
  obtain ⟨d, rfl⟩ := exists_digitChar hb h
  intro hbreak
  simp [lineBreaks] at hbreak

theorem oneLine_toString (n : Nat) : OneLine (toString n) := by
  intro c hc
  rw [Nat.toString_eq_ofList_toDigits, String.toList_ofList] at hc
  exact not_mem_lineBreaks_of_mem_toDigits (by decide) hc

/-- A number between two texts. -/
theorem oneLine_around {before after : String} (hbefore : OneLine before) (hafter : OneLine after)
    (n : Nat) : OneLine (before ++ toString n ++ after) :=
  (hbefore.append (oneLine_toString n)).append hafter

/-! ### Quoted texts -/

theorem printable_lineBreak {c : Char} (h : c ∈ lineBreaks) : printable c = false := by
  have hall : lineBreaks.all (fun c => !printable c) = true := by decide +kernel
  simpa using List.all_eq_true.1 hall c h

/-- The letters that stand behind a backslash for a character of their own. -/
def escapes : List Char := ['0', 't', 'r', 'n', '\\', '"']

/-- A character is written with a backslash and a letter, as itself, or as its number. -/
theorem quotedChar_cases (c : Char) :
    (∃ e ∈ escapes, quotedChar c = ['\\', e]) ∨ (printable c = true ∧ quotedChar c = [c]) ∨
      quotedChar c = ['\\', 'u', '\x7b'] ++ hexadecimal c.toNat ++ ['\x7d'] := by
  unfold quotedChar
  split
  · exact .inl ⟨'0', by decide, rfl⟩
  split
  · exact .inl ⟨'t', by decide, rfl⟩
  split
  · exact .inl ⟨'r', by decide, rfl⟩
  split
  · exact .inl ⟨'n', by decide, rfl⟩
  split
  · rename_i hself
    refine .inl ⟨c, ?_, rfl⟩
    rcases hself with rfl | rfl <;> decide
  split
  · rename_i hprintable
    exact .inr (.inl ⟨hprintable, rfl⟩)
  · exact .inr (.inr rfl)

/-- However it is written, there is no line break in that. -/
theorem not_mem_lineBreaks_of_mem_quotedChar {c d : Char} (h : d ∈ quotedChar c) : d ∉ lineBreaks := by
  rcases quotedChar_cases c with ⟨e, he, hquoted⟩ | ⟨hprintable, hquoted⟩ | hquoted
  · have hescaped : ∀ e ∈ escapes, ∀ d ∈ ['\\', e], d ∉ lineBreaks := by simp [escapes, lineBreaks]
    rw [hquoted] at h
    exact hescaped e he d h
  · rw [hquoted, List.mem_singleton] at h
    subst h
    intro hbreak
    rw [printable_lineBreak hbreak] at hprintable
    cases hprintable
  · have hbraces : ∀ d ∈ ['\\', 'u', '\x7b', '\x7d'], d ∉ lineBreaks := by simp [lineBreaks]
    rw [hquoted] at h
    rcases List.mem_append.1 h with h | h
    · rcases List.mem_append.1 h with h | h
      · exact hbraces d (List.mem_append_left ['\x7d'] h)
      · exact not_mem_lineBreaks_of_mem_toDigits (by decide) h
    · exact hbraces d (List.mem_append_right ['\\', 'u', '\x7b'] h)

/-- **A quoted text is on one line**, whatever the text is. -/
theorem oneLine_quoted (s : String) : OneLine (quoted s) := by
  have hquote : ∀ c ∈ ['"'], c ∉ lineBreaks := by simp [lineBreaks]
  intro c hc
  rw [quoted, String.toList_ofList] at hc
  rcases List.mem_append.1 hc with hc | hc
  · rcases List.mem_append.1 hc with hc | hc
    · exact hquote c hc
    · obtain ⟨d, -, hd⟩ := List.mem_flatMap.1 hc
      exact not_mem_lineBreaks_of_mem_quotedChar hd
  · exact hquote c hc

end ClassicIcons.Text
