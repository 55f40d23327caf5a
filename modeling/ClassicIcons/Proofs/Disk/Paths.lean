import ClassicIcons.Disk.Path

/-! The parts of a path.

A name without slashes that is put at the end of a path becomes its last part, whether
or not the path ends in a slash, and the parts before it are those of the path
(`parts_join`). A path that ends in a name has the stem of this name, and the name goes
on behind its stem with a dot or not at all (`exists_toList_stem`). -/
namespace ClassicIcons.Disk

/-! ### Texts between slashes -/

theorem splitSlashes_slash (s : List Char) : splitSlashes ('/' :: s) = [] :: splitSlashes s := rfl

/-- A character that is no slash belongs to the first text. -/
theorem splitSlashes_cons {c : Char} (hc : c ≠ '/') {s first : List Char} {rest : List (List Char)}
    (h : splitSlashes s = first :: rest) : splitSlashes (c :: s) = (c :: first) :: rest := by
  unfold splitSlashes at h ⊢
  rw [List.foldr_cons, h]
  split
  · exact absurd rfl hc
  · rename_i heq
    cases heq
    rfl
  · rename_i heq
    cases heq

theorem exists_splitSlashes (s : List Char) : ∃ first rest, splitSlashes s = first :: rest := by
  induction s with
  | nil => exact ⟨[], [], rfl⟩
  | cons c s ih =>
    by_cases hc : c = '/'
    · subst hc
      exact ⟨[], _, rfl⟩
    · obtain ⟨first, rest, h⟩ := ih
      exact ⟨c :: first, rest, splitSlashes_cons hc h⟩

theorem splitSlashes_append (s t : List Char) :
    splitSlashes (s ++ '/' :: t) = splitSlashes s ++ splitSlashes t := by
  induction s with
  | nil => rfl
  | cons c s ih =>
    by_cases hc : c = '/'
    · subst hc
      rw [List.cons_append, splitSlashes_slash, splitSlashes_slash, ih, List.cons_append]
    · obtain ⟨first, rest, h⟩ := exists_splitSlashes s
      rw [h, List.cons_append] at ih
      rw [List.cons_append, splitSlashes_cons hc ih, splitSlashes_cons hc h, List.cons_append]

theorem splitSlashes_of_no_slash {s : List Char} (h : '/' ∉ s) : splitSlashes s = [s] := by
  induction s with
  | nil => rfl
  | cons c s ih =>
    have hc : c ≠ '/' := fun heq => h (heq ▸ List.mem_cons_self ..)
    exact splitSlashes_cons hc (ih fun hmem => h (List.mem_cons_of_mem c hmem))

/-- The texts are made of the characters between the slashes. -/
theorem mem_of_mem_splitSlashes {s t : List Char} (ht : t ∈ splitSlashes s) {c : Char} (hc : c ∈ t) :
    c ≠ '/' ∧ c ∈ s := by
  induction s generalizing t with
  | nil =>
    obtain rfl := List.mem_singleton.1 ht
    cases hc
  | cons a s ih =>
    by_cases ha : a = '/'
    · subst ha
      rcases List.mem_cons.1 ht with rfl | ht
      · cases hc
      · exact ⟨(ih ht hc).1, List.mem_cons_of_mem _ (ih ht hc).2⟩
    · obtain ⟨first, rest, h⟩ := exists_splitSlashes s
      rw [splitSlashes_cons ha h] at ht
      rcases List.mem_cons.1 ht with rfl | ht
      · rcases List.mem_cons.1 hc with rfl | hc
        · exact ⟨ha, List.mem_cons_self ..⟩
        · have := ih (h ▸ List.mem_cons_self ..) hc
          exact ⟨this.1, List.mem_cons_of_mem _ this.2⟩
      · have := ih (h ▸ List.mem_cons_of_mem _ ht) hc
        exact ⟨this.1, List.mem_cons_of_mem _ this.2⟩

/-! ### Parts -/

namespace Path

/-- The parts of a text. -/
theorem parts_mk (s : String) :
    parts ⟨s⟩ = ((splitSlashes s.toList).filter fun part => part ≠ []).map String.ofList := rfl

theorem parts_append {s t : String} :
    parts ⟨s ++ "/" ++ t⟩ = parts ⟨s⟩ ++ parts ⟨t⟩ := by
  have hsplit : (s ++ "/" ++ t).toList = s.toList ++ '/' :: t.toList := by
    rw [String.toList_append, String.toList_append, List.append_assoc]
    rfl
  rw [parts_mk, hsplit, splitSlashes_append, List.filter_append, List.map_append, parts_mk, parts_mk]

/-- A name is its own only part. -/
theorem parts_name {name : String} (hne : name ≠ "") (hslash : '/' ∉ name.toList) :
    parts ⟨name⟩ = [name] := by
  have hlist : name.toList ≠ [] := fun h => hne (String.toList_eq_nil_iff.1 h)
  have hkept : [name.toList].filter (fun part => part ≠ []) = [name.toList] :=
    List.filter_cons_of_pos (decide_eq_true hlist)
  rw [parts_mk, splitSlashes_of_no_slash hslash, hkept]
  show [String.ofList name.toList] = [name]
  rw [String.ofList_toList]

variable {name : String}

/-- The path in front of a name ends in a slash in any case, if it is not empty. -/
theorem text_join (p : Path) (hslash : '/' ∉ name.toList) :
    (p.join name).text = p.text ++ name ∧ (p.text = "" ∨ p.endsInSlash = true) ∨
      (p.join name).text = p.text ++ "/" ++ name ∧ p.text ≠ "" ∧ p.endsInSlash = false := by
  have hhead : name.toList.head? ≠ some '/' := fun h => hslash (List.mem_of_head? h)
  rw [join, if_neg hhead]
  by_cases h : p.text = "" ∨ p.endsInSlash = true
  · rw [if_pos h]
    exact .inl ⟨rfl, h⟩
  · rw [if_neg h]
    rw [not_or, Bool.not_eq_true] at h
    exact .inr ⟨rfl, h⟩

/-- **A name at the end of a path is its last part.** -/
theorem parts_join (p : Path) (hne : name ≠ "") (hslash : '/' ∉ name.toList) :
    (p.join name).parts = p.parts ++ [name] := by
  rcases text_join p hslash with ⟨htext, hempty | hends⟩ | ⟨htext, -⟩
  · have hjoin : p.join name = ⟨name⟩ := by
      rw [hempty, String.empty_append] at htext
      exact congrArg Path.mk htext
    have hp : p = ⟨""⟩ := congrArg Path.mk hempty
    rw [hjoin, hp, parts_name hne hslash]
    rfl
  · obtain ⟨front, hfront⟩ := List.getLast?_eq_some_iff.1 (of_decide_eq_true hends)
    have hp : p.text = String.ofList front ++ "/" := by
      apply String.toList_inj.1
      rw [String.toList_append, String.toList_ofList, hfront]
      rfl
    have hparts : p.parts = parts ⟨String.ofList front ++ "/" ++ ""⟩ := by
      rw [String.append_empty, ← hp]
    have hjoin : p.join name = ⟨String.ofList front ++ "/" ++ name⟩ := by
      rw [hp] at htext
      exact congrArg Path.mk htext
    rw [hjoin, hparts, parts_append, parts_append, parts_name hne hslash, List.append_assoc]
    rfl
  · have hjoin : p.join name = ⟨p.text ++ "/" ++ name⟩ := congrArg Path.mk htext
    rw [hjoin, parts_append, parts_name hne hslash]

/-- A path that ends in a name does not end in a slash. -/
theorem endsInSlash_join (p : Path) (hne : name ≠ "") (hslash : '/' ∉ name.toList) :
    (p.join name).endsInSlash = false := by
  have hlist : name.toList ≠ [] := fun h => hne (String.toList_eq_nil_iff.1 h)
  have hlast := List.getLast?_eq_some_getLast hlist
  have hjoin : (p.join name).text.toList.getLast? = some (name.toList.getLast hlist) := by
    rcases text_join p hslash with ⟨htext, -⟩ | ⟨htext, -⟩
    · rw [htext, String.toList_append, List.getLast?_append, hlast, Option.some_or]
    · rw [htext, String.toList_append, List.getLast?_append, hlast, Option.some_or]
  have hchar : name.toList.getLast hlist ≠ '/' := fun h => hslash (h ▸ List.getLast_mem hlist)
  rw [endsInSlash, hjoin]
  exact decide_eq_false fun h => hchar (Option.some.inj h)

theorem mem_of_mem_parts {p : Path} {part : String} (hpart : part ∈ p.parts) {c : Char}
    (hc : c ∈ part.toList) : c ≠ '/' ∧ c ∈ p.text.toList := by
  obtain ⟨t, ht, rfl⟩ := List.mem_map.1 hpart
  rw [String.toList_ofList] at hc
  exact mem_of_mem_splitSlashes (List.mem_filter.1 ht).1 hc

/-! ### Stems -/

/-- A name goes on behind its stem with a dot, or not at all. -/
theorem exists_toList_stem (name : String) :
    ∃ rest, name.toList = (stem name).toList ++ rest ∧ (rest = [] ∨ rest.head? = some '.') := by
  simp only [stem]
  split
  · exact ⟨[], (List.append_nil _).symm, .inl rfl⟩
  · rename_i hne
    have hsplit := List.takeWhile_append_dropWhile (p := (· ≠ '.')) (l := name.toList.reverse)
    have hhead := List.head?_dropWhile_not (· ≠ '.') name.toList.reverse
    cases hdrop : name.toList.reverse.dropWhile (· ≠ '.') with
    | nil =>
      rw [hdrop] at hne
      exact absurd rfl hne
    | cons dot front =>
      rw [hdrop] at hsplit hhead
      have hdot : dot = '.' := by simpa using hhead
      refine ⟨'.' :: (name.toList.reverse.takeWhile (· ≠ '.')).reverse, ?_, .inr rfl⟩
      calc name.toList
        _ = (name.toList.reverse.takeWhile (· ≠ '.') ++ dot :: front).reverse := by
          rw [hsplit, List.reverse_reverse]
        _ = _ := by
          rw [String.toList_ofList, hdot]
          simp

theorem mem_of_mem_stem {name : String} {c : Char} (hc : c ∈ (stem name).toList) :
    c ∈ name.toList := by
  obtain ⟨rest, hname, -⟩ := exists_toList_stem name
  rw [hname]
  exact List.mem_append_left rest hc

/-- A path that ends in a name of its own has this name. -/
theorem fileName?_of_parts {p : Path} {front : List String} {name : String}
    (hparts : p.parts = front ++ [name]) (hdot : name ≠ ".") (hup : name ≠ "..") :
    p.fileName? = some name := by
  have hlast : (p.parts.filter fun part => part ≠ ".").getLast? = some name := by
    have hkept : [name].filter (fun part => part ≠ ".") = [name] :=
      List.filter_cons_of_pos (decide_eq_true hdot)
    rw [hparts, List.filter_append, hkept]
    exact List.getLast?_concat
  unfold fileName?
  rw [hlast]
  split
  · rename_i heq
    exact absurd (Option.some.inj heq) hup
  · rfl

theorem mem_parts_of_fileName? {p : Path} {name : String} (h : p.fileName? = some name) :
    name ∈ p.parts := by
  unfold fileName? at h
  split at h
  · cases h
  · exact (List.mem_filter.1 (List.mem_of_getLast? h)).1

end Path
end ClassicIcons.Disk
