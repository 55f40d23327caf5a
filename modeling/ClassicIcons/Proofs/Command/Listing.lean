import ClassicIcons.Command.Listing
import ClassicIcons.Proofs.Archive.Icons
import ClassicIcons.Proofs.Archive.Messages
import Mathlib.Data.List.DropRight

/-! What a listing says.

There is one line of text for each item (`oneLine_of_mem_items`), and the line can be read
back. It says that the record is skipped just if it is, and why
(`itemLine_eq_skipLine_iff`). Otherwise it shows the kinds of the icon at its end, in
their order and no others, whatever stands in the name before them
(`kindsShown_itemLine`). -/
namespace ClassicIcons.Command
open Archive (Item Icon)
open Text (OneLine)

/-! ### Records that are skipped -/

/-- The line of a record that is skipped. -/
def skipLine (index : Nat) (reason : String) : String :=
  "Icon " ++ toString index ++ ": skipped (" ++ reason ++ ")"

theorem itemLine_of_error {item : Item} {e : Archive.Error} (h : item.result = .error e) :
    itemLine item = skipLine item.index e.message := by
  have hword : ": skipped (" = ": " ++ "skipped (" := by decide
  simp only [itemLine, h, skipLine, hword, String.append_assoc]

theorem skipLine_injective {index : Nat} {reason reason' : String}
    (h : skipLine index reason = skipLine index reason') : reason = reason' := by
  have hlist := congrArg String.toList h
  simp only [skipLine, String.toList_append] at hlist
  exact String.toList_inj.1 (List.append_cancel_left (List.append_cancel_right hlist))

/-- The line of an icon goes on with a quote. -/
theorem itemLine_ne_skipLine {item : Item} {icon : Icon} (h : item.result = .ok icon) (reason : String) :
    itemLine item ≠ skipLine item.index reason := by
  intro heq
  have hword : ": skipped (" = ": " ++ "skipped (" := by decide
  have hs : ("skipped (").toList = 's' :: "kipped (".toList := by decide
  simp only [itemLine, h, skipLine, hword, String.append_assoc] at heq
  have hlist := congrArg String.toList heq
  simp only [String.toList_append, List.append_assoc, Text.quoted, String.toList_ofList, hs] at hlist
  cases List.append_cancel_left (List.append_cancel_left (List.append_cancel_left hlist))

/-- **A line says that a record is skipped just if it is**, and gives the reason. -/
theorem itemLine_eq_skipLine_iff {item : Item} {reason : String} :
    itemLine item = skipLine item.index reason ↔ ∃ e, item.result = .error e ∧ e.message = reason := by
  constructor
  · intro h
    cases hresult : item.result with
    | ok icon => exact absurd h (itemLine_ne_skipLine hresult reason)
    | error e =>
      rw [itemLine_of_error hresult] at h
      exact ⟨e, rfl, skipLine_injective h⟩
  · intro h
    obtain ⟨e, hresult, rfl⟩ := h
    exact itemLine_of_error hresult

/-! ### Kinds -/

/-- The kind that a word stands for. -/
def ofKindText? (word : List Char) : Option Kind := Kind.all.find? fun k => (kindText k).toList = word

/-- The kinds that a line shows: its last words, as far back as they stand for kinds. -/
def kindsShown (line : String) : List Kind :=
  ((line.toList.splitOn ' ').rtakeWhile fun word => (ofKindText? word).isSome).filterMap ofKindText?

theorem ofKindText?_kindText (k : Kind) : ofKindText? (kindText k).toList = some k := by
  have hall : ∀ k ∈ Kind.all, ofKindText? (kindText k).toList = some k := by decide
  exact hall k k.mem_all

theorem space_not_mem_kindText (k : Kind) : ' ' ∉ (kindText k).toList := by
  have hall : ∀ k ∈ Kind.all, ' ' ∉ (kindText k).toList := by decide
  exact hall k k.mem_all

/-- The last words are taken, up to one that is not wanted. -/
theorem rtakeWhile_append_cons {α : Type} {p : α → Bool} (front : List α) {x : α} (hx : ¬ p x = true)
    {back : List α} (hback : ∀ y ∈ back, p y = true) : (front ++ x :: back).rtakeWhile p = back := by
  have hreverse : ∀ y ∈ back.reverse, p y = true := fun y hy => hback y (List.mem_reverse.1 hy)
  rw [List.rtakeWhile, List.reverse_append, List.reverse_cons, List.append_assoc,
    List.takeWhile_append_of_pos hreverse, List.singleton_append, List.takeWhile_cons_of_neg hx,
    List.append_nil, List.reverse_reverse]

/-- The words of a line that shows an icon: there is one that ends what is said of the data,
and behind it there are the kinds. -/
theorem splitOn_itemLine {item : Item} {icon : Icon} (h : item.result = .ok icon) :
    ∃ front, (itemLine item).toList.splitOn ' ' = front ++ "data)".toList ::
      ([' '].intercalate (icon.kinds.map fun k => (kindText k).toList)).splitOn ' ' := by
  have hbyte : " byte data) " = " byte" ++ " data) " := by decide
  obtain ⟨front, hline⟩ : ∃ front, itemLine item =
      front ++ (" data) " ++ String.intercalate " " (icon.kinds.map kindText)) := by
    refine ⟨"Icon " ++ toString item.index ++ ": " ++ Text.quoted icon.name ++ " (" ++
      toString icon.data.length ++ " byte", ?_⟩
    simp only [itemLine, h, hbyte, String.append_assoc]
  have hdata : " data) ".toList = ' ' :: ("data)".toList ++ [' ']) := by decide
  have hspace : ' ' ∉ "data)".toList := by decide
  have hlist : (itemLine item).toList = front.toList ++ ' ' :: ("data)".toList ++ ' ' ::
      [' '].intercalate (icon.kinds.map fun k => (kindText k).toList)) := by
    rw [hline, String.toList_append, String.toList_append, String.toList_intercalate, hdata, List.map_map,
      List.cons_append, List.append_assoc]
    rfl
  refine ⟨front.toList.splitOn ' ', ?_⟩
  rw [hlist, List.splitOn_append_cons_self, List.splitOn_append_cons_self_of_not_mem hspace]

/-- **A line shows the kinds of its icon**, in their order. -/
theorem kindsShown_itemLine {item : Item} {icon : Icon} (h : item.result = .ok icon) :
    kindsShown (itemLine item) = icon.kinds := by
  obtain ⟨front, hwords⟩ := splitOn_itemLine h
  have hdata : ¬ (ofKindText? "data)".toList).isSome = true := by decide
  rw [kindsShown, hwords]
  by_cases hkinds : icon.kinds = []
  · -- Nothing stands behind the last space then, and that stands for no kind.
    have hempty : ¬ (ofKindText? []).isSome = true := by decide
    have hnone := List.rtakeWhile_concat_neg (fun word => (ofKindText? word).isSome)
      (front ++ ["data)".toList]) [] hempty
    rw [hkinds, List.map_nil, List.intercalate_nil, List.splitOn_nil, List.append_cons, hnone]
    rfl
  · have hspaces : ∀ word ∈ icon.kinds.map fun k => (kindText k).toList, ' ' ∉ word := by
      intro word hword
      obtain ⟨k, -, rfl⟩ := List.mem_map.1 hword
      exact space_not_mem_kindText k
    have hback : ∀ word ∈ icon.kinds.map fun k => (kindText k).toList, (ofKindText? word).isSome = true := by
      intro word hword
      obtain ⟨k, -, rfl⟩ := List.mem_map.1 hword
      rw [ofKindText?_kindText]
      rfl
    rw [List.splitOn_intercalate ' ' hspaces (by simpa using hkinds), rtakeWhile_append_cons front hdata hback,
      List.filterMap_map]
    simp [ofKindText?_kindText]

/-! ### Lines -/

theorem oneLine_kindText (k : Kind) : OneLine (kindText k) := by
  have hall : ∀ k ∈ Kind.all, OneLine (kindText k) := by decide
  exact hall k k.mem_all

/-- The line of an item has one line break at most, the one that ends it. -/
theorem oneLine_itemLine {item : Item} (h : ∀ e, item.result = .error e → OneLine e.message) :
    OneLine (itemLine item) := by
  have hnumber : OneLine ("Icon " ++ toString item.index ++ ": ") :=
    Text.oneLine_around (by decide) (by decide) item.index
  cases hresult : item.result with
  | ok icon =>
    have hname : OneLine (Text.quoted icon.name ++ " (") := (Text.oneLine_quoted icon.name).append (by decide)
    have hdata : OneLine (Text.quoted icon.name ++ " (" ++ toString icon.data.length ++ " byte data) ") :=
      Text.oneLine_around hname (by decide) icon.data.length
    have hkinds : OneLine (String.intercalate " " (icon.kinds.map kindText)) := by
      apply Text.oneLine_intercalate (by decide)
      intro text htext
      obtain ⟨k, -, rfl⟩ := List.mem_map.1 htext
      exact oneLine_kindText k
    simp only [itemLine, hresult]
    exact hnumber.append (hdata.append hkinds)
  | error e =>
    simp only [itemLine, hresult]
    have hreason : OneLine ("skipped (" ++ e.message) := OneLine.append (by decide) (h e hresult)
    exact hnumber.append (hreason.append (by decide))

/-- **Every item of an archive has a line of its own.** -/
theorem oneLine_of_mem_items [Zlib.Decoder] [Zlib.Decoder.Lawful] {a : Archive} {item : Item}
    (h : item ∈ a.items) : OneLine (itemLine item) := by
  obtain ⟨i, -, rfl⟩ := Archive.exists_found h
  exact oneLine_itemLine fun e he => Archive.oneLine_of_found he

end ClassicIcons.Command
