import ClassicIcons.Proofs.Extract.Writing
import ClassicIcons.Zlib.Stream

/-! Where extracted files can be.

An icon can be called anything, and still its file is put into the directory that it is meant
for, under a name of its own (`Confined`): of the icon's name nothing is left that could lead
elsewhere (`sanitized`), and names of files tell icons apart as far as their numbers and what
is left of their names do (`fileName_eq_iff`). Nor does an icon ever take the place of the
archive that it comes from, not even in the same directory (`readFile_of_writeFile`).
`fileName_lawful` puts this together. -/
namespace ClassicIcons.Extract
open Archive (Icon)
open Disk (Path)

/-! ### What is left of a name -/

/-- Characters that have a meaning in the paths of one system or another, and those that
cannot be seen. -/
def Unfit (c : Char) : Prop :=
  c = '/' ∨ c = '\\' ∨ c = ':' ∨ c.toNat < 0x20 ∨ 0x7f ≤ c.toNat ∧ c.toNat < 0xa0

theorem isForbidden_iff {c : Char} : isForbidden c = true ↔ Unfit c := by
  simp [isForbidden, isControl, Unfit, or_assoc]

theorem not_unfit_of_mem_sanitize {name : String} {c : Char} (hc : c ∈ (sanitize name).toList) :
    ¬Unfit c := by
  rw [← isForbidden_iff, not_isForbidden_of_mem_sanitize hc]
  exact Bool.false_ne_true

theorem length_sanitize (name : String) : (sanitize name).length = name.length := by
  rw [← String.length_toList, ← String.length_toList, toList_sanitize, List.length_map]

theorem sanitize_sanitize (name : String) : sanitize (sanitize name) = sanitize name := by
  apply String.toList_inj.1
  rw [toList_sanitize]
  refine (List.map_congr_left fun c hc => ?_).trans (List.map_id _)
  rw [not_isForbidden_of_mem_sanitize hc]
  rfl

/-- Just the unfit characters are changed. -/
theorem getElem?_sanitize_ne_iff {name : String} {i : Nat} {c : Char} (hc : name.toList[i]? = some c) :
    (sanitize name).toList[i]? ≠ some c ↔ Unfit c := by
  rw [toList_sanitize, List.getElem?_map, hc, ← isForbidden_iff, Option.map_some]
  cases h : isForbidden c with
  | false => simp
  | true =>
    have hne : '_' ≠ c := by
      intro heq
      rw [← heq] at h
      cases h
    simpa using hne

theorem sanitize_eq_empty_iff {name : String} : sanitize name = "" ↔ name = "" := by
  rw [← String.toList_eq_nil_iff, ← String.toList_eq_nil_iff, toList_sanitize, List.map_eq_nil_iff]

/-- All that there is to know of what is left of a name. -/
structure Sanitized (name : String) : Prop where
  idempotent : sanitize (sanitize name) = sanitize name
  length : (sanitize name).length = name.length
  changed : ∀ (i : Nat) (c : Char), name.toList[i]? = some c →
    ((sanitize name).toList[i]? ≠ some c ↔ Unfit c)
  fit : ∀ c ∈ (sanitize name).toList, ¬Unfit c

theorem sanitized (name : String) : Sanitized name where
  idempotent := sanitize_sanitize name
  length := length_sanitize name
  changed _ _ := getElem?_sanitize_ne_iff
  fit _ := not_unfit_of_mem_sanitize

/-! ### Names of files -/

/-- What the name of an icon adds to the name of its file. -/
def addition (name : String) : String := if name = "" then "" else "_" ++ sanitize name

theorem fileName_eq (stem : String) (index : Nat) (name : String) :
    fileName stem index name = stem ++ "_" ++ toString index ++ addition name ++ ".icns" := rfl

theorem not_unfit_of_mem_addition {name : String} {c : Char} (hc : c ∈ (addition name).toList) :
    ¬Unfit c := by
  unfold addition at hc
  split at hc
  · cases hc
  · rw [String.toList_append] at hc
    rcases List.mem_append.1 hc with hc | hc
    · rw [List.mem_singleton.1 hc, ← isForbidden_iff]
      decide
    · exact not_unfit_of_mem_sanitize hc

theorem addition_eq (name : String) :
    addition name = if sanitize name = "" then "" else "_" ++ sanitize name := by
  simp only [addition, sanitize_eq_empty_iff]

/-- An icon adds to the name of its file just what is left of its own. -/
theorem addition_eq_iff {name other : String} :
    addition name = addition other ↔ sanitize name = sanitize other := by
  have hne (s : String) : "_" ++ s ≠ "" := by
    intro h
    have hlist := congrArg String.toList h
    rw [String.toList_append] at hlist
    cases hlist
  constructor
  · intro h
    rw [addition_eq, addition_eq] at h
    split at h
    · rename_i hname
      split at h
      · rename_i hother
        rw [hname, hother]
      · exact absurd h.symm (hne _)
    · split at h
      · exact absurd h (hne _)
      · have hlist := congrArg String.toList h
        rw [String.toList_append, String.toList_append] at hlist
        exact String.toList_inj.1 (List.append_cancel_left hlist)
  · intro h
    rw [addition_eq, addition_eq, h]

/-- **Names of files are apart** unless the numbers of the icons are the same, and what is left
of their names. -/
theorem fileName_eq_iff {stem : String} {i j : Nat} {name other : String} :
    fileName stem i name = fileName stem j other ↔ i = j ∧ sanitize name = sanitize other := by
  rw [← addition_eq_iff]
  constructor
  · intro h
    obtain rfl := index_of_fileName_eq h
    rw [fileName_eq, fileName_eq] at h
    have hlist := congrArg String.toList h
    simp only [String.toList_append, List.append_assoc, List.append_cancel_left_eq, List.append_cancel_right_eq] at hlist
    exact ⟨rfl, String.toList_inj.1 hlist⟩
  · intro h
    rw [fileName_eq, fileName_eq, h.1, h.2]

/-! ### Places -/

/-- A file of this name that is put into a directory is there, and nowhere else. -/
structure Confined (name : String) : Prop where
  slash : '/' ∉ name.toList
  ordinary : name ≠ "" ∧ name ≠ "." ∧ name ≠ ".."
  /-- The name is one part of a path. -/
  parts_eq : Path.parts ⟨name⟩ = [name]
  parts_join : ∀ dir : Path, (dir.join name).parts = dir.parts ++ [name]
  leads : ∀ (d : Disk) (dir : Path) (l : Disk.Location), d.Leads (dir.join name) l →
    ∃ into, d.Enters dir into ∧ l = into ++ [name]
  written : ∀ (d d' : Disk) (dir : Path) (content : Bytes), d.writeFile (dir.join name) content = .ok d' →
    ∃ into, d.Enters dir into ∧ d' = d.put (into ++ [name]) (.file content)

theorem confined_fileName {stem : String} (hstem : '/' ∉ stem.toList) (index : Nat) (name : String) :
    Confined (fileName stem index name) := by
  have hne := fileName_ne_empty stem index name
  have hslash := slash_not_mem_fileName hstem index name
  have hname := isName_fileName stem index name
  exact {
    slash := hslash
    ordinary := ⟨hne, Disk.isName_iff.1 hname⟩
    parts_eq := Path.parts_name hne hslash
    parts_join := fun dir => dir.parts_join hne hslash
    leads := by
      intro d dir l hl
      obtain ⟨into, hinto, -, -, rfl⟩ := (Disk.leads_join_iff hne hslash hname).1 hl
      exact ⟨into, hinto, rfl⟩
    written := by
      intro d d' dir content hd
      obtain ⟨-, -, -, into, hinto, -, rfl⟩ := (Disk.writeFile_join_iff hne hslash).1 hd
      exact ⟨into, hinto, rfl⟩ }

/-- Wherever an icon's file is put, the archive that it comes from stays as it is. -/
theorem readFile_of_writeFile {input dir : Path} {d d' : Disk} {index : Nat} {name : String}
    {data content : Bytes} (hread : d.readFile input = .ok data)
    (hwrite : d.writeFile (dir.join (fileName (stemOf input) index name)) content = .ok d') :
    d'.readFile input = .ok data := by
  have hslash := slash_not_mem_fileName (slash_not_mem_stemOf input) index name
  obtain ⟨-, -, -, into, -, hfree, rfl⟩ :=
    (Disk.writeFile_join_iff (fileName_ne_empty _ index name) hslash).1 hwrite
  have hne := Disk.concat_ne_nil into (fileName (stemOf input) index name)
  refine Disk.readFile_of_grows hread (Disk.grows_put hne (.inr hfree)) fun l hl => ?_
  obtain ⟨-, -, l', hl', hfile⟩ := Disk.readFile_eq_ok_iff.1 hread
  obtain rfl := hl.unique hl'
  rw [Disk.find?_put d hne, if_neg (ne_of_leads_input hl hfile into index name)]

/-- The files of an archive are at different places. -/
theorem nodup_parts_target [Zlib.Decoder] {stem : String} (hstem : '/' ∉ stem.toList) (a : Archive) (output : Path) :
    (a.icons.map fun icon => (target output stem icon).parts).Nodup := by
  have hindex := List.pairwise_map.1 a.nodup_index_icons
  refine List.pairwise_map.2 (hindex.imp fun {icon other} hne h => hne ?_)
  rw [target, target, (confined_fileName hstem _ _).parts_join, (confined_fileName hstem _ _).parts_join] at h
  exact index_of_fileName_eq (List.singleton_inj.1 (List.append_cancel_left h))

/-! ### Main statement -/

/-- All that there is to know of the names of files with this stem. -/
structure FileNameLaws [Zlib.Decoder] (stem : String) : Prop where
  confined : ∀ index name, Confined (fileName stem index name)
  /-- What comes of the icon's name is fit for a name of a file. -/
  fit : ∀ index name, ∃ part, fileName stem index name = stem ++ "_" ++ toString index ++ part ++ ".icns" ∧
    ∀ c ∈ part.toList, ¬Unfit c
  eq_iff : ∀ i j name other,
    fileName stem i name = fileName stem j other ↔ i = j ∧ sanitize name = sanitize other
  /-- No two icons of an archive go to one place. -/
  apart : ∀ (a : Archive) (output : Path), (a.icons.map fun icon => (target output stem icon).parts).Nodup
  /-- The archive is called something else. -/
  own : ∀ own, Path.stem own = stem → ∀ index name, fileName stem index name ≠ own
  /-- The archive is not overwritten, wherever the file is put. -/
  kept : ∀ (input dir : Path) (d d' : Disk) index name (data content : Bytes), stemOf input = stem →
    d.readFile input = .ok data → d.writeFile (dir.join (fileName stem index name)) content = .ok d' →
    d'.readFile input = .ok data

theorem fileNameLaws [Zlib.Decoder] {stem : String} (hstem : '/' ∉ stem.toList) : FileNameLaws stem where
  confined := confined_fileName hstem
  fit _ name := ⟨addition name, rfl, fun _ => not_unfit_of_mem_addition⟩
  eq_iff _ _ _ _ := fileName_eq_iff
  apart := nodup_parts_target hstem
  own := by
    intro own hown index name
    subst hown
    exact fileName_ne_of_stem own index name
  kept := by
    intro input dir d d' index name data content hinput hread hwrite
    subst hinput
    exact readFile_of_writeFile hread hwrite

/-- **Files stay where they are put, and apart**, whatever the icons are called. The stem of
their names can be that of any path, or any other text without a slash. -/
theorem fileName_lawful [Zlib.Decoder] (stem : String) (hstem : '/' ∉ stem.toList) :
    FileNameLaws stem ∧ (∀ input : Path, '/' ∉ (stemOf input).toList) ∧ ∀ name, Sanitized name :=
  ⟨fileNameLaws hstem, slash_not_mem_stemOf, sanitized⟩

attribute [local instance] Zlib.inflater

/-- Icons that are called like paths, or like the end of another's file. -/
theorem fileName_lawful_of_imitations :
    '/' ∉ "a".toList ∧ Confined (fileName "a" 1 "../../2_b.icns") ∧
      fileName "a" 1 "2_b" ≠ fileName "a" 12 "b" ∧ fileName "a" 1 "b:c" = fileName "a" 1 "b\\c" ∧
      fileName "a" 0 "" ≠ "a.icns" := by
  have hstem : '/' ∉ "a".toList := by decide
  obtain ⟨hlaws, -, -⟩ := fileName_lawful "a" hstem
  refine ⟨hstem, hlaws.confined 1 _, ?_, ?_, hlaws.own _ (by decide) 0 _⟩
  · intro h
    exact absurd ((hlaws.eq_iff _ _ _ _).1 h).1 (by decide)
  · exact (hlaws.eq_iff _ _ _ _).2 ⟨rfl, by decide⟩

end ClassicIcons.Extract
