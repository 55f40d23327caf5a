import ClassicIcons.Proofs.Extract.FileNames
import ClassicIcons.Proofs.Extract.Running

/-! Writing icons to a disk.

Icons are written one after another, each to a file of its own in one directory
(`Writes`). Afterwards each of them has its file, with all of its content: no later icon
has taken it away (`Writes.stored`). Nothing else has changed (`Writes.unchanged`).

On every system with a disk, creating files is writing them to the disk (`Created.writes`). -/
namespace ClassicIcons.Extract
open Archive (Icon)
open Disk (Path Location Storage System)

/-- The icons are written one after another. -/
inductive Writes (output : Path) (stem : String) : List Icon → Disk → Disk → Prop
  | nil (d : Disk) : Writes output stem [] d d
  | cons {i : Icon} {icons : List Icon} {d mid d' : Disk}
      (hfirst : d.writeFile (target output stem i) (Icns.Family.ofIcon i).bytes = .ok mid)
      (hrest : Writes output stem icons mid d') : Writes output stem (i :: icons) d d'

/-! ### What is on the disk -/

section
variable {output : Path} {stem : String} (hstem : '/' ∉ stem.toList)
include hstem

theorem leads_target_iff {d : Disk} {i : Icon} {l : Location} : d.Leads (target output stem i) l ↔
    ∃ into, d.Enters output into ∧ d.tooLong (fileName stem i.index i.name) = false ∧
      d.find? (into ++ [fileName stem i.index i.name]) ≠ none ∧
      into ++ [fileName stem i.index i.name] = l :=
  Disk.leads_join_iff (fileName_ne_empty stem i.index i.name)
    (slash_not_mem_fileName hstem i.index i.name) (isName_fileName stem i.index i.name)

/-- Icons that share a location share their number. -/
theorem index_of_leads {d : Disk} {i j : Icon} {l : Location} (hi : d.Leads (target output stem i) l)
    (hj : d.Leads (target output stem j) l) : i.index = j.index := by
  obtain ⟨_, -, -, -, heq⟩ := (leads_target_iff hstem).1 hi
  obtain ⟨_, -, -, -, heq'⟩ := (leads_target_iff hstem).1 hj
  exact index_of_fileName_eq (List.singleton_inj.1 (List.append_inj_right' (heq.trans heq'.symm) rfl))

/-- Writing an icon puts its file in the directory, and changes nothing else. -/
theorem write_step {d mid : Disk} {i : Icon} {content : Bytes}
    (h : d.writeFile (target output stem i) content = .ok mid) :
    ∃ into, d.Enters output into ∧ d.Grows mid ∧ mid.readFile (target output stem i) = .ok content ∧
      mid.Leads (target output stem i) (into ++ [fileName stem i.index i.name]) ∧
      d.find? (into ++ [fileName stem i.index i.name]) ≠ some .directory ∧
      ∀ l, mid.find? l = if l = into ++ [fileName stem i.index i.name] then some (.file content)
        else d.find? l := by
  have hne := fileName_ne_empty stem i.index i.name
  have hslash := slash_not_mem_fileName hstem i.index i.name
  obtain ⟨hfault, -, hshort, into, hinto, hfree, rfl⟩ := (Disk.writeFile_join_iff hne hslash).1 h
  have hl := Disk.concat_ne_nil into (fileName stem i.index i.name)
  have hfind := d.find?_put hl
  have hgrows := Disk.grows_put hl (.inr hfree) (e := .file content)
  have hfile := (hfind (into ++ [fileName stem i.index i.name]) (.file content)).trans (if_pos rfl)
  have hleads := (leads_target_iff hstem).2
    ⟨into, hinto.of_grows hgrows, (hgrows.tooLong_eq _).trans hshort,
      by rw [hfile]; exact Option.some_ne_none _, rfl⟩
  have hread := Disk.readFile_eq_ok_iff.2
    ⟨(hgrows.fault?_eq _).trans hfault, output.endsInSlash_join hne hslash, _, hleads, hfile⟩
  exact ⟨into, hinto, hgrows, hread, hleads, hfree, fun l => hfind l (.file content)⟩

variable {icons : List Icon} {d d' : Disk}

theorem Writes.grows (h : Writes output stem icons d d') : d.Grows d' := by
  induction h with
  | nil d => exact Disk.Grows.refl d
  | cons hfirst hrest ih =>
    obtain ⟨_, _, hgrows, _⟩ := write_step hstem hfirst
    exact hgrows.trans ih

/-- Nothing changes where no icon is written. -/
theorem Writes.unchanged (h : Writes output stem icons d d') {l : Location}
    (hl : ∀ i ∈ icons, ∀ into, d.Enters output into → l ≠ into ++ [fileName stem i.index i.name]) :
    d'.find? l = d.find? l := by
  induction h with
  | nil d => rfl
  | @cons i icons d mid d' hfirst hrest ih =>
    obtain ⟨into, hinto, hgrows, -, -, -, hfind⟩ := write_step hstem hfirst
    rw [ih ?_, hfind l, if_neg (hl i (List.mem_cons_self ..) into hinto)]
    intro j hj into' hinto'
    obtain rfl : into = into' := (hinto.of_grows hgrows).1.unique hinto'.1
    exact hl j (List.mem_cons_of_mem i hj) into hinto

/-- No directory comes or goes. -/
theorem Writes.directory_iff (h : Writes output stem icons d d') (l : Location) :
    d'.find? l = some .directory ↔ d.find? l = some .directory := by
  induction h with
  | nil d => exact Iff.rfl
  | cons hfirst hrest ih =>
    obtain ⟨into, -, -, -, -, hfree, hfind⟩ := write_step hstem hfirst
    rw [ih, hfind l]
    split
    · rename_i heq
      rw [heq]
      exact ⟨(nomatch ·), fun h => absurd h hfree⟩
    · exact Iff.rfl

/-- **Every icon has its file**, whatever is written after it. -/
theorem Writes.stored (h : Writes output stem icons d d') (hnodup : (icons.map Icon.index).Nodup) :
    ∀ i ∈ icons, d'.readFile (target output stem i) = .ok (Icns.Family.ofIcon i).bytes ∧
      ∃ into, d'.Enters output into ∧
        d'.Leads (target output stem i) (into ++ [fileName stem i.index i.name]) := by
  induction h with
  | nil d => exact fun i hi => nomatch hi
  | @cons i icons d mid d' hfirst hrest ih =>
    rw [List.map_cons, List.nodup_cons] at hnodup
    intro j hj
    rcases List.mem_cons.1 hj with rfl | hj
    · obtain ⟨into, hinto, hgrows, hread, hleads, -, -⟩ := write_step hstem hfirst
      have hgrows' := hrest.grows hstem
      have hinto' := hinto.of_grows hgrows
      refine ⟨Disk.readFile_of_grows hread hgrows' fun l hl => ?_, into, hinto'.of_grows hgrows',
        hleads.of_grows hgrows'⟩
      obtain rfl := hleads.unique hl
      -- A later file in the same place would have the same name, and so the same number.
      refine hrest.unchanged hstem fun k hk into'' _ heq => hnodup.1 ?_
      have hnames := List.singleton_inj.1 (List.append_inj_right' heq rfl)
      rw [index_of_fileName_eq hnames]
      exact List.mem_map_of_mem hk
    · exact ih hnodup.2 j hj

/-- What an extraction leaves behind: files for some icons, in a directory that may have
been made for them. -/
structure Extracted (output : Path) (files : List (Path × Icon)) (d d' : Disk) : Prop where
  /-- Each icon has its file, complete. -/
  stored : ∀ f ∈ files, ∃ content, (Icns.Family.ofIcon f.2).write = .ok content ∧
    d'.readFile f.1 = .ok content
  /-- Every other file is the same as before, and there are no others. -/
  others : ∀ l, (∀ f ∈ files, ¬d'.Leads f.1 l) → ∀ content,
    d'.find? l = some (.file content) ↔ d.find? l = some (.file content)
  /-- No directory is new but the one for the files, and those above it. -/
  directories : ∀ l, d'.find? l = some .directory ↔ d.find? l = some .directory ∨
    d.find? l = none ∧ ∃ p ∈ output :: output.above, d'.Enters p l

/-- **Making the directory and writing the icons is all that is done.** -/
theorem Writes.extracted {mid : Disk} (h : Writes output stem icons mid d')
    (hmade : Disk.Made (output :: output.above) d mid) (hnodup : (icons.map Icon.index).Nodup) :
    Extracted output (icons.map (fileOf output stem)) d d' where
  stored f hf := by
    obtain ⟨i, hi, rfl⟩ := List.mem_map.1 hf
    exact ⟨_, (Icns.Family.read_ofIcon i).1, (h.stored hstem hnodup i hi).1⟩
  others l hl content := by
    have hsame : d'.find? l = mid.find? l := by
      refine h.unchanged hstem fun i hi into hinto heq => hl _ (List.mem_map_of_mem hi) ?_
      obtain ⟨_, into', hinto', hleads⟩ := h.stored hstem hnodup i hi
      obtain rfl := (hinto.of_grows (h.grows hstem)).1.unique hinto'.1
      rwa [heq]
    rw [hsame]
    exact hmade.file_iff l content
  directories l := by
    have hgrows := h.grows hstem
    constructor
    · intro hdirectory
      have hd := (hmade.directory_iff l).1 ((h.directory_iff hstem l).1 hdirectory)
      rcases hd with hold | ⟨hnew, p, hp, hinto⟩
      · exact .inl hold
      · exact .inr ⟨hnew, p, hp, hinto.of_grows hgrows⟩
    · intro hd
      rcases hd with hold | ⟨-, p, -, -, hdirectory⟩
      · exact (hmade.grows.trans hgrows).directory l hold
      · exact hdirectory

/-- The file of an icon that is still to come is as it was. -/
theorem Extracted.untouched {more : List Icon} (hnodup : ((icons ++ more).map Icon.index).Nodup)
    (h : Extracted output (icons.map (fileOf output stem)) d d') {j : Icon} (hj : j ∈ more) {l : Location}
    (hl : d'.Leads (target output stem j) l) (content : Bytes) :
    d'.find? l = some (.file content) ↔ d.find? l = some (.file content) := by
  refine h.others l (fun f hf hleads => ?_) content
  obtain ⟨i, hi, rfl⟩ := List.mem_map.1 hf
  rw [List.map_append, List.nodup_append] at hnodup
  exact hnodup.2.2 _ (List.mem_map_of_mem hi) _ (List.mem_map_of_mem hj) (index_of_leads hstem hleads hl)

end

/-- No icon's file has the name of the archive itself, not even in the directory that the
archive is in. -/
theorem ne_of_leads_input {input : Path} {d : Disk} {l : Location} {data : Bytes} (hl : d.Leads input l)
    (hfile : d.find? l = some (.file data)) (into : Location) (index : Nat) (name : String) :
    l ≠ into ++ [fileName (stemOf input) index name] := by
  obtain ⟨front, into', own, hparts, hname, rfl⟩ := Disk.exists_name_of_file hl hfile
  obtain ⟨hdot, hup⟩ := Disk.isName_iff.1 hname
  rw [stemOf_of_fileName? (Path.fileName?_of_parts hparts hdot hup)]
  intro heq
  exact fileName_ne_of_stem own index name (List.singleton_inj.1 (List.append_inj_right' heq rfl)).symm

/-- The archive itself is not written to. -/
theorem Writes.readFile_input {input output : Path} {icons : List Icon} {d mid d' : Disk} {data : Bytes}
    (hread : d.readFile input = .ok data) {ps : List Path} (hmade : Disk.Made ps d mid)
    (h : Writes output (stemOf input) icons mid d') : d'.readFile input = .ok data := by
  have hstem := slash_not_mem_stemOf input
  refine Disk.readFile_of_grows hread (hmade.grows.trans (h.grows hstem)) fun l hl => ?_
  obtain ⟨-, -, l', hl', hfile⟩ := Disk.readFile_eq_ok_iff.1 hread
  obtain rfl := hl.unique hl'
  rw [h.unchanged hstem fun i _ into _ => ne_of_leads_input hl hfile into i.index i.name,
    hmade.kept _ (by rw [hfile]; exact Option.some_ne_none _)]

/-! ### What systems do -/

/-- What is created on a system is written to its disk. -/
theorem Created.writes {σ : Type} [Storage (StateM σ)] [System σ] {output : Path} {stem : String}
    {icons : List Icon} {s s' : σ} (h : Created output stem icons s s') :
    Writes output stem icons (System.disk s) (System.disk s') := by
  induction h with
  | nil s => exact .nil _
  | cons hfirst _ ih => exact .cons (System.writes hfirst) ih

end ClassicIcons.Extract
