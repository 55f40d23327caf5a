import ClassicIcons.Proofs.Disk.Acceptance
import ClassicIcons.Proofs.Extract.Writing
import ClassicIcons.Proofs.Preservation

/-! When an extraction goes through.

Once the directory for the files is there and accepts files, nothing that an archive holds
can stop its extraction but two things: a file with a name that is too long, and one with
the name of a directory that is there already (`created_of_accepts`, `extract_passes`).
What records hold besides, and what else is in the names of icons, does not matter; nor
does it matter on what file system this is, and whether there are links on it.

A name that is too long can indeed stop an extraction, and so can a directory that has the
name of a file (`extract_stopped_by_name`). -/
namespace ClassicIcons.Extract
open Archive (Error Icon Item)
open Disk (Fault Path Location Storage System Accepts FileSystem)

/-! ### Files that are accepted -/

section
variable {σ : Type} [Storage (StateM σ)] [FileSystem σ] {output : Path} {stem : String}

/-- **Where files are accepted all files are created**, if no name is too long or taken. -/
theorem created_of_accepts (hslash : '/' ∉ stem.toList) (hnul : '\x00' ∉ stem.toList) {icons : List Icon}
    {s : σ} (hhome : FileSystem.IsDirectory s output) (haccepts : Accepts s output)
    (hfree : ∀ i ∈ icons, ¬FileSystem.IsDirectory s (target output stem i))
    (hshort : ∀ i ∈ icons, (fileName stem i.index i.name).utf8ByteSize ≤ 255) :
    ∃ s', Created output stem icons s s' := by
  induction icons generalizing s with
  | nil => exact ⟨s, .nil s⟩
  | cons i icons ih =>
    have hmem : i ∈ i :: icons := List.mem_cons_self ..
    have hok := haccepts s (fileName stem i.index i.name) (Icns.Family.ofIcon i).bytes .none hhome
      (Nat.zero_lt_of_lt (length_lt_utf8ByteSize_fileName stem i.index i.name)) (hshort i hmem)
      (slash_not_mem_fileName hslash i.index i.name) (nul_not_mem_fileName hnul i.index i.name)
      (hfree i hmem)
    obtain ⟨mid, hwrite⟩ : ∃ mid, Storage.writeFile (m := StateM σ) (target output stem i)
      (Icns.Family.ofIcon i).bytes s = (.ok (), mid) := ⟨_, Prod.ext hok rfl⟩
    -- A file changes nothing about what is a directory.
    have hsame := FileSystem.writes hwrite
    obtain ⟨s', hcreated⟩ := ih ((hsame output).2 hhome) (haccepts.of_written (.file .none hwrite))
      (fun j hj => mt (hsame _).1 (hfree j (List.mem_cons_of_mem i hj)))
      fun j hj => hshort j (List.mem_cons_of_mem i hj)
    exact ⟨s', .cons hwrite hcreated⟩

end

section
variable [Zlib.Decoder]

/-- The name of every file is at most 255 bytes long. -/
def Short (input : Path) (a : Archive) : Prop :=
  ∀ item ∈ a.items, ∀ icon, item.result = .ok icon →
    (fileName (stemOf input) item.index icon.name).utf8ByteSize ≤ 255

/-- It is enough that the stem and the names of icons are not too long. -/
theorem short_of_names {input : Path} {a : Archive} (hstem : (stemOf input).utf8ByteSize ≤ 100)
    (hnames : ∀ item ∈ a.items, ∀ icon, item.result = .ok icon → icon.name.utf8ByteSize ≤ 138) :
    Short input a := by
  intro item hitem icon hicon
  have hle := utf8ByteSize_fileName_le (stemOf input) (Archive.index_lt hitem) icon.name
  have hname := hnames item hitem icon hicon
  omega

theorem Short.of_icon {input : Path} {a : Archive} (h : Short input a) {icon : Icon} (hicon : icon ∈ a.icons) :
    (fileName (stemOf input) icon.index icon.name).utf8ByteSize ≤ 255 := by
  obtain ⟨item, hitem, hicon⟩ := Archive.exists_item hicon
  rw [Archive.index_of_icon? hitem hicon]
  exact h item hitem icon (Item.icon?_eq_some_iff.1 hicon)

variable {σ : Type} [Storage (StateM σ)] {s : σ} {input output : Path}

/-- What it takes for an extraction to go through, once it has got to its loop. -/
structure Passes (input output : Path) (a : Archive) (s s' : σ) (report : Report) : Prop where
  /-- If no name of a file is too long, everything is extracted: every icon has its file
  created, complete. -/
  through : Short input a → ∃ summary, report.outcome = .ok summary ∧
    summary.written = (files output (stemOf input) a.items).map Prod.fst ∧
    Created output (stemOf input) a.icons s s'
  enough : (stemOf input).utf8ByteSize ≤ 100 →
    (∀ item ∈ a.items, ∀ icon, item.result = .ok icon → icon.name.utf8ByteSize ≤ 138) → Short input a

/-- **Only the name of a file can stop an extraction**, by its length, or because a directory
has this name already. -/
theorem extract_passes [FileSystem σ] {data : Bytes} {a : Archive} {s₁ s₂ : σ}
    (hread : Storage.readFile (m := StateM σ) input s = (.ok data, s₁)) (hparse : Archive.parse data = .ok a)
    (hmake : Storage.makeDirectories (m := StateM σ) output s₁ = (.ok (), s₂))
    (hfree : ∀ icon ∈ a.icons, ¬FileSystem.IsDirectory s₂ (target output (stemOf input) icon))
    (haccepts : Accepts s₂ output) :
    Passes input output a s₂ (extract (m := StateM σ) input output s).2
      (extract (m := StateM σ) input output s).1 where
  through hshort := by
    have hnul := nul_not_mem_stemOf (FileSystem.reads hread)
    obtain ⟨s₃, hcreated⟩ := created_of_accepts (slash_not_mem_stemOf input) hnul
      (FileSystem.isDirectory_of_makeDirectories hmake) haccepts hfree fun i hi => hshort.of_icon hi
    exact extract_of_created hread hparse hmake hcreated
  enough := short_of_names

end

/-! ### Archives alone on a disk -/

/-- A disk with nothing but an archive. -/
def alone (data : Bytes) : Disk := { entries := [(["a"], .file data)] }

/-- The same disk with a directory for files. -/
def opened (data : Bytes) : Disk := { entries := [(["a"], .file data), (["out"], .directory)] }

theorem readFile_alone (data : Bytes) :
    Storage.readFile (m := StateM Disk) ⟨"a"⟩ (alone data) = (.ok data, alone data) := rfl

theorem makeDirectories_alone (data : Bytes) :
    Storage.makeDirectories (m := StateM Disk) ⟨"out"⟩ (alone data) = (.ok (), opened data) := rfl

theorem enters_opened (data : Bytes) : (opened data).Enters ⟨"out"⟩ ["out"] := ⟨rfl, rfl⟩

theorem empty_opened (data : Bytes) {into : Location} (h : (opened data).Enters ⟨"out"⟩ into)
    (name : String) : (opened data).find? (into ++ [name]) = none := by
  obtain rfl := (enters_opened data).1.unique h.1
  rfl

theorem accepts_opened (data : Bytes) : Accepts (opened data) ⟨"out"⟩ :=
  Disk.accepts_disk rfl (by decide) (by decide)

/-- In a directory that is empty, no file has the name of a directory. -/
theorem free_of_empty {d : Disk} {output : Path} {into : Location} (hinto : d.Enters output into)
    (hempty : ∀ name, d.find? (into ++ [name]) = none) {stem : String} (hstem : '/' ∉ stem.toList) (i : Icon) :
    ¬FileSystem.IsDirectory d (target output stem i) := by
  intro htaken
  obtain ⟨l, hl, -⟩ := htaken
  obtain ⟨into', hinto', -, hfound, -⟩ := (leads_target_iff hstem).1 hl
  obtain rfl := hinto.1.unique hinto'.1
  exact hfound (hempty _)

/-- If names are short, there is room for all files in an empty directory. -/
theorem exists_created_of_empty [Zlib.Decoder] {d : Disk} {output : Path} {into : Location}
    (hinto : d.Enters output into) (hempty : ∀ name, d.find? (into ++ [name]) = none)
    (haccepts : Accepts d output) {a : Archive} (hshort : Short ⟨"a"⟩ a) :
    ∃ d', Created output (stemOf ⟨"a"⟩) a.icons d d' :=
  have hstem := slash_not_mem_stemOf ⟨"a"⟩
  created_of_accepts hstem (by decide) (System.isDirectory_iff.2 ⟨into, hinto⟩) haccepts
    (fun i _ => free_of_empty hinto hempty hstem i) fun _ hi => hshort.of_icon hi

/-- A record with a plain image, under a name. -/
def entryOf (name : Bytes) : Archive.Entry :=
  .stored { Archive.plainPicture [⟨.small, .indexed8⟩] with
    name := name.take 255
    name_length := List.length_take_le 255 name }

/-- The icon of the record. -/
def iconOf (index : Nat) (name : Bytes) : Icon :=
  (entryOf name).picture.icon index fun k _ => k.mem_all

theorem target_iconOf (output : Path) (stem : String) (index : Nat) (name : Bytes) :
    target output stem (iconOf index name) =
      output.join (fileName stem index (Text.decode (name.take 255))) := rfl

section
attribute [local instance] Zlib.inflater

theorem fits_entryOf (name : Bytes) : (entryOf name).Fits .second :=
  Archive.Entry.fits_stored (k := ⟨.small, .indexed8⟩) rfl

theorem framed_entryOf (name : Bytes) : Archive.Framed ((entryOf name).record .second) :=
  (entryOf name).framed_record (fits_entryOf name).size_lt

theorem decodeWhole_entryOf (name : Bytes) (index : Nat) :
    Archive.Record.decodeWhole .second index ((entryOf name).record .second) = .ok (iconOf index name) :=
  Archive.decodeWhole_record (fits_entryOf name) index

/-- An icon, and a record of which there is nothing but its size. -/
def damagedRecords : List Bytes := [(entryOf [0x62]).record .second, [0, 0, 0, 4]]

def damaged : Bytes := Archive.build .second [0x63] [0x78] damagedRecords

theorem exists_damaged : ∃ a, Archive.parse damaged = .ok a ∧ Short ⟨"a"⟩ a := by
  have hframed : ∀ record ∈ damagedRecords, Archive.Framed record := by
    intro record hrecord
    rcases List.mem_cons.1 hrecord with rfl | hrecord
    · exact framed_entryOf [0x62]
    · rw [List.mem_singleton.1 hrecord]
      exact ⟨⟨[], rfl⟩, by decide⟩
  obtain ⟨a, hparse, hitems⟩ := Archive.items_build .second [0x63] [0x78] (by decide) hframed
  refine ⟨a, hparse, short_of_names (by decide) fun item hitem icon hicon => ?_⟩
  have hmem := List.mem_map_of_mem (f := fun item => (item.index, item.result)) hitem
  rw [hitems, damagedRecords, List.mapIdx_cons, decodeWhole_entryOf, hicon] at hmem
  rcases List.mem_cons.1 hmem with heq | hmem
  · obtain rfl := Except.ok.inj (Prod.mk.inj heq).2
    decide
  · cases (Prod.mk.inj (List.mem_singleton.1 hmem)).2

theorem extract_passes_of_damaged :
    ∃ a, Storage.readFile (m := StateM Disk) ⟨"a"⟩ (alone damaged) = (.ok damaged, alone damaged) ∧
      Archive.parse damaged = .ok a ∧
      Storage.makeDirectories (m := StateM Disk) ⟨"out"⟩ (alone damaged) = (.ok (), opened damaged) ∧
      (∀ icon ∈ a.icons, ¬FileSystem.IsDirectory (opened damaged) (target ⟨"out"⟩ (stemOf ⟨"a"⟩) icon)) ∧
      Accepts (opened damaged) ⟨"out"⟩ ∧ Short ⟨"a"⟩ a ∧
      Passes ⟨"a"⟩ ⟨"out"⟩ a (opened damaged) (extract (m := StateM Disk) ⟨"a"⟩ ⟨"out"⟩ (alone damaged)).2
        (extract (m := StateM Disk) ⟨"a"⟩ ⟨"out"⟩ (alone damaged)).1 := by
  obtain ⟨a, hparse, hshort⟩ := exists_damaged
  have hempty := empty_opened damaged (enters_opened damaged)
  have hfree := fun icon (_ : icon ∈ a.icons) =>
    free_of_empty (enters_opened damaged) hempty (slash_not_mem_stemOf ⟨"a"⟩) icon
  exact ⟨a, readFile_alone damaged, hparse, makeDirectories_alone damaged, hfree, accepts_opened damaged,
    hshort, extract_passes (readFile_alone damaged) hparse (makeDirectories_alone damaged) hfree
      (accepts_opened damaged)⟩

/-! ### Names that stop an extraction -/

/-- An archive with an icon for each of the names. -/
def row (names : List Bytes) : Bytes :=
  Archive.build .second [] [] (names.map fun name => (entryOf name).record .second)

theorem exists_row (names : List Bytes) (hcount : names.length < UInt32.size) :
    ∃ a, Archive.parse (row names) = .ok a ∧ a.icons = names.mapIdx iconOf := by
  have hframed : ∀ record ∈ names.map fun name => (entryOf name).record .second, Archive.Framed record := by
    intro record hrecord
    obtain ⟨name, -, rfl⟩ := List.mem_map.1 hrecord
    exact framed_entryOf name
  obtain ⟨a, hparse, hitems⟩ := Archive.items_build .second [] [] (by rwa [List.length_map]) hframed
  refine ⟨a, hparse, Archive.filterMap_icon?_of_map_result (List.ext_getElem? fun i => ?_)⟩
  have hitem := congrArg (fun items => (items[i]?).map Prod.snd) hitems
  simp only [List.getElem?_map, List.getElem?_mapIdx, Option.map_map] at hitem ⊢
  refine Eq.trans hitem ?_
  cases names[i]? with
  | none => rfl
  | some name => simp only [Option.map_some, Function.comp_apply, decodeWhole_entryOf]

/-- There are two icons, and neither gets a file, because the file for the first is refused. -/
structure Stuck (output : Path) (data : Bytes) (made : Disk) (fault : Fault) : Prop where
  stem : (stemOf ⟨"a"⟩).utf8ByteSize ≤ 100
  read : Storage.readFile (m := StateM Disk) ⟨"a"⟩ (alone data) = (.ok data, alone data)
  make : Storage.makeDirectories (m := StateM Disk) output (alone data) = (.ok (), made)
  accepts : Accepts made output
  ends : ∃ a i j log, Archive.parse data = .ok a ∧ a.icons = [i, j] ∧
    extract (m := StateM Disk) ⟨"a"⟩ output (alone data) = (⟨log, .error (.system fault)⟩, made)

theorem stuck_of_refused {output : Path} {name other : Bytes} {made : Disk} {fault : Fault}
    (hmake : Storage.makeDirectories (m := StateM Disk) output (alone (row [name, other])) = (.ok (), made))
    (haccepts : Accepts made output)
    (hrefused : ∀ content, made.writeFile
      (output.join (fileName (stemOf ⟨"a"⟩) 0 (Text.decode (name.take 255)))) content = .error fault) :
    Stuck output (row [name, other]) made fault := by
  obtain ⟨a, hparse, hicons⟩ := exists_row [name, other] (show 2 < UInt32.size by decide)
  have hicons : a.icons = [iconOf 0 name, iconOf 1 other] := hicons
  have hrefuses : Refuses output (stemOf ⟨"a"⟩) (iconOf 0 name) fault made made := by
    show Disk.attempt _ _ = _
    rw [Disk.attempt, target_iconOf, hrefused]
  obtain ⟨log, hextract⟩ := extract_of_refuses (readFile_alone _) hparse hmake (k := 0)
    (by rw [hicons]; rfl) (.nil made) hrefuses
  exact ⟨by decide, readFile_alone _, hmake, haccepts, a, _, _, log, hparse, hicons, hextract⟩

/-- The longest name that a record can have. -/
def longName : Bytes := List.replicate 255 0x61

theorem decode_longName : Text.decode (longName.take 255) = String.ofList (List.replicate 255 'a') := by
  have htake : longName.take 255 = longName := by
    rw [longName, List.take_replicate, Nat.min_self]
  rw [htake, Text.decode, Text.chars_of_no_mark rfl, longName, List.map_replicate]
  rfl

theorem length_longName : (Text.decode (longName.take 255)).length = 255 ∧
    (Text.decode (longName.take 255)).utf8ByteSize = 255 := by
  have hascii : ∀ c ∈ List.replicate 255 'a', c.utf8Size = 1 := by
    intro c hc
    rw [(List.mem_replicate.1 hc).2]
    rfl
  rw [decode_longName, String.length_ofList, utf8ByteSize_of_ascii hascii, List.length_replicate]
  exact ⟨rfl, rfl⟩

/-- Where names have 255 bytes at most, there is no file for an icon whose name has as many. -/
theorem writeFile_opened_of_long {name : String} (hlength : name.length = 255)
    (hbytes : name.utf8ByteSize = 255) (data content : Bytes) :
    (opened data).writeFile (Path.join ⟨"out"⟩ (fileName (stemOf ⟨"a"⟩) 0 name)) content =
      .error .nameTooLong := by
  have hslash := slash_not_mem_fileName (slash_not_mem_stemOf ⟨"a"⟩) 0 name
  have hne := fileName_ne_empty (stemOf ⟨"a"⟩) 0 name
  refine Disk.writeFile_of_tooLong hne hslash ?_ (enters_opened data) (isName_fileName ..) ?_ content
  · refine Disk.fault?_join (by decide) hne hslash (nul_not_mem_fileName (by decide) 0 name) rfl ?_
    have hle := utf8ByteSize_fileName_le (stemOf ⟨"a"⟩) (show 0 < UInt32.size by decide) name
    have hstem : (stemOf ⟨"a"⟩).utf8ByteSize = 1 := rfl
    have hout : (⟨"out"⟩ : Path).text.utf8ByteSize = 3 := rfl
    rw [hout]
    omega
  · have hlt := length_lt_utf8ByteSize_fileName (stemOf ⟨"a"⟩) 0 name
    rw [String.length_toList, hlength] at hlt
    exact decide_eq_true hlt

def crowded : Bytes := row [longName, [0x62]]

theorem stuck_crowded : Stuck ⟨"out"⟩ crowded (opened crowded) .nameTooLong :=
  stuck_of_refused (makeDirectories_alone crowded) (accepts_opened crowded)
    (writeFile_opened_of_long length_longName.1 length_longName.2 crowded)

/-- An archive of which the first icon has no name, so that its file is `a_0.icns`. -/
def unnamed : Bytes := row [[], [0x62]]

/-- The disk with the directories that are made on the way to `out/a_0.icns/..`. -/
def detoured (data : Bytes) : Disk :=
  { entries := [(["a"], .file data), (["out"], .directory), (["out", "a_0.icns"], .directory)] }

theorem makeDirectories_detour (data : Bytes) :
    Storage.makeDirectories (m := StateM Disk) ⟨"out/a_0.icns/.."⟩ (alone data) =
      (.ok (), detoured data) := by
  have habove : (⟨"out/a_0.icns/.."⟩ : Path).above = [⟨"out/a_0.icns"⟩, ⟨"out"⟩] := by decide
  have hout : Storage.makeMissing (m := StateM Disk) [⟨"out"⟩] (alone data) = (.ok (), opened data) := rfl
  have hdetour : Storage.makeMissing (m := StateM Disk) [⟨"out/a_0.icns"⟩, ⟨"out"⟩] (alone data) =
      (.ok (), detoured data) :=
    Disk.bind_eq_iff.2 ⟨.error .notFound, alone data, rfl,
      Disk.bind_eq_iff.2 ⟨.ok (), opened data, hout, Disk.bind_eq_iff.2 ⟨.ok (), detoured data, rfl, rfl⟩⟩⟩
  rw [Storage.makeDirectories, if_neg (by decide), habove]
  -- By now the way back up leads to a directory that is there.
  exact Disk.bind_eq_iff.2 ⟨.error .notFound, alone data, rfl,
    Disk.bind_eq_iff.2 ⟨.ok (), detoured data, hdetour,
      Disk.bind_eq_iff.2 ⟨.error .alreadyExists, detoured data, rfl, rfl⟩⟩⟩

theorem enters_detoured (data : Bytes) : (detoured data).Enters ⟨"out/a_0.icns/.."⟩ ["out"] := ⟨rfl, rfl⟩

/-- To ask for a directory by a detour is to ask for the directories on the detour, too. -/
theorem stuck_unnamed : Stuck ⟨"out/a_0.icns/.."⟩ unnamed (detoured unnamed) .isDirectory := by
  have hname : fileName (stemOf ⟨"a"⟩) 0 (Text.decode (List.take 255 [])) = "a_0.icns" := by decide
  have haccepts : Accepts (detoured unnamed) ⟨"out/a_0.icns/.."⟩ :=
    Disk.accepts_disk rfl (by decide) (by decide)
  refine stuck_of_refused (makeDirectories_detour unnamed) haccepts fun content => ?_
  rw [hname]
  exact Disk.writeFile_of_directory (by decide) (by decide) (by decide) (enters_detoured unnamed) (by decide)
    (by decide) rfl content

/-- **A name alone can stop an extraction.** Each of two archives holds two icons, and
nothing is written for either icon. In the one, the first name is too long, although the
directory for the files is made and is empty. In the other, the first icon has no name,
and its file would have the name of a directory that was made on the way to the one for
the files. -/
theorem extract_stopped_by_name :
    (Stuck ⟨"out"⟩ crowded (opened crowded) .nameTooLong ∧
      ∀ into, (opened crowded).Enters ⟨"out"⟩ into → ∀ name, (opened crowded).find? (into ++ [name]) = none) ∧
    Stuck ⟨"out/a_0.icns/.."⟩ unnamed (detoured unnamed) .isDirectory :=
  ⟨⟨stuck_crowded, fun _ hinto name => empty_opened crowded hinto name⟩, stuck_unnamed⟩

end

end ClassicIcons.Extract
