import ClassicIcons.Proofs.Disk.Linked
import ClassicIcons.Proofs.Extract.Outcome

/-! Extractions that fail.

An extraction that fails was not begun, or it stopped between one file and the next: the
system refused the directory, or the file of one icon, and by then those of the icons
before it were complete (`extract_clean`).

So it is on every system with a disk, and a disk has no links. Where there are links, a file
can get to where that of a later icon should be; and on a disk, too, a directory can come
to be there, on the way to the one for the files (`extract_untidy`). -/
namespace ClassicIcons.Extract
open Archive (Error Icon)
open Disk (Fault Path Storage System Made Linked)

section
variable [Zlib.Decoder]

/-- The first `k` icons of an archive have their files, and nothing else was done. -/
structure Stopped (input output : Path) (a : Archive) (k : Nat) (d d' : Disk) : Prop where
  count : k ≤ (files output (stemOf input) a.items).length
  extracted : Extracted output ((files output (stemOf input) a.items).take k) d d'
  kept : d'.readFile input = d.readFile input
  /-- Where the file of a later icon would be, there is what was there before. -/
  untouched : ∀ f ∈ (files output (stemOf input) a.items).drop k, ∀ l, d'.Leads f.1 l → ∀ content,
    d'.find? l = some (.file content) ↔ d.find? l = some (.file content)

theorem stopped_of_writes {input output : Path} {data : Bytes} {a : Archive} {d mid d' : Disk} {k : Nat}
    (hk : k ≤ a.icons.length) (hread : d.readFile input = .ok data)
    (hmade : Made (output :: output.above) d mid)
    (hwrites : Writes output (stemOf input) (a.icons.take k) mid d') : Stopped input output a k d d' := by
  have hstem := slash_not_mem_stemOf input
  have hnodup : ((a.icons.take k ++ a.icons.drop k).map Icon.index).Nodup := by
    rw [List.take_append_drop]
    exact Archive.nodup_index_icons a
  have hfirst : ((a.icons.take k).map Icon.index).Nodup := by
    rw [List.map_append, List.nodup_append] at hnodup
    exact hnodup.1
  have hextracted := hwrites.extracted hstem hmade hfirst
  constructor
  · rwa [files_items, List.length_map]
  · rwa [files_items, ← List.map_take]
  · rw [hwrites.readFile_input hread hmade, hread]
  · intro f hf l hl
    rw [files_items, ← List.map_drop] at hf
    obtain ⟨j, hj, rfl⟩ := List.mem_map.1 hf
    rw [fileOf_fst] at hl
    exact hextracted.untouched hstem hnodup hj hl

variable {σ : Type} [Storage (StateM σ)] [System σ] {s s' : σ} {input output : Path}

/-- What the system refused: the directory, or the file of the `k`-th icon. -/
inductive Refusal (input output : Path) (a : Archive) (s s' : σ) : Nat → Fault → Prop
  | home {s₁ : σ} {fault : Fault} (hread : (Storage.readFile (m := StateM σ) input s).2 = s₁)
      (hmake : Storage.makeDirectories (m := StateM σ) output s₁ = (.error fault, s')) :
      Refusal input output a s s' 0 fault
  | file {k : Nat} {icon : Icon} {mid : σ} {fault : Fault} (hicon : a.icons[k]? = some icon)
      (hmid : System.disk mid = System.disk s') (hrefuses : Refuses output (stemOf input) icon fault mid s') :
      Refusal input output a s s' k fault

/-- A failure leaves no more than it has to, whenever it occurs. -/
structure Clean (input output : Path) (s s' : σ) (report : Report) : Prop where
  unread : ∀ fault, (Storage.readFile (m := StateM σ) input s).1 = .error fault →
    report.outcome = .error (.system fault) ∧ System.disk s' = System.disk s
  refused : ∀ data e, (Storage.readFile (m := StateM σ) input s).1 = .ok data →
    Archive.parse data = .error e → report.outcome = .error e ∧ System.disk s' = System.disk s
  /-- Later on it is the system that fails, between one file and the next. -/
  later : ∀ data a e, (Storage.readFile (m := StateM σ) input s).1 = .ok data →
    Archive.parse data = .ok a → report.outcome = .error e →
      ∃ fault k, e = .system fault ∧ Refusal input output a s s' k fault ∧
        Stopped input output a k (System.disk s) (System.disk s')

section
variable {report : Report} (h : Run input output s s' report)
include h

theorem Run.of_unread {fault : Fault} (hfault : (Storage.readFile (m := StateM σ) input s).1 = .error fault) :
    report.outcome = .error (.system fault) ∧ System.disk s' = System.disk s := by
  cases h with
  | unread hread =>
    rw [hread] at hfault
    cases hfault
    exact ⟨rfl, (System.reads hread).1⟩
  | refused hread | homeless hread | looped hread =>
    rw [hread] at hfault
    cases hfault

variable {data : Bytes} (hdata : (Storage.readFile (m := StateM σ) input s).1 = .ok data)
include hdata

theorem Run.of_refused {e : Error} (he : Archive.parse data = .error e) :
    report.outcome = .error e ∧ System.disk s' = System.disk s := by
  cases h with
  | unread hread =>
    rw [hread] at hdata
    cases hdata
  | refused hread hparse =>
    have hsame := (System.reads hread).1
    rw [hread] at hdata
    cases hdata
    rw [hparse] at he
    cases he
    exact ⟨rfl, hsame⟩
  | homeless hread hparse | looped hread hparse =>
    rw [hread] at hdata
    cases hdata
    rw [hparse] at he
    cases he

theorem Run.of_error {a : Archive} (ha : Archive.parse data = .ok a) {e : Error}
    (he : report.outcome = .error e) :
    ∃ fault k, e = .system fault ∧ Refusal input output a s s' k fault ∧
      Stopped input output a k (System.disk s) (System.disk s') := by
  have hheld := readFile_of_run hdata
  have hread := (Prod.ext hdata rfl : Storage.readFile (m := StateM σ) input s = (.ok data, _))
  rcases h.of_archive hread ha with ⟨fault, hmake, hfault⟩ | ⟨s₂, ended, hmake, hends, hended⟩
  · rw [he] at hfault
    cases hfault
    exact ⟨fault, 0, rfl, .home rfl hmake,
      stopped_of_writes (Nat.zero_le _) hheld (made_of_run hread hmake).1 (.nil _)⟩
  · rw [he] at hended
    cases hends with
    | through => cases hended
    | @refused _ fault k icon mid hicon hcreated hrefuses =>
      cases hended
      -- What is refused changes nothing.
      have hmid : System.disk s' = System.disk mid := System.writes hrefuses
      have hwrites := hcreated.writes
      rw [← hmid] at hwrites
      have hk := (List.getElem?_eq_some_iff.1 hicon).1
      exact ⟨fault, k, rfl, .file hicon hmid.symm hrefuses,
        stopped_of_writes (Nat.le_of_lt hk) hheld (made_of_run hread hmake).1 hwrites⟩

end

/-- **A failure leaves things clean.** If the archive cannot be read, or its header is
refused, the disk is as it was. If the system fails later, the icons up to some point have
their files, all of them complete, and nothing has come of those behind it. -/
theorem extract_clean (input output : Path) (s : σ) :
    Clean input output s (extract (m := StateM σ) input output s).2
      (extract (m := StateM σ) input output s).1 where
  unread _ hfault := (run_extract input output s).of_unread hfault
  refused _ _ hdata he := (run_extract input output s).of_refused hdata he
  later _ _ _ hdata ha he := (run_extract input output s).of_error hdata ha he

end

/-! ### A disk with a directory in the way -/

section
attribute [local instance] Zlib.inflater

/-- An archive with three icons that have no names. -/
def trio : Bytes := row [[], [], []]

theorem exists_trio :
    ∃ a, Archive.parse trio = .ok a ∧ a.icons = [iconOf 0 [], iconOf 1 [], iconOf 2 []] :=
  exists_row [[], [], []] (show 3 < UInt32.size by decide)

/-- The file of the first icon. -/
def firstFile : Bytes := (Icns.Family.ofIcon (iconOf 0 [])).bytes

theorem target_unnamed (index : Nat) : target ⟨"out"⟩ (stemOf ⟨"a"⟩) (iconOf index []) =
    Path.join ⟨"out"⟩ (fileName "a" index "") := by
  rw [target_iconOf]
  rfl

/-- If the first icon is written and the second one refused, that is all. -/
theorem extract_trio {σ : Type} [Storage (StateM σ)] (s mid s' : σ) {fault : Fault}
    (hread : Storage.readFile (m := StateM σ) ⟨"a"⟩ s = (.ok trio, s))
    (hmake : Storage.makeDirectories (m := StateM σ) ⟨"out"⟩ s = (.ok (), s))
    (hfirst : Storage.writeFile (m := StateM σ) ⟨"out/a_0.icns"⟩ firstFile s = (.ok (), mid))
    (hsecond : ∀ content, Storage.writeFile (m := StateM σ) ⟨"out/a_1.icns"⟩ content mid = (.error fault, s')) :
    ∃ a log, Archive.parse trio = .ok a ∧ a.icons = [iconOf 0 [], iconOf 1 [], iconOf 2 []] ∧
      extract (m := StateM σ) ⟨"a"⟩ ⟨"out"⟩ s = (⟨log, .error (.system fault)⟩, s') := by
  obtain ⟨a, hparse, hicons⟩ := exists_trio
  have hzero : target ⟨"out"⟩ (stemOf ⟨"a"⟩) (iconOf 0 []) = ⟨"out/a_0.icns"⟩ := by
    rw [target_unnamed]
    decide
  have hone : target ⟨"out"⟩ (stemOf ⟨"a"⟩) (iconOf 1 []) = ⟨"out/a_1.icns"⟩ := by
    rw [target_unnamed]
    decide
  have hcreated : Created ⟨"out"⟩ (stemOf ⟨"a"⟩) (a.icons.take 1) s mid := by
    rw [hicons]
    exact .cons (by rw [hzero]; exact hfirst) (.nil mid)
  have hrefuses : Refuses ⟨"out"⟩ (stemOf ⟨"a"⟩) (iconOf 1 []) fault mid s' := by
    rw [Refuses, hone]
    exact hsecond _
  obtain ⟨log, hextract⟩ := extract_of_refuses hread hparse hmake (k := 1) (by rw [hicons]; rfl) hcreated hrefuses
  exact ⟨a, log, hparse, hicons, hextract⟩

/-- A disk with the archive, and with a directory that has the name of the second file. -/
def blocked : Disk :=
  { entries := [(["a"], .file trio), (["out"], .directory), (["out", "a_1.icns"], .directory)] }

/-- The same disk with a file of this name. -/
def blockedWith (name : String) : Disk :=
  { entries := blocked.entries ++ [(["out", name], .file firstFile)] }

theorem extract_clean_of_blocked :
    ∃ a log, Archive.parse trio = .ok a ∧ a.icons.length = 3 ∧
      extract (m := StateM Disk) ⟨"a"⟩ ⟨"out"⟩ blocked =
        (⟨log, .error (.system .isDirectory)⟩, blockedWith "a_0.icns") ∧
      (blockedWith "a_0.icns").readFile ⟨"out/a_0.icns"⟩ = .ok firstFile ∧
      Clean ⟨"a"⟩ ⟨"out"⟩ blocked (blockedWith "a_0.icns") ⟨log, .error (.system .isDirectory)⟩ := by
  obtain ⟨a, log, hparse, hicons, hextract⟩ := extract_trio blocked (blockedWith "a_0.icns")
    (blockedWith "a_0.icns") rfl rfl rfl fun _ => rfl
  have hclean := extract_clean ⟨"a"⟩ ⟨"out"⟩ blocked
  rw [hextract] at hclean
  exact ⟨a, log, hparse, by rw [hicons]; rfl, hextract, rfl, hclean⟩

/-! ### Disks that are not left clean -/

/-- The first `k` icons can be read from their files, and from those of the others what could
be read before. -/
def Tidy {σ : Type} [Storage (StateM σ)] (input output : Path) (a : Archive) (k : Nat) (s s' : σ) : Prop :=
  (∀ i ∈ a.icons.take k, (Storage.readFile (m := StateM σ) (target output (stemOf input) i) s').1 =
    .ok (Icns.Family.ofIcon i).bytes) ∧
  ∀ i ∈ a.icons.drop k, (Storage.readFile (m := StateM σ) (target output (stemOf input) i) s').1 =
    (Storage.readFile (m := StateM σ) (target output (stemOf input) i) s).1

/-- One icon was not written, and one that is not before it was touched. -/
theorem not_tidy {σ : Type} [Storage (StateM σ)] {input output : Path} {a : Archive} {s s' : σ} {n m : Nat}
    {icon other : Icon} (fault : Fault) (hicon : a.icons[n]? = some icon)
    (hlost : (Storage.readFile (m := StateM σ) (target output (stemOf input) icon) s').1 = .error fault)
    (hother : a.icons[m]? = some other) (hle : n ≤ m)
    (htouched : (Storage.readFile (m := StateM σ) (target output (stemOf input) other) s').1 ≠
      (Storage.readFile (m := StateM σ) (target output (stemOf input) other) s).1) (k : Nat) :
    ¬Tidy input output a k s s' := by
  intro h
  by_cases hk : k ≤ n
  · refine htouched (h.2 other (List.mem_of_getElem? (i := m - k) ?_))
    rw [List.getElem?_drop, Nat.add_sub_cancel' (Nat.le_trans hk hle)]
    exact hother
  · have hread := h.1 icon (List.mem_of_getElem? ((List.getElem?_take_of_lt (Nat.not_le.1 hk)).trans hicon))
    rw [hlost] at hread
    cases hread

/-- An extraction fails, and whatever number of icons is taken for written, things are not
as they should be then. -/
structure Untidy {σ : Type} [Storage (StateM σ)] (output : Path) (data : Bytes) (s s' : σ) : Prop where
  read : (Storage.readFile (m := StateM σ) ⟨"a"⟩ s).1 = .ok data
  ends : ∃ a log fault, Archive.parse data = .ok a ∧
    extract (m := StateM σ) ⟨"a"⟩ output s = (⟨log, .error (.system fault)⟩, s') ∧
    ∀ k, ¬Tidy ⟨"a"⟩ output a k s s'

/-- The disk with the directory, where the name of the first file is a link to the third. -/
def linked (d : Disk) : Linked := ⟨d, [(["out", "a_0.icns"], ⟨"out/a_2.icns"⟩)]⟩

theorem untidy_linked : Untidy ⟨"out"⟩ trio (linked blocked) (linked (blockedWith "a_2.icns")) := by
  obtain ⟨a, log, hparse, hicons, hextract⟩ := extract_trio (linked blocked)
    (linked (blockedWith "a_2.icns")) (linked (blockedWith "a_2.icns")) rfl rfl rfl fun _ => rfl
  refine ⟨rfl, a, log, _, hparse, hextract, ?_⟩
  have hone : target ⟨"out"⟩ (stemOf ⟨"a"⟩) (iconOf 1 []) = ⟨"out/a_1.icns"⟩ := by
    rw [target_unnamed]
    decide
  have htwo : target ⟨"out"⟩ (stemOf ⟨"a"⟩) (iconOf 2 []) = ⟨"out/a_2.icns"⟩ := by
    rw [target_unnamed]
    decide
  refine not_tidy (n := 1) (m := 2) .isDirectory (by rw [hicons]; rfl) ?_ (by rw [hicons]; rfl)
    (by decide) ?_
  · rw [hone]
    rfl
  · rw [htwo]
    intro hsame
    have hbefore : (Storage.readFile (m := StateM Linked) ⟨"out/a_2.icns"⟩ (linked blocked)).1 =
      .error .notFound := rfl
    have hafter : (Storage.readFile (m := StateM Linked) ⟨"out/a_2.icns"⟩ (linked (blockedWith "a_2.icns"))).1 =
      .ok firstFile := rfl
    rw [hbefore, hafter] at hsame
    cases hsame

theorem untidy_detour :
    Untidy ⟨"out/a_0.icns/.."⟩ unnamed (alone unnamed) (detoured unnamed) := by
  obtain ⟨a, i, j, log, hparse, hicons, hextract⟩ := stuck_unnamed.ends
  obtain ⟨b, hb, hrow⟩ := exists_row [[], [0x62]] (show 2 < UInt32.size by decide)
  obtain rfl : a = b := Except.ok.inj (hparse.symm.trans hb)
  refine ⟨rfl, a, log, _, hparse, hextract, ?_⟩
  have hfirst : a.icons[0]? = some (iconOf 0 []) := by
    rw [hrow]
    rfl
  have hzero : target ⟨"out/a_0.icns/.."⟩ (stemOf ⟨"a"⟩) (iconOf 0 []) = ⟨"out/a_0.icns/../a_0.icns"⟩ := by
    rw [target_iconOf]
    decide
  have hbefore : (Storage.readFile (m := StateM Disk) ⟨"out/a_0.icns/../a_0.icns"⟩ (alone unnamed)).1 =
    .error .notFound := rfl
  have hafter : (Storage.readFile (m := StateM Disk) ⟨"out/a_0.icns/../a_0.icns"⟩ (detoured unnamed)).1 =
    .error .isDirectory := rfl
  refine not_tidy .isDirectory hfirst ?_ hfirst (Nat.le_refl 0) ?_
  · rw [hzero, hafter]
  · rw [hzero, hbefore, hafter]
    intro hsame
    cases hsame

/-- **A failure can leave more than it has to.** The first of three files can be written
through a link to where the third should be, before the second one is refused. And without
links, too, a directory can be made on the way that has the name of a file. -/
theorem extract_untidy :
    Untidy ⟨"out"⟩ trio (linked blocked) (linked (blockedWith "a_2.icns")) ∧
    Untidy ⟨"out/a_0.icns/.."⟩ unnamed (alone unnamed) (detoured unnamed) :=
  ⟨untidy_linked, untidy_detour⟩

end

end ClassicIcons.Extract
