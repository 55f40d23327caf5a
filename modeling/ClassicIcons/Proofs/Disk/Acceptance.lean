import ClassicIcons.Proofs.Disk.System

/-! Directories that accept files.

On a file system it is settled which paths are those of directories, and files make no
difference to it (`FileSystem`). Every system with a disk is one; but what a path leads
to, whether there are links on the way, and how long a name can be does not matter here.

What a directory takes is a property of the state that the file system is in, and of the
path of the directory: a file under every name that is no longer than 255 bytes, and in
which there is nothing that cannot stand in a name, now and as long as nothing but files
is added (`Accepts`). On a disk with the usual limits all directories are like that whose
paths leave enough room for a name (`accepts_disk`). A longer name is refused there
(`writeFile_of_tooLong`). -/
namespace ClassicIcons.Disk

/-! ### File systems -/

class FileSystem (σ : Type) [Storage (StateM σ)] where
  IsDirectory : σ → Path → Prop
  here (s : σ) : IsDirectory s ⟨""⟩
  /-- A path with a NUL in it leads nowhere. -/
  reads {p : Path} {s s' : σ} {data : Bytes} :
    Storage.readFile (m := StateM σ) p s = (.ok data, s') → '\x00' ∉ p.text.toList
  looks {p : Path} {s s' : σ} : Storage.isDirectory (m := StateM σ) p s = (true, s') → IsDirectory s' p
  makes {p : Path} {s s' : σ} : Storage.makeDirectory (m := StateM σ) p s = (.ok (), s') → IsDirectory s' p
  /-- Writing a file makes no directory, and takes none away. -/
  writes {p : Path} {content : Bytes} {s s' : σ} {result : Except Fault Unit} :
    Storage.writeFile (m := StateM σ) p content s = (result, s') →
      ∀ q, IsDirectory s' q ↔ IsDirectory s q

/-- Files have been written since, and nothing else has happened. -/
inductive Written {σ : Type} [Storage (StateM σ)] (s : σ) : σ → Prop
  | none : Written s s
  | file {mid s' : σ} {p : Path} {content : Bytes} (h : Written s mid)
      (hwrite : Storage.writeFile (m := StateM σ) p content mid = (.ok (), s')) : Written s s'

/-- In the directory that the path leads to, a file can be created under every name of 1 to
255 bytes without a slash or a NUL, unless a directory has this name. -/
def Accepts {σ : Type} [Storage (StateM σ)] [FileSystem σ] (s : σ) (p : Path) : Prop :=
  ∀ (s' : σ) (name : String) (content : Bytes), Written s s' → FileSystem.IsDirectory s' p →
    1 ≤ name.utf8ByteSize → name.utf8ByteSize ≤ 255 → '/' ∉ name.toList → '\x00' ∉ name.toList →
    ¬FileSystem.IsDirectory s' (p.join name) →
    (Storage.writeFile (m := StateM σ) (p.join name) content s').1 = .ok ()

section
variable {σ : Type} [Storage (StateM σ)] {s mid s' : σ} {p : Path}

theorem Written.trans (h : Written s mid) (h' : Written mid s') : Written s s' := by
  induction h' with
  | none => exact h
  | file _ hwrite ih => exact .file ih hwrite

variable [FileSystem σ]

theorem Accepts.of_written (h : Accepts s p) (hwritten : Written s mid) : Accepts mid p :=
  fun s' name content hmore => h s' name content (hwritten.trans hmore)

/-- A directory that was asked for is there. -/
theorem FileSystem.isDirectory_of_makeDirectories
    (h : Storage.makeDirectories (m := StateM σ) p s = (.ok (), s')) : IsDirectory s' p := by
  have hunless : ∀ {s : σ} {fault : Fault},
      Storage.unlessDirectory (m := StateM σ) p fault s = (.ok (), s') → IsDirectory s' p := by
    intro s fault h
    obtain ⟨answer, mid, hlook, h⟩ := bind_eq_iff.1 h
    cases answer with
    | true =>
      obtain ⟨-, rfl⟩ := pure_eq_iff.1 h
      exact looks hlook
    | false => cases (pure_eq_iff.1 h).1
  unfold Storage.makeDirectories at h
  split at h
  · rename_i hempty
    obtain ⟨-, rfl⟩ := pure_eq_iff.1 h
    rw [show p = ⟨""⟩ from congrArg Path.mk hempty]
    exact here s
  · obtain ⟨first, s₁, hfirst, h⟩ := bind_eq_iff.1 h
    split at h
    · obtain ⟨-, rfl⟩ := pure_eq_iff.1 h
      exact makes hfirst
    · obtain ⟨others, s₂, hothers, h⟩ := bind_eq_iff.1 h
      split at h
      · cases (pure_eq_iff.1 h).1
      · obtain ⟨again, s₃, hagain, h⟩ := bind_eq_iff.1 h
        split at h
        · obtain ⟨-, rfl⟩ := pure_eq_iff.1 h
          exact makes hagain
        · exact hunless h
    · exact hunless h

end

/-! ### Systems with a disk -/

/-- A way on leads from a directory. -/
theorem directory_of_follow_cons {d : Disk} {l m : Location} {part : String} {rest : List String}
    (h : d.follow l (part :: rest) = .ok m) : d.find? l = some .directory := by
  rw [follow] at h
  split at h
  · cases h
  · rename_i hdirectory
    exact Decidable.not_not.1 hdirectory

/-- Two disks have the same directories. -/
structure Alike (d d' : Disk) : Prop where
  limits : d'.limits = d.limits
  directory_iff : ∀ l, d'.find? l = some .directory ↔ d.find? l = some .directory

theorem Alike.refl (d : Disk) : Alike d d := ⟨rfl, fun _ => Iff.rfl⟩

theorem Alike.symm {d d' : Disk} (h : Alike d d') : Alike d' d :=
  ⟨h.limits.symm, fun l => (h.directory_iff l).symm⟩

/-- Ways to directories are the same. -/
theorem Alike.follow_eq {d d' : Disk} (h : Alike d d') {l m : Location} {parts : List String}
    (hfollow : d.follow l parts = .ok m) (hm : d.find? m = some .directory) : d'.follow l parts = .ok m := by
  have hstays {l : Location} (hl : ¬d.find? l ≠ some .directory) : ¬d'.find? l ≠ some .directory :=
    not_not_intro ((h.directory_iff l).2 (Decidable.not_not.1 hl))
  fun_induction follow d l parts with
  | case1 l => exact hfollow
  | case2 l part rest hdirectory => cases hfollow
  | case3 l rest hdirectory ih =>
    rw [follow, if_neg (hstays hdirectory), if_pos rfl]
    exact ih hfollow
  | case4 l rest hdirectory hdot ih =>
    rw [follow, if_neg (hstays hdirectory), if_neg hdot, if_pos rfl]
    exact ih hfollow
  | case5 l part rest hdirectory hdot hup hlong => cases hfollow
  | case6 l part rest hdirectory hdot hup hlong hnone => cases hfollow
  | case7 l part rest hdirectory hdot hup hlong hfound ih =>
    -- What stands on the way to a directory is a directory itself.
    have hnext : d.find? (l ++ [part]) = some .directory := by
      cases rest with
      | nil =>
        cases hfollow
        exact hm
      | cons => exact directory_of_follow_cons hfollow
    have hfound' : ¬d'.find? (l ++ [part]) = none := by
      rw [(h.directory_iff _).2 hnext]
      exact Option.some_ne_none _
    have hlong' : ¬d'.tooLong part = true := by rwa [tooLong, h.limits]
    rw [follow, if_neg (hstays hdirectory), if_neg hdot, if_neg hup, if_neg hlong', if_neg hfound']
    exact ih hfollow

theorem Alike.enters_iff {d d' : Disk} (h : Alike d d') {p : Path} {l : Location} :
    d'.Enters p l ↔ d.Enters p l := by
  constructor
  · intro hl
    exact ⟨h.symm.follow_eq hl.1 hl.2, (h.directory_iff l).1 hl.2⟩
  · intro hl
    exact ⟨h.follow_eq hl.1 hl.2, (h.directory_iff l).2 hl.2⟩

theorem alike_of_writeFile {d d' : Disk} {p : Path} {content : Bytes} (h : d.writeFile p content = .ok d') :
    Alike d d' := by
  obtain ⟨into, name, -, -, hfree, rfl⟩ := writeFile_eq_ok_iff.1 h
  refine ⟨d.limits_put _ _, fun l => ?_⟩
  rw [find?_put d (concat_ne_nil into name)]
  split
  · rename_i heq
    rw [heq]
    exact iff_of_false (nomatch ·) hfree
  · exact Iff.rfl

theorem fault?_eq_none_iff {d : Disk} {p : Path} : d.fault? p = none ↔
    '\x00' ∉ p.text.toList ∧ p.text ≠ "" ∧ exceeds p.text d.limits.path = false := by
  unfold fault?
  split
  · simp [*]
  · split
    · simp [*]
    · split <;> simp [*]

namespace System
variable {σ : Type} [Storage (StateM σ)] [System σ]

theorem alike_of_write {p : Path} {content : Bytes} {s s' : σ} {result : Except Fault Unit}
    (h : Storage.writeFile (m := StateM σ) p content s = (result, s')) : Alike (disk s) (disk s') := by
  have hgranted := writes h
  cases result with
  | ok _ => exact alike_of_writeFile hgranted
  | error fault =>
    have hsame : disk s' = disk s := hgranted
    exact hsame ▸ Alike.refl (disk s)

instance : FileSystem σ where
  IsDirectory s p := ∃ l, (disk s).Enters p l
  here s := ⟨[], rfl, rfl⟩
  reads h := (fault?_eq_none_iff.1 (readFile_eq_ok_iff.1 ((reads h).2 _ rfl)).1).1
  looks h := by
    obtain ⟨hsame, hanswer⟩ := looks h
    exact hsame ▸ (isDirectory_iff.1 (hanswer rfl)).2
  makes h := (makes_made h).2 rfl
  writes h q := exists_congr fun _ => (alike_of_write h).enters_iff

theorem isDirectory_iff {s : σ} {p : Path} : FileSystem.IsDirectory s p ↔ ∃ l, (disk s).Enters p l := Iff.rfl

end System

/-! ### Disks -/

/-- What is no name of its own leads from a directory to a directory. -/
theorem exists_follow_of_not_isName {d : Disk} {into : Location} {part : String}
    (hinto : d.find? into = some .directory) (hpart : ¬isName part = true) :
    ∃ l, d.follow into [part] = .ok l := by
  rw [follow, if_neg (not_not_intro hinto)]
  split
  · exact ⟨into, rfl⟩
  · rename_i hdot
    split
    · exact ⟨into.dropLast, rfl⟩
    · rename_i hup
      exact absurd (isName_iff.2 ⟨hdot, hup⟩) hpart

theorem fault?_join {d : Disk} {p : Path} {name : String} (hnul : '\x00' ∉ p.text.toList)
    (hne : name ≠ "") (hslash : '/' ∉ name.toList) (hnul' : '\x00' ∉ name.toList)
    (hlimits : d.limits = .usual) (hlength : p.text.utf8ByteSize + 1 + name.utf8ByteSize ≤ 4095) :
    d.fault? (p.join name) = none := by
  have hfront : ∃ front : String, (p.join name).text = front ++ name ∧ '\x00' ∉ front.toList ∧
      front.utf8ByteSize ≤ p.text.utf8ByteSize + 1 := by
    rcases p.text_join hslash with ⟨htext, -⟩ | ⟨htext, -⟩
    · exact ⟨p.text, htext, hnul, Nat.le_succ _⟩
    · refine ⟨p.text ++ "/", htext, ?_, ?_⟩
      · rw [String.toList_append, List.mem_append, not_or]
        exact ⟨hnul, by decide⟩
      · rw [String.utf8ByteSize_append]
        exact Nat.le_refl _
  obtain ⟨front, htext, hfrontNul, hfrontLength⟩ := hfront
  rw [fault?_eq_none_iff, htext, String.toList_append, List.mem_append, hlimits]
  refine ⟨fun h => h.elim hfrontNul hnul', fun h => ?_, decide_eq_false ?_⟩
  · have hlist := congrArg String.toList h
    rw [String.toList_append] at hlist
    exact hne (String.toList_eq_nil_iff.1 (List.append_eq_nil_iff.1 hlist).2)
  · rw [String.utf8ByteSize_append]
    omega

theorem limits_of_written {d d' : Disk} (h : Written d d') : d'.limits = d.limits := by
  induction h with
  | none => rfl
  | file _ hwrite ih => exact (System.alike_of_write hwrite).limits.trans ih

/-- **A disk accepts files** wherever paths do not get too long. -/
theorem accepts_disk {d : Disk} {p : Path} (hlimits : d.limits = .usual) (hnul : '\x00' ∉ p.text.toList)
    (hlength : p.text.utf8ByteSize + 256 ≤ 4095) : Accepts d p := by
  intro d' name content hwritten hinto hbyte hshort hslash hnul' hfree
  have hlimits' := (limits_of_written hwritten).trans hlimits
  change ∃ into, d'.Enters p into at hinto
  obtain ⟨into, hleads, hdirectory⟩ := hinto
  have hne : name ≠ "" := by
    intro hempty
    rw [hempty] at hbyte
    cases hbyte
  have hfault := fault?_join hnul hne hslash hnul' hlimits' (by omega)
  have hnot : ∀ l, ¬d'.Enters (p.join name) l := fun l hl => hfree ⟨l, hl⟩
  have hname : isName name = true := by
    refine Decidable.byContradiction fun hname => ?_
    obtain ⟨l, hl⟩ := exists_follow_of_not_isName hdirectory hname
    refine hnot l ⟨?_, directory_of_follow hname (inside_follow d'.inside_top hleads) hl⟩
    rw [Leads, p.parts_join hne hslash, follow_append, show d'.follow [] p.parts = .ok into from hleads]
    exact hl
  have hlong : d'.tooLong name = false := by
    rw [tooLong, hlimits']
    exact decide_eq_false (Nat.not_lt.2 hshort)
  have hnone : d'.find? (into ++ [name]) ≠ some .directory := by
    intro htaken
    have hfound : d'.find? (into ++ [name]) ≠ none := by
      rw [htaken]
      exact Option.some_ne_none _
    have hjoined := (leads_join_iff hne hslash hname).2 ⟨into, ⟨hleads, hdirectory⟩, hlong, hfound, rfl⟩
    exact hnot (into ++ [name]) ⟨hjoined, htaken⟩
  have hwrite : d'.writeFile (p.join name) content = .ok (d'.put (into ++ [name]) (.file content)) :=
    (writeFile_join_iff hne hslash).2 ⟨hfault, hname, hlong, into, ⟨hleads, hdirectory⟩, hnone, rfl⟩
  show (attempt (fun d => d.writeFile (p.join name) content) d').1 = .ok ()
  rw [attempt, hwrite]

section
variable {d : Disk} {p : Path} {name : String} (hne : name ≠ "") (hslash : '/' ∉ name.toList)
  (hfault : d.fault? (p.join name) = none) {into : Location} (hinto : d.Enters p into)
include hne hslash hfault hinto

theorem place_join : d.place (p.join name) = .ok (into, some name) := by
  rw [place_eq_ok_iff, p.parts_join hne hslash, List.dropLast_concat]
  exact ⟨hfault, hinto.1, hinto.2, List.getLast?_concat⟩

variable (hname : isName name = true)
include hname

/-- A name that is too long is refused. -/
theorem writeFile_of_tooLong (hlong : d.tooLong name = true) (content : Bytes) :
    d.writeFile (p.join name) content = .error .nameTooLong := by
  have hplace := place_join hne hslash hfault hinto
  simp [writeFile, hplace, bind, Except.bind, hname, hlong, p.endsInSlash_join hne hslash]

/-- A name that a directory has is refused. -/
theorem writeFile_of_directory (hshort : d.tooLong name = false)
    (htaken : d.find? (into ++ [name]) = some .directory) (content : Bytes) :
    d.writeFile (p.join name) content = .error .isDirectory := by
  have hplace := place_join hne hslash hfault hinto
  simp [writeFile, hplace, bind, Except.bind, hname, hshort, htaken, p.endsInSlash_join hne hslash]

end

end ClassicIcons.Disk
