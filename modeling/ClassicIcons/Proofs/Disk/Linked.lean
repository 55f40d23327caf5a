import ClassicIcons.Proofs.Disk.Acceptance

/-! Disks with links.

A name on a disk can be a link, which holds a path. Whoever reads or writes by that name
reads or writes by the path that it holds, and a file can come to be far from where it was
asked for. So a disk with links is no system that does to its disk what it grants; but it
is settled there, too, what is a directory, and files make no difference to it. -/
namespace ClassicIcons.Disk

structure Linked where
  disk : Disk
  /-- Each link with the path that it holds, from the top. -/
  links : List (Location × Path)

namespace Linked

/-- The path that is meant by a path. -/
def meant (s : Linked) (p : Path) : Path :=
  match s.disk.place p with
  | .ok (into, some name) => (s.links.lookup (into ++ [name])).getD p
  | _ => p

/-- Does something to the disk, unless it fails. -/
def attempt (op : Disk → Except Fault Disk) : StateM Linked (Except Fault Unit) := fun s =>
  match op s.disk with
  | .ok d => (.ok (), { s with disk := d })
  | .error fault => (.error fault, s)

instance : Storage (StateM Linked) where
  readFile p := fun s => (s.disk.readFile (s.meant p), s)
  isDirectory p := fun s => (s.disk.isDirectory (s.meant p), s)
  -- No directory takes the place of a link.
  makeDirectory p := fun s =>
    if s.meant p = p then attempt (·.makeDirectory p) s else (.error .alreadyExists, s)
  writeFile p content := fun s => attempt (·.writeFile (s.meant p) content) s

theorem attempt_ok {op : Disk → Except Fault Disk} {s s' : Linked} (h : attempt op s = (.ok (), s')) :
    op s.disk = .ok s'.disk ∧ s'.links = s.links := by
  unfold attempt at h
  split at h
  · rename_i hop
    cases h
    exact ⟨hop, rfl⟩
  · cases h

/-- A path means the same as long as the directories on its way are there. -/
theorem meant_eq {s s' : Linked} {p : Path} (hlinks : s'.links = s.links)
    (hplace : ∀ into last, s'.disk.place p = .ok (into, last) ↔ s.disk.place p = .ok (into, last)) :
    s'.meant p = s.meant p := by
  unfold meant
  cases h : s.disk.place p with
  | ok found =>
    obtain ⟨into, last⟩ := found
    rw [(hplace into last).2 h, hlinks]
  | error fault =>
    cases h' : s'.disk.place p with
    | ok found =>
      have hfound := (hplace found.1 found.2).1 h'
      rw [h] at hfound
      cases hfound
    | error fault' => rfl

theorem place_iff_of_alike {d d' : Disk} (h : Alike d d') {p : Path} {into : Location} {last : Option String} :
    d'.place p = .ok (into, last) ↔ d.place p = .ok (into, last) := by
  have hone {d d' : Disk} (h : Alike d d') (hplace : d.place p = .ok (into, last)) :
      d'.place p = .ok (into, last) := by
    obtain ⟨hfault, hleads, hdirectory, hlast⟩ := place_eq_ok_iff.1 hplace
    refine place_eq_ok_iff.2 ⟨?_, h.follow_eq hleads hdirectory, (h.directory_iff into).2 hdirectory, hlast⟩
    rw [fault?, h.limits]
    exact hfault
  exact ⟨hone h.symm, hone h⟩

theorem alike_of_write {p : Path} {content : Bytes} {s s' : Linked} {result : Except Fault Unit}
    (h : Storage.writeFile (m := StateM Linked) p content s = (result, s')) :
    Alike s.disk s'.disk ∧ s'.links = s.links := by
  cases result with
  | ok _ =>
    obtain ⟨hwrite, hlinks⟩ := attempt_ok h
    exact ⟨alike_of_writeFile hwrite, hlinks⟩
  | error fault =>
    change attempt _ s = _ at h
    unfold attempt at h
    split at h
    · cases h
    · cases h
      exact ⟨Alike.refl _, rfl⟩

/-- There is no telling what a path means that is refused for one of its letters. -/
theorem nul_not_mem_of_readFile {p : Path} {s s' : Linked} {data : Bytes}
    (h : Storage.readFile (m := StateM Linked) p s = (.ok data, s')) : '\x00' ∉ p.text.toList := by
  intro hnul
  have hfault : s.disk.fault? p = some .nulInPath := if_pos hnul
  have hmeant : s.meant p = p := by
    rw [meant, place, hfault]
  have hread : s.disk.readFile (s.meant p) = .ok data := congrArg Prod.fst h
  rw [hmeant, readFile_eq_ok_iff, hfault] at hread
  cases hread.1

/-- A directory that is made is no link, and is there. -/
theorem enters_of_makeDirectory {p : Path} {s s' : Linked}
    (h : Storage.makeDirectory (m := StateM Linked) p s = (.ok (), s')) :
    ∃ l, s'.disk.Enters (s'.meant p) l := by
  change (if s.meant p = p then attempt (·.makeDirectory p) s else _) = _ at h
  split at h
  · rename_i hmeant
    obtain ⟨hmake, hlinks⟩ := attempt_ok h
    obtain ⟨hmade, l, hl⟩ := makeDirectory_made hmake
    obtain ⟨into, name, hnames, -⟩ := makeDirectory_eq_ok_iff.1 hmake
    have hplace := (names_iff.1 hnames).1
    have hplace' := (names_iff.1 (hnames.of_grows hmade.grows)).1
    have hsame : s'.meant p = s.meant p := by
      rw [meant, meant, hplace, hplace', hlinks]
    exact ⟨l, by rw [hsame, hmeant]; exact hl⟩
  · cases h

instance : FileSystem Linked where
  IsDirectory s p := ∃ l, s.disk.Enters (s.meant p) l
  here s := ⟨[], rfl, rfl⟩
  reads h := nul_not_mem_of_readFile h
  looks h := by
    cases (Prod.mk.inj h).2
    exact (isDirectory_iff.1 (congrArg Prod.fst h)).2
  makes h := enters_of_makeDirectory h
  writes h q := by
    obtain ⟨halike, hlinks⟩ := alike_of_write h
    rw [meant_eq hlinks fun _ _ => place_iff_of_alike halike]
    exact exists_congr fun _ => halike.enters_iff

end Linked
end ClassicIcons.Disk
