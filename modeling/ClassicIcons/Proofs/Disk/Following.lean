import ClassicIcons.Disk.Basic
import ClassicIcons.Proofs.Disk.Paths

/-! Paths on a disk that grows.

A disk grows if what is there stays there and directories stay directories; files may
change what they hold (`Grows`). A path that led somewhere leads there still
(`follow_of_grows`). Each operation that succeeds is one `put` at the place that its path
names (`writeFile_eq_ok_iff`, `makeDirectory_eq_ok_iff`), so it makes the disk grow,
and it can be said what is found afterwards by which path. -/
namespace ClassicIcons.Disk

/-- The path leads to the location. -/
def Leads (d : Disk) (p : Path) (l : Location) : Prop := d.follow [] p.parts = .ok l

theorem Leads.unique {d : Disk} {p : Path} {l m : Location} (hl : d.Leads p l) (hm : d.Leads p m) :
    l = m :=
  Except.ok.inj (hl.symm.trans hm)

/-- The path leads to the location of a directory. -/
def Enters (d : Disk) (p : Path) (l : Location) : Prop := d.Leads p l ∧ d.find? l = some .directory

/-! ### Growing -/

structure Grows (d d' : Disk) : Prop where
  limits : d'.limits = d.limits
  directory : ∀ l, d.find? l = some .directory → d'.find? l = some .directory
  found : ∀ l, d.find? l ≠ none → d'.find? l ≠ none

theorem Grows.refl (d : Disk) : d.Grows d := ⟨rfl, fun _ h => h, fun _ h => h⟩

theorem Grows.trans {d d' d'' : Disk} (h : d.Grows d') (h' : d'.Grows d'') : d.Grows d'' :=
  ⟨h'.limits.trans h.limits, fun l hl => h'.directory l (h.directory l hl),
    fun l hl => h'.found l (h.found l hl)⟩

/-- A disk grows by anything that takes no directory away. -/
theorem grows_put {d : Disk} {l : Location} {e : Entry} (hl : l ≠ [])
    (h : e = .directory ∨ d.find? l ≠ some .directory) : d.Grows (d.put l e) where
  limits := d.limits_put l e
  directory m hm := by
    rw [find?_put d hl]
    by_cases heq : m = l
    · subst heq
      rcases h with rfl | hnot
      · exact if_pos rfl
      · exact absurd hm hnot
    · rwa [if_neg heq]
  found m hm := by
    rw [find?_put d hl]
    by_cases heq : m = l
    · rw [if_pos heq]
      exact Option.some_ne_none e
    · rwa [if_neg heq]

theorem Grows.stays {d d' : Disk} (h : d.Grows d') {l : Location}
    (hl : ¬d.find? l ≠ some .directory) : ¬d'.find? l ≠ some .directory :=
  not_not_intro (h.directory l (Decidable.not_not.1 hl))

theorem Grows.tooLong_eq {d d' : Disk} (h : d.Grows d') (name : String) : d'.tooLong name = d.tooLong name := by
  rw [tooLong, tooLong, h.limits]

theorem Grows.fault?_eq {d d' : Disk} (h : d.Grows d') (p : Path) : d'.fault? p = d.fault? p := by
  rw [fault?, fault?, h.limits]

/-- On a disk that has grown, every way leads where it led. -/
theorem follow_of_grows {d d' : Disk} (h : d.Grows d') {l m : Location} {parts : List String}
    (hm : d.follow l parts = .ok m) : d'.follow l parts = .ok m := by
  fun_induction follow d l parts with
  | case1 l => exact hm
  | case2 l part rest hdirectory => cases hm
  | case3 l rest hdirectory ih =>
    rw [follow, if_neg (h.stays hdirectory), if_pos rfl]
    exact ih hm
  | case4 l rest hdirectory hdot ih =>
    rw [follow, if_neg (h.stays hdirectory), if_neg hdot, if_pos rfl]
    exact ih hm
  | case5 l part rest hdirectory hdot hup hlong => cases hm
  | case6 l part rest hdirectory hdot hup hlong hnone => cases hm
  | case7 l part rest hdirectory hdot hup hlong hfound ih =>
    rw [follow, if_neg (h.stays hdirectory), if_neg hdot, if_neg hup, h.tooLong_eq, if_neg hlong,
      if_neg (h.found _ hfound)]
    exact ih hm

theorem Leads.of_grows {d d' : Disk} {p : Path} {l : Location} (hl : d.Leads p l) (h : d.Grows d') :
    d'.Leads p l :=
  follow_of_grows h hl

theorem Enters.of_grows {d d' : Disk} {p : Path} {l : Location} (hl : d.Enters p l)
    (h : d.Grows d') : d'.Enters p l :=
  ⟨hl.1.of_grows h, h.directory l hl.2⟩

/-! ### Ways -/

/-- One way after another. -/
theorem follow_append (d : Disk) (l : Location) (parts more : List String) :
    d.follow l (parts ++ more) = d.follow l parts >>= fun m => d.follow m more := by
  fun_induction follow d l parts with
  | case1 l => rfl
  | case2 l part rest hdirectory =>
    rw [List.cons_append, follow, if_pos hdirectory]
    rfl
  | case3 l rest hdirectory ih => rw [List.cons_append, follow, if_neg hdirectory, if_pos rfl, ih]
  | case4 l rest hdirectory hdot ih =>
    rw [List.cons_append, follow, if_neg hdirectory, if_neg hdot, if_pos rfl, ih]
  | case5 l part rest hdirectory hdot hup hlong =>
    rw [List.cons_append, follow, if_neg hdirectory, if_neg hdot, if_neg hup, if_pos hlong]
    rfl
  | case6 l part rest hdirectory hdot hup hlong hnone =>
    rw [List.cons_append, follow, if_neg hdirectory, if_neg hdot, if_neg hup, if_neg hlong, if_pos hnone]
    rfl
  | case7 l part rest hdirectory hdot hup hlong hfound ih =>
    rw [List.cons_append, follow, if_neg hdirectory, if_neg hdot, if_neg hup, if_neg hlong,
      if_neg hfound, ih]

/-- Nothing but directories lies above the location. -/
def Inside (d : Disk) (l : Location) : Prop := ∀ n, n < l.length → d.find? (l.take n) = some .directory

theorem inside_top (d : Disk) : d.Inside [] := fun n hn => absurd hn (Nat.not_lt_zero n)

theorem inside_follow {d : Disk} {l m : Location} {parts : List String} (hl : d.Inside l)
    (hm : d.follow l parts = .ok m) : d.Inside m := by
  fun_induction follow d l parts with
  | case1 l =>
    cases hm
    exact hl
  | case2 l part rest hdirectory => cases hm
  | case3 l rest hdirectory ih => exact ih hl hm
  | case4 l rest hdirectory hdot ih =>
    refine ih (fun n hn => ?_) hm
    rw [List.length_dropLast] at hn
    rw [List.dropLast_eq_take, List.take_take, Nat.min_eq_left (Nat.le_of_lt hn)]
    exact hl n (by omega)
  | case5 l part rest hdirectory hdot hup hlong => cases hm
  | case6 l part rest hdirectory hdot hup hlong hnone => cases hm
  | case7 l part rest hdirectory hdot hup hlong hfound ih =>
    refine ih (fun n hn => ?_) hm
    rw [List.length_append, List.length_singleton] at hn
    rcases Nat.lt_or_eq_of_le (Nat.le_of_lt_succ hn) with hlt | rfl
    · rw [List.take_append_of_le_length (Nat.le_of_lt hlt)]
      exact hl n hlt
    · rw [List.take_left]
      exact Decidable.not_not.1 hdirectory

/-- Whether a last part names something of its own. -/
theorem isName_iff {part : String} : isName part = true ↔ part ≠ "." ∧ part ≠ ".." := by
  simp [isName]

/-- A way that ends in a name ends under this name. -/
theorem follow_name_iff {d : Disk} {into l : Location} {name : String} (hname : isName name = true) :
    d.follow into [name] = .ok l ↔ d.find? into = some .directory ∧ d.tooLong name = false ∧
      d.find? (into ++ [name]) ≠ none ∧ into ++ [name] = l := by
  obtain ⟨hdot, hup⟩ := isName_iff.1 hname
  rw [follow, if_neg hdot, if_neg hup]
  by_cases hinto : d.find? into = some .directory
  · rw [if_neg (not_not_intro hinto)]
    by_cases hlong : d.tooLong name = true
    · simp [hlong]
    · rw [if_neg hlong]
      by_cases hfound : d.find? (into ++ [name]) = none
      · simp [hfound]
      · rw [if_neg hfound, follow]
        simp [hinto, hlong, hfound]
  · simp [hinto]

/-- A way that leads up or nowhere ends in a directory. -/
theorem directory_of_follow {d : Disk} {into l : Location} {part : String} (hname : ¬isName part = true)
    (hinside : d.Inside into) (h : d.follow into [part] = .ok l) : d.find? l = some .directory := by
  rw [follow] at h
  split at h
  · cases h
  · rename_i hdirectory
    have hinto := Decidable.not_not.1 hdirectory
    split at h
    · cases h
      exact hinto
    · rename_i hdot
      split at h
      · cases h
        cases into with
        | nil => rfl
        | cons first rest =>
          rw [List.dropLast_eq_take]
          exact hinside _ (Nat.sub_lt (Nat.succ_pos _) Nat.one_pos)
      · rename_i hup
        exact absurd (isName_iff.2 ⟨hdot, hup⟩) hname

/-- A file is found under its own name, the last part of every path that leads to it. -/
theorem exists_name_of_file {d : Disk} {p : Path} {l : Location} {content : Bytes} (hl : d.Leads p l)
    (hfile : d.find? l = some (.file content)) :
    ∃ front into name, p.parts = front ++ [name] ∧ isName name = true ∧ l = into ++ [name] := by
  rcases List.eq_nil_or_concat p.parts with hparts | ⟨front, name, hconcat⟩
  · rw [Leads, hparts] at hl
    cases hl
    cases hfile
  · have hparts : p.parts = front ++ [name] := hconcat.trans (List.concat_eq_append ..)
    rw [Leads, hparts, follow_append] at hl
    cases hfront : d.follow [] front with
    | error fault =>
      rw [hfront] at hl
      cases hl
    | ok into =>
      rw [hfront] at hl
      change d.follow into [name] = .ok l at hl
      by_cases hname : isName name = true
      · obtain ⟨-, -, -, rfl⟩ := (follow_name_iff hname).1 hl
        exact ⟨front, into, name, hparts, hname, rfl⟩
      · rw [directory_of_follow hname (inside_follow d.inside_top hfront) hl] at hfile
        cases hfile

/-! ### What paths name -/

/-- The path names something in a directory, whether or not it is there. -/
structure Names (d : Disk) (p : Path) (into : Location) (name : String) : Prop where
  fault : d.fault? p = none
  parts : p.parts = p.parts.dropLast ++ [name]
  leads : d.follow [] p.parts.dropLast = .ok into
  directory : d.find? into = some .directory
  isName : isName name = true
  short : d.tooLong name = false

theorem Names.of_grows {d d' : Disk} {p : Path} {into : Location} {name : String}
    (h : d.Names p into name) (hgrows : d.Grows d') : d'.Names p into name where
  fault := (hgrows.fault?_eq p).trans h.fault
  parts := h.parts
  leads := follow_of_grows hgrows h.leads
  directory := hgrows.directory into h.directory
  isName := h.isName
  short := (hgrows.tooLong_eq name).trans h.short

/-- What a path names it leads to, once it is there. -/
theorem Names.leads_of_found {d : Disk} {p : Path} {into : Location} {name : String}
    (h : d.Names p into name) (hfound : d.find? (into ++ [name]) ≠ none) :
    d.Leads p (into ++ [name]) := by
  rw [Leads, h.parts, follow_append, h.leads]
  exact (follow_name_iff h.isName).2 ⟨h.directory, h.short, hfound, rfl⟩

theorem place_eq_ok_iff {d : Disk} {p : Path} {into : Location} {last : Option String} :
    d.place p = .ok (into, last) ↔ d.fault? p = none ∧ d.follow [] p.parts.dropLast = .ok into ∧
      d.find? into = some .directory ∧ p.parts.getLast? = last := by
  unfold place
  cases d.fault? p with
  | some fault => simp
  | none =>
    cases d.follow [] p.parts.dropLast with
    | error fault => simp [bind, Except.bind]
    | ok l =>
      by_cases hl : d.find? l = some .directory
      · simp only [bind, Except.bind, if_pos hl, Except.ok.injEq, Prod.mk.injEq, true_and]
        constructor
        · intro h
          obtain ⟨rfl, hlast⟩ := h
          exact ⟨rfl, hl, hlast⟩
        · intro h
          exact ⟨h.1, h.2.2⟩
      · simp only [bind, Except.bind, if_neg hl, reduceCtorEq, Except.ok.injEq, true_and, false_iff]
        intro h
        exact hl (h.1 ▸ h.2.1)

theorem names_iff {d : Disk} {p : Path} {into : Location} {name : String} :
    d.Names p into name ↔
      d.place p = .ok (into, some name) ∧ isName name = true ∧ d.tooLong name = false := by
  rw [place_eq_ok_iff]
  constructor
  · intro h
    have hlast : p.parts.getLast? = some name := by
      rw [h.parts]
      exact List.getLast?_concat
    exact ⟨⟨h.fault, h.leads, h.directory, hlast⟩, h.isName, h.short⟩
  · intro h
    obtain ⟨⟨hfault, hleads, hdirectory, hlast⟩, hname, hshort⟩ := h
    obtain ⟨front, hparts⟩ := List.getLast?_eq_some_iff.1 hlast
    have hfront : p.parts = p.parts.dropLast ++ [name] := by
      rw [hparts, List.dropLast_concat]
    exact ⟨hfault, hfront, hleads, hdirectory, hname, hshort⟩

/-- **Writing a file puts it where its path says**, in place of nothing or of a file. -/
theorem writeFile_eq_ok_iff {d d' : Disk} {p : Path} {content : Bytes} :
    d.writeFile p content = .ok d' ↔ ∃ into name, d.Names p into name ∧ p.endsInSlash = false ∧
      d.find? (into ++ [name]) ≠ some .directory ∧ d.put (into ++ [name]) (.file content) = d' := by
  simp only [names_iff]
  unfold writeFile
  cases hplace : d.place p with
  | error fault => simp [bind, Except.bind]
  | ok found =>
    obtain ⟨into, last⟩ := found
    cases last with
    | none => simp [bind, Except.bind]
    | some name =>
      simp only [bind, Except.bind]
      constructor
      · intro h
        split at h
        · cases h
        · rename_i hname
          split at h
          · cases h
          · rename_i hshort
            split at h
            · cases h
            · rename_i hfree
              simp only [Bool.or_eq_true, Bool.not_eq_true', not_or, Bool.not_eq_false,
                Bool.not_eq_true] at hname hshort
              exact ⟨into, name, ⟨rfl, hname.1, hshort⟩, hname.2, hfree, Except.ok.inj h⟩
      · intro h
        obtain ⟨_, _, ⟨heq, hname, hshort⟩, hslash, hfree, rfl⟩ := h
        cases heq
        simp [hname, hslash, hshort, hfree]

/-- **Making a directory puts it where its path says**, in place of nothing. -/
theorem makeDirectory_eq_ok_iff {d d' : Disk} {p : Path} :
    d.makeDirectory p = .ok d' ↔ ∃ into name, d.Names p into name ∧
      d.find? (into ++ [name]) = none ∧ d.put (into ++ [name]) .directory = d' := by
  simp only [names_iff]
  unfold makeDirectory
  cases hplace : d.place p with
  | error fault => simp [bind, Except.bind]
  | ok found =>
    obtain ⟨into, last⟩ := found
    cases last with
    | none => simp [bind, Except.bind]
    | some name =>
      simp only [bind, Except.bind]
      constructor
      · intro h
        split at h
        · cases h
        · rename_i hname
          split at h
          · cases h
          · rename_i hshort
            split at h
            · cases h
            · rename_i hfree
              simp only [Bool.not_eq_true', Bool.not_eq_false, Bool.not_eq_true] at hname hshort
              exact ⟨into, name, ⟨rfl, hname, hshort⟩, hfree, Except.ok.inj h⟩
      · intro h
        obtain ⟨_, _, ⟨heq, hname, hshort⟩, hfree, rfl⟩ := h
        cases heq
        simp [hname, hshort, hfree]

/-! ### Looking -/

theorem readFile_eq_ok_iff {d : Disk} {p : Path} {content : Bytes} :
    d.readFile p = .ok content ↔ d.fault? p = none ∧ p.endsInSlash = false ∧
      ∃ l, d.Leads p l ∧ d.find? l = some (.file content) := by
  unfold readFile look Leads
  cases d.fault? p with
  | some fault => simp [bind, Except.bind]
  | none =>
    cases d.follow [] p.parts with
    | error fault => simp [bind, Except.bind]
    | ok l =>
      cases hfound : d.find? l with
      | none => simp [bind, Except.bind, hfound]
      | some entry =>
        cases entry with
        | directory => simp [bind, Except.bind, hfound]
        | file found => by_cases hslash : p.endsInSlash = true <;> simp [bind, Except.bind, hfound, hslash]

theorem isDirectory_iff {d : Disk} {p : Path} :
    d.isDirectory p = true ↔ d.fault? p = none ∧ ∃ l, d.Enters p l := by
  unfold isDirectory look Enters Leads
  cases d.fault? p with
  | some fault => simp
  | none =>
    cases d.follow [] p.parts with
    | error fault => simp [bind, Except.bind]
    | ok l =>
      cases hfound : d.find? l with
      | none => simp [bind, Except.bind, hfound]
      | some entry =>
        cases entry with
        | directory => simp [bind, Except.bind, hfound]
        | file found => by_cases hslash : p.endsInSlash = true <;> simp [bind, Except.bind, hfound, hslash]

/-- A file that is still the same is still read the same. -/
theorem readFile_of_grows {d d' : Disk} {p : Path} {content : Bytes} (hread : d.readFile p = .ok content)
    (hgrows : d.Grows d') (hsame : ∀ l, d.Leads p l → d'.find? l = d.find? l) :
    d'.readFile p = .ok content := by
  obtain ⟨hfault, hslash, l, hl, hfile⟩ := readFile_eq_ok_iff.1 hread
  refine readFile_eq_ok_iff.2 ⟨(hgrows.fault?_eq p).trans hfault, hslash, l, hl.of_grows hgrows, ?_⟩
  rw [hsame l hl, hfile]

/-! ### Paths that end in a name -/

section
variable {d d' : Disk} {p : Path} {name : String} (hne : name ≠ "") (hslash : '/' ∉ name.toList)
include hne hslash

/-- A path that ends in a name leads to what has this name, in the directory that is
entered by what stands in front of it. -/
theorem leads_join_iff (hname : isName name = true) {l : Location} :
    d.Leads (p.join name) l ↔ ∃ into, d.Enters p into ∧ d.tooLong name = false ∧
      d.find? (into ++ [name]) ≠ none ∧ into ++ [name] = l := by
  rw [Leads, p.parts_join hne hslash, follow_append]
  constructor
  · intro h
    cases hinto : d.follow [] p.parts with
    | error fault =>
      rw [hinto] at h
      cases h
    | ok into =>
      rw [hinto] at h
      obtain ⟨hdirectory, hrest⟩ := (follow_name_iff hname).1 h
      exact ⟨into, ⟨hinto, hdirectory⟩, hrest⟩
  · intro h
    obtain ⟨into, ⟨hinto, hdirectory⟩, hrest⟩ := h
    rw [show d.follow [] p.parts = .ok into from hinto]
    exact (follow_name_iff hname).2 ⟨hdirectory, hrest⟩

/-- Such a path names what has this name in the directory. -/
theorem names_join_iff {into : Location} {last : String} : d.Names (p.join name) into last ↔
    d.fault? (p.join name) = none ∧ d.Enters p into ∧ isName name = true ∧ d.tooLong name = false ∧
      name = last := by
  have hparts := p.parts_join hne hslash
  constructor
  · intro h
    have hleads := h.leads
    have hlast := h.parts
    rw [hparts, List.dropLast_concat] at hleads hlast
    obtain rfl : name = last := List.singleton_inj.1 (List.append_cancel_left hlast)
    exact ⟨h.fault, ⟨hleads, h.directory⟩, h.isName, h.short, rfl⟩
  · intro h
    obtain ⟨hfault, ⟨hleads, hdirectory⟩, hname, hshort, rfl⟩ := h
    refine ⟨hfault, ?_, ?_, hdirectory, hname, hshort⟩
    · rw [hparts, List.dropLast_concat]
    · rw [hparts, List.dropLast_concat]
      exact hleads

/-- A file that is written at such a path is put in the directory under its name. -/
theorem writeFile_join_iff {content : Bytes} : d.writeFile (p.join name) content = .ok d' ↔
    d.fault? (p.join name) = none ∧ isName name = true ∧ d.tooLong name = false ∧
      ∃ into, d.Enters p into ∧ d.find? (into ++ [name]) ≠ some .directory ∧
        d.put (into ++ [name]) (.file content) = d' := by
  rw [writeFile_eq_ok_iff]
  constructor
  · intro h
    obtain ⟨into, last, hnames, -, hfree, hput⟩ := h
    obtain ⟨hfault, hinto, hname, hshort, rfl⟩ := (names_join_iff hne hslash).1 hnames
    exact ⟨hfault, hname, hshort, into, hinto, hfree, hput⟩
  · intro h
    obtain ⟨hfault, hname, hshort, into, hinto, hfree, hput⟩ := h
    exact ⟨into, name, (names_join_iff hne hslash).2 ⟨hfault, hinto, hname, hshort, rfl⟩,
      p.endsInSlash_join hne hslash, hfree, hput⟩

end

end ClassicIcons.Disk
