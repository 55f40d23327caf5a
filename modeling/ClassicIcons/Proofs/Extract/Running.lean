import ClassicIcons.Extract.Basic
import ClassicIcons.Proofs.Archive.Icons
import ClassicIcons.Proofs.Disk.System
import ClassicIcons.Proofs.Icns.Conversion

/-! How an extraction runs.

The loop over the items of an archive creates files one after another (`Created`), for all
its icons or for the first of them, up to one that is refused (`writeItems_run`). The
whole extraction does no more: it reads the archive, asks for the directory, and goes
through that loop (`Run`). So it is on any system, whatever becomes of the files there;
and the extraction ends well just if it is refused nothing (`unrefused_iff`). -/
namespace ClassicIcons.Extract
open Archive (Error Icon Item)
open Disk (Fault Path Storage)

/-- An icon with the path of its file. -/
def fileOf (output : Path) (stem : String) (i : Icon) : Path × Icon := (target output stem i, i)

@[simp] theorem fileOf_fst (output : Path) (stem : String) (i : Icon) :
    (fileOf output stem i).1 = target output stem i := by
  rw [fileOf]

theorem map_fst_fileOf (output : Path) (stem : String) (icons : List Icon) :
    (icons.map (fileOf output stem)).map Prod.fst = icons.map (target output stem) := by
  simp

/-! ### What is told -/

/-- What is told about an item, at the levels that are shown. -/
def line (output : Path) (stem : String) (item : Item) : Log.Entry :=
  match item.result with
  | .ok icon => info ("... " ++ (output.join (fileName stem item.index icon.name)).text)
  | .error e => warn ("skipping icon " ++ toString item.index ++ ": " ++ e.message)

/-- The icons among the items, each with the path of its file. -/
def files (output : Path) (stem : String) (items : List Item) : List (Path × Icon) :=
  items.filterMap fun item =>
    item.icon?.map fun icon => (output.join (fileName stem item.index icon.name), icon)

theorem files_eq {output : Path} {stem : String} {items : List Item}
    (hindex : ∀ item ∈ items, ∀ icon, item.icon? = some icon → icon.index = item.index) :
    files output stem items = (items.filterMap Item.icon?).map (fileOf output stem) := by
  induction items with
  | nil => rfl
  | cons item items ih =>
    have ih := ih fun other hother => hindex other (List.mem_cons_of_mem item hother)
    unfold files at ih ⊢
    cases hicon : item.icon? with
    | none =>
      rw [List.filterMap_cons_none hicon, ← ih]
      exact List.filterMap_cons_none (by rw [hicon]; rfl)
    | some icon =>
      rw [List.filterMap_cons_some hicon, List.map_cons, ← ih, fileOf, target,
        hindex item (List.mem_cons_self ..) icon hicon]
      exact List.filterMap_cons_some (by rw [hicon]; rfl)

/-- The entries of a log that are shown. -/
def shown (log : List Log.Entry) : List Log.Entry := log.filter Log.Threshold.default.shows

theorem shown_append (log more : List Log.Entry) : shown (log ++ more) = shown log ++ shown more :=
  List.filter_append ..

/-- Where a record was found is not shown. -/
theorem shown_spanLog (item : Item) : shown (spanLog item) = [] := by
  unfold spanLog
  split <;> rfl

/-! ### Rows of files -/

section
variable {σ : Type} [Storage (StateM σ)] {s mid s' : σ} {output : Path} {stem : String}

/-- The files of the icons are created, one after another. -/
inductive Created (output : Path) (stem : String) : List Icon → σ → σ → Prop
  | nil (s : σ) : Created output stem [] s s
  | cons {i : Icon} {icons : List Icon} {s mid s' : σ}
      (hfirst : Storage.writeFile (m := StateM σ) (target output stem i) (Icns.Family.ofIcon i).bytes s =
        (.ok (), mid))
      (hrest : Created output stem icons mid s') : Created output stem (i :: icons) s s'

/-- The file of the icon is refused. -/
def Refuses (output : Path) (stem : String) (i : Icon) (fault : Fault) (s s' : σ) : Prop :=
  Storage.writeFile (m := StateM σ) (target output stem i) (Icns.Family.ofIcon i).bytes s = (.error fault, s')

/-- Where all files are created none is refused. -/
theorem Created.not_refuses {icons : List Icon} (h : Created output stem icons s s') {k : Nat} {icon : Icon}
    (hicon : icons[k]? = some icon) (hbefore : Created output stem (icons.take k) s mid) {fault : Fault}
    {last : σ} : ¬Refuses output stem icon fault mid last := by
  intro hrefuses
  induction h generalizing k with
  | nil => cases hicon
  | @cons i icons s next s' hfirst hrest ih =>
    cases k with
    | zero =>
      cases hicon
      cases hbefore
      rw [Refuses, hfirst] at hrefuses
      cases hrefuses
    | succ k =>
      rw [List.take_succ_cons] at hbefore
      cases hbefore with
      | cons hfirst' hrest' =>
        rw [hfirst] at hfirst'
        cases hfirst'
        exact ih hicon hrest'

theorem Created.unique {icons : List Icon} (h : Created output stem icons s mid)
    (h' : Created output stem icons s s') : mid = s' := by
  induction h with
  | nil =>
    cases h'
    rfl
  | cons hfirst _ ih =>
    cases h' with
    | cons hfirst' hrest' =>
      rw [hfirst] at hfirst'
      cases hfirst'
      exact ih hrest'

/-- An icon is written, unless its file is refused. -/
theorem writeIcon_run {i : Icon} {result : Except Error Unit}
    (h : writeIcon (m := StateM σ) (target output stem i) i s = (result, s')) :
    (result = .ok () ∧ Storage.writeFile (m := StateM σ) (target output stem i) (Icns.Family.ofIcon i).bytes s =
        (.ok (), s')) ∨
      ∃ fault, result = .error (.system fault) ∧ Refuses output stem i fault s s' := by
  rw [writeIcon, (Icns.Family.read_ofIcon i).1] at h
  obtain ⟨written, mid, hwrite, h⟩ := Disk.bind_eq_iff.1 h
  split at h
  · obtain ⟨rfl, rfl⟩ := Disk.pure_eq_iff.1 h
    exact .inl ⟨rfl, hwrite⟩
  · obtain ⟨rfl, rfl⟩ := Disk.pure_eq_iff.1 h
    exact .inr ⟨_, rfl, hwrite⟩

/-! ### The loop -/

/-- How the loop ends. -/
inductive Ends (output : Path) (stem : String) (items : List Item) (s s' : σ) : Report → Prop
  /-- All icons are written, all faults are skipped, and each item has its line. -/
  | through {log : List Log.Entry} (hlog : shown log = items.map (line output stem))
      (hcreated : Created output stem (items.filterMap Item.icon?) s s') :
      Ends output stem items s s'
        ⟨log, .ok ⟨(items.filterMap Item.icon?).map (target output stem), items.filterMap Item.fault?⟩⟩
  /-- One icon is refused, after those before it are written. -/
  | refused {log : List Log.Entry} {fault : Fault} {k : Nat} {icon : Icon} {mid : σ}
      (hicon : (items.filterMap Item.icon?)[k]? = some icon)
      (hcreated : Created output stem ((items.filterMap Item.icon?).take k) s mid)
      (hrefuses : Refuses output stem icon fault mid s') :
      Ends output stem items s s' ⟨log, .error (.system fault)⟩

/-- The first file that is refused is the end. -/
theorem Ends.of_refuses {items : List Item} {report : Report} (h : Ends output stem items s s' report)
    {k : Nat} {icon : Icon} (hicon : (items.filterMap Item.icon?)[k]? = some icon)
    (hcreated : Created output stem ((items.filterMap Item.icon?).take k) s mid) {fault : Fault} {last : σ}
    (hrefuses : Refuses output stem icon fault mid last) :
    report.outcome = .error (.system fault) ∧ s' = last := by
  cases h with
  | through _ hall => exact absurd hrefuses (hall.not_refuses hicon hcreated)
  | @refused _ _ j _ _ hicon' hcreated' hrefuses' =>
    rcases Nat.lt_trichotomy k j with hlt | rfl | hgt
    · refine absurd hrefuses (hcreated'.not_refuses ((List.getElem?_take_of_lt hlt).trans hicon) ?_)
      rwa [List.take_take, Nat.min_eq_left (Nat.le_of_lt hlt)]
    · rw [hicon] at hicon'
      cases hicon'
      obtain rfl := hcreated.unique hcreated'
      rw [Refuses, hrefuses] at hrefuses'
      cases hrefuses'
      exact ⟨rfl, rfl⟩
    · refine absurd hrefuses' (hcreated.not_refuses ((List.getElem?_take_of_lt hgt).trans hicon') ?_)
      rwa [List.take_take, Nat.min_eq_left (Nat.le_of_lt hgt)]

/-- A record that is skipped changes nothing. -/
theorem Ends.skip {item : Item} {e : Error} (he : item.result = .error e) {items : List Item}
    {report : Report} (h : Ends output stem items s s' report) :
    Ends output stem (item :: items) s s'
      ((report.addSkipped item.index e).after (spanLog item ++ [skipLog item e])) := by
  have hicon : item.icon? = none := by rw [Item.icon?, he]
  have hfault : item.fault? = some (item.index, e) := by rw [Item.fault?, he]
  cases h with
  | @through log hlog hcreated =>
    have hshown : shown ((spanLog item ++ [skipLog item e]) ++ log) =
        (item :: items).map (line output stem) := by
      rw [shown_append, shown_append, shown_spanLog, hlog, List.map_cons, line, he]
      rfl
    rw [← List.filterMap_cons_none hicon] at hcreated
    have hends := Ends.through hshown hcreated
    rwa [List.filterMap_cons_none hicon, List.filterMap_cons_some hfault] at hends
  | refused hlast hcreated hrefuses =>
    rw [← List.filterMap_cons_none hicon] at hlast hcreated
    exact .refused hlast hcreated hrefuses

/-- An icon is written before the others. -/
theorem Ends.write {item : Item} {icon : Icon} (hicon : item.icon? = some icon)
    (hindex : icon.index = item.index) {items : List Item} {report : Report}
    (hfirst : Storage.writeFile (m := StateM σ) (target output stem icon) (Icns.Family.ofIcon icon).bytes s =
      (.ok (), mid))
    (h : Ends output stem items mid s' report) :
    Ends output stem (item :: items) s s'
      ((report.addWritten (target output stem icon)).after
        (spanLog item ++ [writeLog (target output stem icon)])) := by
  have hresult := Item.icon?_eq_some_iff.1 hicon
  have hfault : item.fault? = none := by rw [Item.fault?, hresult]
  have hicons : (item :: items).filterMap Item.icon? = icon :: items.filterMap Item.icon? :=
    List.filterMap_cons_some hicon
  cases h with
  | @through log hlog hcreated =>
    have hshown : shown ((spanLog item ++ [writeLog (target output stem icon)]) ++ log) =
        (item :: items).map (line output stem) := by
      rw [shown_append, shown_append, shown_spanLog, hlog, List.map_cons, line, hresult, target, hindex]
      rfl
    have hall := Created.cons hfirst hcreated
    rw [← hicons] at hall
    have hends := Ends.through hshown hall
    rwa [hicons, List.filterMap_cons_none hfault] at hends
  | @refused log fault k last refusing hlast hcreated hrefuses =>
    exact .refused (k := k + 1) (by rw [hicons]; exact hlast)
      (by rw [hicons]; exact .cons hfirst hcreated) hrefuses

/-- **The loop creates files in order**, all of them, or the first of them up to one that is
refused. -/
theorem writeItems_run {items : List Item} {report : Report}
    (hindex : ∀ item ∈ items, ∀ icon, item.icon? = some icon → icon.index = item.index)
    (h : writeItems (m := StateM σ) output stem items s = (report, s')) :
    Ends output stem items s s' report := by
  induction items generalizing s report with
  | nil =>
    obtain ⟨rfl, rfl⟩ := Disk.pure_eq_iff.1 h
    exact .through rfl (.nil _)
  | cons item rest ih =>
    have ih := fun {s report} => @ih s report fun item hitem => hindex item (List.mem_cons_of_mem _ hitem)
    cases hresult : item.result with
    | error e =>
      rw [writeItems, hresult] at h
      obtain ⟨more, mid, hrest, h⟩ := Disk.bind_eq_iff.1 h
      obtain ⟨rfl, rfl⟩ := Disk.pure_eq_iff.1 h
      exact (ih hrest).skip hresult
    | ok icon =>
      rw [writeItems, hresult] at h
      have hicon := Item.icon?_eq_some_iff.2 hresult
      obtain ⟨written, mid, hwrite, h⟩ := Disk.bind_eq_iff.1 h
      rcases writeIcon_run hwrite with ⟨rfl, hfirst⟩ | ⟨fault, rfl, hrefuses⟩
      · obtain ⟨more, last, hrest, h⟩ := Disk.bind_eq_iff.1 h
        obtain ⟨rfl, rfl⟩ := Disk.pure_eq_iff.1 h
        exact (ih hrest).write hicon (hindex item (List.mem_cons_self ..) icon hicon) hfirst
      · obtain ⟨rfl, rfl⟩ := Disk.pure_eq_iff.1 h
        refine .refused (k := 0) ?_ (.nil _) hrefuses
        rw [List.filterMap_cons_some hicon]
        rfl

end

/-! ### Whole extractions -/

section
variable [Zlib.Decoder]

theorem index_of_items (a : Archive) :
    ∀ item ∈ a.items, ∀ icon, item.icon? = some icon → icon.index = item.index :=
  fun _ hitem _ hicon => Archive.index_of_icon? hitem hicon

theorem files_items (output : Path) (stem : String) (a : Archive) :
    files output stem a.items = a.icons.map (fileOf output stem) :=
  files_eq (index_of_items a)

variable {σ : Type} [Storage (StateM σ)] {s s' : σ} {input output : Path}

/-- What can become of an extraction. -/
inductive Run (input output : Path) (s s' : σ) : Report → Prop
  | unread {fault : Fault} (hread : Storage.readFile (m := StateM σ) input s = (.error fault, s')) :
      Run input output s s' (.failed (.system fault))
  | refused {data : Bytes} {e : Error} (hread : Storage.readFile (m := StateM σ) input s = (.ok data, s'))
      (hparse : Archive.parse data = .error e) : Run input output s s' (.failed e)
  | homeless {data : Bytes} {a : Archive} {s₁ : σ} {fault : Fault}
      (hread : Storage.readFile (m := StateM σ) input s = (.ok data, s₁)) (hparse : Archive.parse data = .ok a)
      (hmake : Storage.makeDirectories (m := StateM σ) output s₁ = (.error fault, s')) :
      Run input output s s' ((Report.failed (.system fault)).after (headerLog input a.header))
  | looped {data : Bytes} {a : Archive} {s₁ s₂ : σ} {report : Report}
      (hread : Storage.readFile (m := StateM σ) input s = (.ok data, s₁)) (hparse : Archive.parse data = .ok a)
      (hmake : Storage.makeDirectories (m := StateM σ) output s₁ = (.ok (), s₂))
      (hends : Ends output (stemOf input) a.items s₂ s' report) :
      Run input output s s' (report.after (headerLog input a.header))

theorem extract_run {report : Report} (h : extract (m := StateM σ) input output s = (report, s')) :
    Run input output s s' report := by
  obtain ⟨contents, s₁, hread, h⟩ := Disk.bind_eq_iff.1 h
  cases contents with
  | error fault =>
    obtain ⟨rfl, rfl⟩ := Disk.pure_eq_iff.1 h
    exact .unread hread
  | ok data =>
    cases hparse : Archive.parse data with
    | error e =>
      simp only [hparse] at h
      obtain ⟨rfl, rfl⟩ := Disk.pure_eq_iff.1 h
      exact .refused hread hparse
    | ok a =>
      simp only [hparse] at h
      obtain ⟨made, s₂, hmake, h⟩ := Disk.bind_eq_iff.1 h
      cases made with
      | error fault =>
        obtain ⟨rfl, rfl⟩ := Disk.pure_eq_iff.1 h
        exact .homeless hread hparse hmake
      | ok _ =>
        obtain ⟨report, s₃, hloop, h⟩ := Disk.bind_eq_iff.1 h
        obtain ⟨rfl, rfl⟩ := Disk.pure_eq_iff.1 h
        exact .looped hread hparse hmake (writeItems_run (index_of_items a) hloop)

theorem run_extract (input output : Path) (s : σ) :
    Run input output s (extract (m := StateM σ) input output s).2
      (extract (m := StateM σ) input output s).1 :=
  extract_run (Prod.eta (extract (m := StateM σ) input output s)).symm

/-- With an archive to extract, it ends at the directory or in the loop. -/
theorem Run.of_archive {data : Bytes} {a : Archive} {s₁ : σ} {report : Report} (h : Run input output s s' report)
    (hread : Storage.readFile (m := StateM σ) input s = (.ok data, s₁)) (hparse : Archive.parse data = .ok a) :
    (∃ fault, Storage.makeDirectories (m := StateM σ) output s₁ = (.error fault, s') ∧
      report.outcome = .error (.system fault)) ∨
    ∃ s₂ ended, Storage.makeDirectories (m := StateM σ) output s₁ = (.ok (), s₂) ∧
      Ends output (stemOf input) a.items s₂ s' ended ∧ report.outcome = ended.outcome := by
  cases h with
  | unread hread' =>
    rw [hread] at hread'
    cases hread'
  | refused hread' hparse' =>
    rw [hread] at hread'
    cases hread'
    rw [hparse] at hparse'
    cases hparse'
  | homeless hread' hparse' hmake =>
    rw [hread] at hread'
    cases hread'
    exact .inl ⟨_, hmake, rfl⟩
  | looped hread' hparse' hmake hends =>
    rw [hread] at hread'
    cases hread'
    rw [hparse] at hparse'
    cases hparse'
    exact .inr ⟨_, _, hmake, hends, rfl⟩

/-- An extraction that gets to its loop. -/
theorem extract_eq {data : Bytes} {a : Archive} {s₁ s₂ : σ} {report : Report}
    (hread : Storage.readFile (m := StateM σ) input s = (.ok data, s₁)) (hparse : Archive.parse data = .ok a)
    (hmake : Storage.makeDirectories (m := StateM σ) output s₁ = (.ok (), s₂))
    (hloop : writeItems (m := StateM σ) output (stemOf input) a.items s₂ = (report, s')) :
    extract (m := StateM σ) input output s = (report.after (headerLog input a.header), s') := by
  refine Disk.bind_eq_iff.2 ⟨_, _, hread, ?_⟩
  simp only [hparse]
  exact Disk.bind_eq_iff.2 ⟨_, _, hmake, Disk.bind_eq_iff.2 ⟨_, _, hloop, rfl⟩⟩

/-- Once all files are created, the loop is through. -/
theorem extract_of_created {data : Bytes} {a : Archive} {s₁ s₂ s₃ : σ}
    (hread : Storage.readFile (m := StateM σ) input s = (.ok data, s₁)) (hparse : Archive.parse data = .ok a)
    (hmake : Storage.makeDirectories (m := StateM σ) output s₁ = (.ok (), s₂))
    (hcreated : Created output (stemOf input) a.icons s₂ s₃) :
    ∃ summary, (extract (m := StateM σ) input output s).1.outcome = .ok summary ∧
      summary.written = (files output (stemOf input) a.items).map Prod.fst ∧
      Created output (stemOf input) a.icons s₂ (extract (m := StateM σ) input output s).2 := by
  obtain ⟨report, last, hloop⟩ : ∃ report last,
    writeItems (m := StateM σ) output (stemOf input) a.items s₂ = (report, last) := ⟨_, _, rfl⟩
  rw [extract_eq hread hparse hmake hloop]
  cases writeItems_run (index_of_items a) hloop with
  | through _ hall =>
    refine ⟨_, rfl, ?_, hall⟩
    rw [files_items, map_fst_fileOf]
    rfl
  | refused hicon hbefore hrefuses => exact absurd hrefuses (hcreated.not_refuses hicon hbefore)

/-- At the first file that is refused, the extraction fails. -/
theorem extract_of_refuses {data : Bytes} {a : Archive} {s₁ s₂ mid : σ}
    (hread : Storage.readFile (m := StateM σ) input s = (.ok data, s₁)) (hparse : Archive.parse data = .ok a)
    (hmake : Storage.makeDirectories (m := StateM σ) output s₁ = (.ok (), s₂)) {k : Nat} {icon : Icon}
    (hicon : a.icons[k]? = some icon) (hcreated : Created output (stemOf input) (a.icons.take k) s₂ mid)
    {fault : Fault} (hrefuses : Refuses output (stemOf input) icon fault mid s') :
    ∃ log, extract (m := StateM σ) input output s = (⟨log, .error (.system fault)⟩, s') := by
  obtain ⟨⟨log, outcome⟩, last, hloop⟩ : ∃ report last,
    writeItems (m := StateM σ) output (stemOf input) a.items s₂ = (report, last) := ⟨_, _, rfl⟩
  obtain ⟨rfl, rfl⟩ := (writeItems_run (index_of_items a) hloop).of_refuses hicon hcreated hrefuses
  exact ⟨_, extract_eq hread hparse hmake hloop⟩

/-- If there is an archive to extract, the directory for its files is made, and each of the
files is created. -/
def Unrefused (input output : Path) (s : σ) : Prop :=
  ∀ data s₁ a, Storage.readFile (m := StateM σ) input s = (.ok data, s₁) → Archive.parse data = .ok a →
    ∃ s₂ s₃, Storage.makeDirectories (m := StateM σ) output s₁ = (.ok (), s₂) ∧
      Created output (stemOf input) a.icons s₂ s₃

/-- **An extraction ends well just if it is refused nothing.** -/
theorem unrefused_iff {data : Bytes} {a : Archive}
    (hread : (Storage.readFile (m := StateM σ) input s).1 = .ok data) (hparse : Archive.parse data = .ok a) :
    Unrefused input output s ↔
      ∃ summary, (extract (m := StateM σ) input output s).1.outcome = .ok summary := by
  constructor
  · intro h
    have hread : Storage.readFile (m := StateM σ) input s =
        (.ok data, (Storage.readFile (m := StateM σ) input s).2) := Prod.ext hread rfl
    obtain ⟨s₂, s₃, hmake, hcreated⟩ := h data _ a hread hparse
    obtain ⟨summary, hok, -⟩ := extract_of_created hread hparse hmake hcreated
    exact ⟨summary, hok⟩
  · intro h data' s₁ a' hread' hparse'
    obtain ⟨summary, hok⟩ := h
    rcases (run_extract input output s).of_archive hread' hparse' with
      ⟨fault, -, hfault⟩ | ⟨s₂, ended, hmake, hends, hended⟩
    · rw [hok] at hfault
      cases hfault
    · rw [hok] at hended
      cases hends with
      | refused => cases hended
      | through _ hcreated => exact ⟨_, _, hmake, hcreated⟩

end

end ClassicIcons.Extract
