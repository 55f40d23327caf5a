import ClassicIcons.Proofs.Extract.Completion

/-! What an extraction leaves behind.

When an extraction has ended well, every item of the archive is in a file or on the list of
those that were skipped, the log says so line by line, and nothing else has changed
(`extract_done`). So it is on every system with a disk. -/
namespace ClassicIcons.Extract
open Archive (Error Icon Item)
open Disk (Path Storage System)

/-! ### The log -/

/-- The texts of a header, each with its label. -/
def texts (h : Archive.Header) : List (String × String) :=
  match h.edition.extended? with
  | none => []
  | some x => [("copyright", x.copyright), ("comment", x.comment)]

/-- What is told before anything is written: what the archive is, and those of its texts
that are not empty. -/
def heading (input : Path) (h : Archive.Header) : List Log.Entry :=
  info (input.text ++ ": Icon Archiver version " ++ toString h.version.number.toNat ++
      " file with " ++ toString h.iconCount.toNat ++ " icon(s)") ::
    ((texts h).filter fun t => t.2 ≠ "").map fun t => info (t.1 ++ ": " ++ t.2)

theorem shown_textLog (label text : String) : shown (textLog label text) = textLog label text := by
  unfold textLog
  split <;> rfl

theorem textLog_eq (label text : String) : textLog label text =
    ([(label, text)].filter fun t => t.2 ≠ "").map fun t => info (t.1 ++ ": " ++ t.2) := by
  by_cases hempty : text = "" <;> simp [textLog, hempty]

theorem shown_headerLog (input : Path) (h : Archive.Header) :
    shown (headerLog input h) = heading input h := by
  have hinfo (message : String) (log : List Log.Entry) :
      shown (info message :: log) = info message :: shown log := List.filter_cons_of_pos rfl
  rw [headerLog, hinfo, heading, texts]
  cases h.edition with
  | first => rfl
  | second x =>
    rw [shown_append, shown_textLog, shown_textLog, textLog_eq, textLog_eq, ← List.map_append,
      ← List.filter_append]
    rfl

/-! ### Written or skipped -/

/-- The paths of files are apart if their numbers are. -/
theorem index_of_join_eq {output : Path} {stem : String} (hstem : '/' ∉ stem.toList) {i j : Nat}
    {name other : String} (h : output.join (fileName stem i name) = output.join (fileName stem j other)) :
    i = j := by
  have hparts := congrArg Path.parts h
  rw [output.parts_join (fileName_ne_empty stem i name) (slash_not_mem_fileName hstem i name),
    output.parts_join (fileName_ne_empty stem j other) (slash_not_mem_fileName hstem j other)] at hparts
  exact index_of_fileName_eq (List.singleton_inj.1 (List.append_cancel_left hparts))

theorem mem_files_iff {output : Path} {stem : String} {items : List Item} {p : Path} :
    p ∈ (files output stem items).map Prod.fst ↔ ∃ item ∈ items, ∃ icon, item.result = .ok icon ∧
      output.join (fileName stem item.index icon.name) = p := by
  simp only [files, List.mem_map, List.mem_filterMap, Option.map_eq_some_iff, Item.icon?_eq_some_iff]
  constructor
  · intro h
    obtain ⟨_, ⟨item, hitem, icon, hicon, rfl⟩, rfl⟩ := h
    exact ⟨item, hitem, icon, hicon, rfl⟩
  · intro h
    obtain ⟨item, hitem, icon, hicon, rfl⟩ := h
    exact ⟨_, ⟨item, hitem, icon, hicon, rfl⟩, rfl⟩

/-! ### Extractions that end well -/

variable {σ : Type} [Storage (StateM σ)] [System σ] {s s' : σ} {input output : Path}

/-- What is read is what the disk holds. -/
theorem readFile_of_run {data : Bytes} (h : (Storage.readFile (m := StateM σ) input s).1 = .ok data) :
    (System.disk s).readFile input = .ok data :=
  (System.reads (Prod.eta (Storage.readFile (m := StateM σ) input s)).symm).2 data h

/-- Up to the loop, nothing is done but to make directories. -/
theorem made_of_run {s₁ : σ} {contents : Except Disk.Fault Bytes} {result : Except Disk.Fault Unit}
    (hread : Storage.readFile (m := StateM σ) input s = (contents, s₁))
    (hmake : Storage.makeDirectories (m := StateM σ) output s₁ = (result, s')) :
    Disk.Made (output :: output.above) (System.disk s) (System.disk s') ∧
      (result = .ok () → ∃ l, (System.disk s').Enters output l) := by
  rw [← (System.reads hread).1]
  exact System.makeDirectories_made hmake

section
variable [Zlib.Decoder]

/-- Every item is either written or skipped. -/
theorem parted (output : Path) {a : Archive} {stem : String} (hstem : '/' ∉ stem.toList) {item : Item}
    (hitem : item ∈ a.items) :
    (∃ icon, item.result = .ok icon ∧
      output.join (fileName stem item.index icon.name) ∈ (files output stem a.items).map Prod.fst ∧
      ∀ e, (item.index, e) ∉ a.items.filterMap Item.fault?) ∨
    ∃ e, item.result = .error e ∧ (item.index, e) ∈ a.items.filterMap Item.fault? ∧
      ∀ name, output.join (fileName stem item.index name) ∉ (files output stem a.items).map Prod.fst := by
  have hfault : ∀ e, (item.index, e) ∈ a.items.filterMap Item.fault? → item.result = .error e := by
    intro e he
    obtain ⟨other, hother, hfault⟩ := List.mem_filterMap.1 he
    obtain ⟨hresult, hindex⟩ := Item.fault?_eq_some_iff.1 hfault
    rwa [Archive.eq_of_index_eq hitem hother hindex]
  cases hresult : item.result with
  | ok icon =>
    refine .inl ⟨icon, rfl, mem_files_iff.2 ⟨item, hitem, icon, hresult, rfl⟩, fun e he => ?_⟩
    rw [hfault e he] at hresult
    cases hresult
  | error e =>
    refine .inr ⟨e, rfl, List.mem_filterMap.2 ⟨item, hitem, Item.fault?_eq_some_iff.2 ⟨hresult, rfl⟩⟩, ?_⟩
    intro name hmem
    obtain ⟨other, hother, icon, hicon, heq⟩ := mem_files_iff.1 hmem
    obtain rfl := Archive.eq_of_index_eq hother hitem (index_of_join_eq hstem heq)
    rw [hicon] at hresult
    cases hresult

/-- An extraction that ended well. -/
structure Done (input output : Path) (a : Archive) (d d' : Disk) (log : List Log.Entry)
    (summary : Summary) : Prop where
  written : summary.written = (files output (stemOf input) a.items).map Prod.fst
  skipped : summary.skipped = a.items.filterMap Item.fault?
  /-- Every item is in one of the two lists, and not in the other. -/
  parted : ∀ item ∈ a.items,
    (∃ icon, item.result = .ok icon ∧
      output.join (fileName (stemOf input) item.index icon.name) ∈ summary.written ∧
      ∀ e, (item.index, e) ∉ summary.skipped) ∨
    ∃ e, item.result = .error e ∧ (item.index, e) ∈ summary.skipped ∧
      ∀ name, output.join (fileName (stemOf input) item.index name) ∉ summary.written
  extracted : Extracted output (files output (stemOf input) a.items) d d'
  home : ∃ l, d'.Enters output l
  kept : d'.readFile input = d.readFile input
  log : shown log = heading input a.header ++ a.items.map (line output (stemOf input))

theorem Run.done {report : Report} {summary : Summary} (h : Run input output s s' report)
    (hok : report.outcome = .ok summary) :
    ∃ data a, (System.disk s).readFile input = .ok data ∧ Archive.parse data = .ok a ∧
      Done input output a (System.disk s) (System.disk s') report.log summary := by
  cases h with
  | unread | refused | homeless => cases hok
  | @looped data a s₁ s₂ report hread hparse hmake hends =>
    cases hends with
    | refused => cases hok
    | through hlog hcreated =>
      cases hok
      have hstem := slash_not_mem_stemOf input
      have hwrites := hcreated.writes
      obtain ⟨hmade, hhome⟩ := made_of_run hread hmake
      have hwritten : a.icons.map (target output (stemOf input)) =
          (files output (stemOf input) a.items).map Prod.fst := by rw [files_items, map_fst_fileOf]
      have hdata := (System.reads hread).2 data rfl
      refine ⟨data, a, hdata, hparse, hwritten, rfl, ?_, ?_, ?_, ?_, ?_⟩
      · intro item hitem
        have hparted := parted output hstem hitem
        rw [← hwritten] at hparted
        exact hparted
      · rw [files_items]
        exact hwrites.extracted hstem hmade (Archive.nodup_index_icons a)
      · obtain ⟨l, hl⟩ := hhome rfl
        exact ⟨l, hl.of_grows (hwrites.grows hstem)⟩
      · rw [hwrites.readFile_input hdata hmade, hdata]
      · show shown (headerLog input a.header ++ _) = _
        rw [shown_append, shown_headerLog, hlog]

/-- **An extraction that ends well has extracted what there is, and done nothing else.** -/
theorem extract_done {summary : Summary}
    (h : (extract (m := StateM σ) input output s).1.outcome = .ok summary) :
    ∃ data a, (System.disk s).readFile input = .ok data ∧ Archive.parse data = .ok a ∧
      Done input output a (System.disk s) (System.disk (extract (m := StateM σ) input output s).2)
        (extract (m := StateM σ) input output s).1.log summary :=
  (run_extract input output s).done h

end

attribute [local instance] Zlib.inflater

theorem extract_done_of_damaged :
    ∃ summary data a, (extract (m := StateM Disk) ⟨"a"⟩ ⟨"out"⟩ (alone damaged)).1.outcome = .ok summary ∧
      (alone damaged).readFile ⟨"a"⟩ = .ok data ∧ Archive.parse data = .ok a ∧
      Done ⟨"a"⟩ ⟨"out"⟩ a (alone damaged) (extract (m := StateM Disk) ⟨"a"⟩ ⟨"out"⟩ (alone damaged)).2
        (extract (m := StateM Disk) ⟨"a"⟩ ⟨"out"⟩ (alone damaged)).1.log summary := by
  obtain ⟨a, hparse, hshort⟩ := exists_damaged
  obtain ⟨s₂, hcreated⟩ := exists_created_of_empty (enters_opened damaged)
    (empty_opened damaged (enters_opened damaged)) (accepts_opened damaged) hshort
  obtain ⟨summary, hok, -⟩ := extract_of_created (readFile_alone damaged) hparse
    (makeDirectories_alone damaged) hcreated
  obtain ⟨data, a, hread, hparse, hdone⟩ := extract_done hok
  rw [Disk.disk_self] at hread
  rw [Disk.disk_self, Disk.disk_self] at hdone
  exact ⟨summary, data, a, hok, hread, hparse, hdone⟩

end ClassicIcons.Extract
