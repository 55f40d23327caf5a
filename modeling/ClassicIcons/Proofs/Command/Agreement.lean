import ClassicIcons.Command.Run
import ClassicIcons.Proofs.Command.Listing
import ClassicIcons.Proofs.Extract.Failure

/-! Listing and extracting.

A listing and an extraction go over the same records, each in its own way. They end alike
just if the system gives the extraction what it asks for; and then the lines of the
listing are the items of the extraction: a line says why a record is skipped, or it shows
what the file of its icon holds (`listing_agrees`). -/
namespace ClassicIcons.Command
open Archive (Error Icon Item)
open Disk (Fault Path Storage System)
open Extract (Summary stemOf fileName defaultOutput)
open Text (OneLine)

/-! ### Arguments -/

/-- The argument is a path: it is neither empty nor an option. -/
def IsPath (argument : String) : Prop :=
  argument ≠ "" ∧ (argument.toList.head? = some '-' → argument = "-")

section
variable {argument : String} (h : IsPath argument)
include h

theorem tokens_path (rest : List String) : tokens (argument :: rest) = .path argument :: tokens rest := by
  have hdash : ∀ c letters, argument.toList ≠ '-' :: c :: letters := by
    intro c letters hlist
    have hargument := h.2 (by rw [hlist]; rfl)
    rw [hargument] at hlist
    cases hlist
  rw [tokens]
  split
  case h_4 => rfl
  all_goals
    rename_i hlist
    exact absurd hlist (hdash _ _)

theorem emptyPath?_path (list : Bool) : Partial.emptyPath? ⟨list, [argument]⟩ = none := by
  unfold Partial.emptyPath?
  split
  · rename_i hempty
    exact absurd (List.singleton_inj.1 hempty) h.1
  · rename_i hempty
    cases hempty
  · rfl

theorem request_path (list : Bool) : Partial.request ⟨list, [argument]⟩ =
    if list then .ok (.list ⟨argument⟩) else .ok (.extract ⟨argument⟩ none) := by
  rw [Partial.request, emptyPath?_path h]
  rfl

theorem parse_extract : Request.parse [argument] = .ok (.extract ⟨argument⟩ none) := by
  rw [Request.parse, tokens_path h]
  exact request_path h false

theorem parse_list : Request.parse ["--list", argument] = .ok (.list ⟨argument⟩) := by
  have hlist : tokens ["--list", argument] = .flag .list :: tokens [argument] := rfl
  rw [Request.parse, hlist, tokens_path h]
  exact request_path h true

end

/-! ### Runs -/

/-- The exit status that the content of the input calls for. -/
def statusOf : Except Fault Bytes → UInt32
  | .error _ => 1
  | .ok data =>
    match Archive.parse data with
    | .error _ => 2
    | .ok _ => 0

theorem statusOf_eq_one_iff {contents : Except Fault Bytes} :
    statusOf contents = 1 ↔ ∃ fault, contents = .error fault := by
  cases contents with
  | error fault => simp [statusOf]
  | ok data => cases hparse : Archive.parse data <;> simp [statusOf, hparse]

theorem statusOf_eq_two_iff {contents : Except Fault Bytes} : statusOf contents = 2 ↔
    ∃ data e, contents = .ok data ∧ Archive.parse data = .error e ∧ e.Unsupported := by
  cases contents with
  | error fault => simp [statusOf]
  | ok data =>
    cases hparse : Archive.parse data with
    | error e => simp [statusOf, hparse, Archive.unsupported_of_parse hparse]
    | ok a => simp [statusOf, hparse]

theorem statusOf_eq_zero_iff {contents : Except Fault Bytes} :
    statusOf contents = 0 ↔ ∃ data a, contents = .ok data ∧ Archive.parse data = .ok a := by
  cases contents with
  | error fault => simp [statusOf]
  | ok data => cases hparse : Archive.parse data <;> simp [statusOf, hparse]

theorem errorStatus_of_unsupported {e : Error} (h : e.Unsupported) : errorStatus e = 2 := by
  cases h <;> rfl

section
variable [Zlib.Decoder]

/-- What a listing says of the content of its input. -/
def listed (input : Path) : Except Fault Bytes → Outcome
  | .error fault => .failed input [] (.system fault)
  | .ok data =>
    match Archive.parse data with
    | .error e => .failed input [] e
    | .ok a => ⟨0, unlines (listing a), a.items.flatMap Extract.spanLog, []⟩

theorem status_listed (input : Path) (contents : Except Fault Bytes) :
    (listed input contents).status = statusOf contents := by
  cases contents with
  | error fault => rfl
  | ok data =>
    cases hparse : Archive.parse data with
    | error e =>
      simp only [listed, statusOf, hparse]
      exact errorStatus_of_unsupported (Archive.unsupported_of_parse hparse)
    | ok a => simp only [listed, statusOf, hparse]

end

/-- What the program says of an extraction. -/
def told (input : Path) (report : Extract.Report) : Outcome :=
  match report.outcome with
  | .ok summary => ⟨0, "", report.log ++ [summaryLog summary], []⟩
  | .error e => .failed input report.log e

section
variable [Zlib.Decoder] {σ : Type} [Storage (StateM σ)] {argument : String} (h : IsPath argument)
  (threshold : Log.Threshold) {s s' : σ}
include h

/-- A listing does nothing but read, and goes by what is read. -/
theorem run_list {contents : Except Fault Bytes}
    (hread : Storage.readFile (m := StateM σ) ⟨argument⟩ s = (contents, s')) :
    ∃ log, run (m := StateM σ) ["--list", argument] threshold s =
      ({ listed ⟨argument⟩ contents with log := log }, s') := by
  have hlist : runList (m := StateM σ) ⟨argument⟩ s = (listed ⟨argument⟩ contents, s') := by
    refine Disk.bind_eq_iff.2 ⟨contents, s', hread, ?_⟩
    cases contents with
    | error fault => rfl
    | ok data => cases hparse : Archive.parse data <;> simp only [listed, hparse] <;> rfl
  rw [run, parse_list h]
  exact ⟨_, Disk.bind_eq_iff.2 ⟨_, _, hlist, rfl⟩⟩

theorem run_path {report : Extract.Report}
    (hextract : Extract.extract (m := StateM σ) ⟨argument⟩ (defaultOutput ⟨argument⟩) s = (report, s')) :
    ∃ log, run (m := StateM σ) [argument] threshold s =
      ({ told ⟨argument⟩ report with log := log }, s') := by
  have hrun : runExtract (m := StateM σ) ⟨argument⟩ none s = (told ⟨argument⟩ report, s') := by
    refine Disk.bind_eq_iff.2 ⟨report, s', hextract, ?_⟩
    cases houtcome : report.outcome <;> simp only [told, houtcome] <;> rfl
  rw [run, parse_extract h]
  exact ⟨_, Disk.bind_eq_iff.2 ⟨_, _, hrun, rfl⟩⟩

end

/-! ### Lines and files -/

/-- The file of an icon holds what the line of the icon shows. -/
structure ShownIn (line : String) (icon : Icon) (p : Path) (d : Disk) : Prop where
  kinds : kindsShown line = icon.kinds
  /-- For each kind there is the image, and there is nothing else but placeholders. -/
  file : ∃ content f, d.readFile p = .ok content ∧ Icns.Family.read content = .ok (f, []) ∧
    (∀ k ∈ kindsShown line, ∃ image e, icon.image? k = some image ∧ f.find? k = some e ∧
      e.Shows k image) ∧
    ∀ e ∈ f.elements, (∃ k ∈ kindsShown line, e.tag = k.tag) ∨
      ∃ k : Kind, k.depth = .mono ∧ k ∉ kindsShown line ∧ e = .placeholder k

theorem shownIn_of_written {item : Item} {icon : Icon} (h : item.result = .ok icon) {p : Path} {d : Disk}
    {content : Bytes} (hwrite : (Icns.Family.ofIcon icon).write = .ok content)
    (hread : d.readFile p = .ok content) : ShownIn (itemLine item) icon p d := by
  have hkinds := kindsShown_itemLine h
  obtain ⟨hbytes, hfamily⟩ := Icns.Family.read_ofIcon icon
  rw [hbytes] at hwrite
  cases hwrite
  refine ⟨hkinds, _, _, hread, hfamily, ?_⟩
  rw [hkinds]
  exact ⟨fun k hk => Icns.Family.exists_find?_ofIcon hk, fun e he => Icns.Family.mem_elements_ofIcon he⟩

theorem unlines_append (lines more : List String) : unlines (lines ++ more) = unlines lines ++ unlines more := by
  rw [unlines, List.map_append, String.join_append]
  rfl

section
variable [Zlib.Decoder]

/-- What a listing says comes true in an extraction, which has this summary and leaves this
disk behind. -/
structure Foretells (input : Path) (a : Archive) (output : String) (summary : Summary) (d : Disk) :
    Prop where
  /-- Behind the header there is a line for each item. -/
  lines : output = unlines (headerLines a.header) ++ unlines (a.items.map itemLine)
  oneLine : ∀ item ∈ a.items, OneLine (itemLine item)
  skipped : ∀ i reason, (a.items.map itemLine)[i]? = some (skipLine i reason) ↔
    ∃ e, (i, e) ∈ summary.skipped ∧ e.message = reason
  written : ∀ i item, a.items[i]? = some item → (∀ e, (i, e) ∉ summary.skipped) →
    ∃ icon, item.result = .ok icon ∧
      ShownIn (itemLine item) icon ((defaultOutput input).join (fileName (stemOf input) i icon.name)) d

theorem foretells_of_done [Zlib.Decoder.Lawful] {input : Path} {a : Archive} {d d' : Disk} {log : List Log.Entry}
    {summary : Summary} (h : Extract.Done input (defaultOutput input) a d d' log summary) :
    Foretells input a (unlines (listing a)) summary d' where
  lines := unlines_append (headerLines a.header) (a.items.map itemLine)
  oneLine _ hitem := oneLine_of_mem_items hitem
  skipped i reason := by
    simp only [h.skipped, Archive.mem_faults_iff, List.getElem?_map, Option.map_eq_some_iff]
    constructor
    · intro hline
      obtain ⟨item, hitem, hline⟩ := hline
      have hindex := Archive.index_of_getElem? hitem
      rw [← hindex] at hline
      obtain ⟨e, hresult, hreason⟩ := itemLine_eq_skipLine_iff.1 hline
      exact ⟨e, ⟨item, hitem, hresult⟩, hreason⟩
    · intro hfault
      obtain ⟨e, ⟨item, hitem, hresult⟩, hreason⟩ := hfault
      have hindex := Archive.index_of_getElem? hitem
      refine ⟨item, hitem, ?_⟩
      rw [← hindex]
      exact itemLine_eq_skipLine_iff.2 ⟨e, hresult, hreason⟩
  written i item hitem hnone := by
    cases hresult : item.result with
    | error e =>
      refine absurd ?_ (hnone e)
      rw [h.skipped]
      exact Archive.mem_faults_iff.2 ⟨item, hitem, hresult⟩
    | ok icon =>
      have hindex := Archive.index_of_getElem? hitem
      have hicon := Item.icon?_eq_some_iff.2 hresult
      have hfile : ((defaultOutput input).join (fileName (stemOf input) i icon.name), icon) ∈
          Extract.files (defaultOutput input) (stemOf input) a.items :=
        List.mem_filterMap.2 ⟨item, List.mem_of_getElem? hitem, by rw [hicon, hindex]; rfl⟩
      obtain ⟨content, hwrite, hread⟩ := h.extracted.stored _ hfile
      dsimp only at hread
      exact ⟨icon, rfl, shownIn_of_written hresult hwrite hread⟩

/-! ### Both commands -/

variable {σ : Type} [Storage (StateM σ)] [System σ] {s : σ}

/-- How a listing and an extraction compare that are given the same input on the same
system. -/
structure Agree (input : Path) (s : σ) (listing extraction : Outcome × σ) : Prop where
  /-- They end alike just if the extraction is refused nothing. -/
  status : listing.1.status = extraction.1.status ↔ Extract.Unrefused input (defaultOutput input) s
  rejected : listing.1.status = 2 ↔ ∃ data e,
    (Storage.readFile (m := StateM σ) input s).1 = .ok data ∧ Archive.parse data = .error e ∧ e.Unsupported
  unread : listing.1.status = 1 ↔ ∃ fault, (Storage.readFile (m := StateM σ) input s).1 = .error fault
  accepted : listing.1.status = 0 ↔ ∃ data a,
    (Storage.readFile (m := StateM σ) input s).1 = .ok data ∧ Archive.parse data = .ok a
  unchanged : System.disk listing.2 = System.disk s
  foretold : Extract.Unrefused input (defaultOutput input) s → ∀ data a,
    (Storage.readFile (m := StateM σ) input s).1 = .ok data → Archive.parse data = .ok a →
    ∃ summary, (Extract.extract (m := StateM σ) input (defaultOutput input) s).1.outcome = .ok summary ∧
      Foretells input a listing.1.output summary (System.disk extraction.2)

/-- An extraction has the exit status that its input calls for just if it is refused nothing. -/
theorem status_told_iff {input : Path} :
    (told input (Extract.extract (m := StateM σ) input (defaultOutput input) s).1).status =
      statusOf (Storage.readFile (m := StateM σ) input s).1 ↔
    Extract.Unrefused input (defaultOutput input) s := by
  have hrun := Extract.run_extract input (defaultOutput input) s
  cases hread : (Storage.readFile (m := StateM σ) input s).1 with
  | error fault =>
    refine iff_of_true ?_ fun data s₁ a hdata => ?_
    · simp only [told, (hrun.of_unread hread).1]
      rfl
    · rw [hdata] at hread
      cases hread
  | ok data =>
    cases hparse : Archive.parse data with
    | error e =>
      refine iff_of_true ?_ fun data' s₁ a hdata ha => ?_
      · simp only [told, (hrun.of_refused hread hparse).1, statusOf, hparse]
        exact errorStatus_of_unsupported (Archive.unsupported_of_parse hparse)
      · rw [hdata] at hread
        cases hread
        rw [hparse] at ha
        cases ha
    | ok a =>
      rw [Extract.unrefused_iff hread hparse]
      simp only [told, statusOf, hparse]
      cases houtcome : (Extract.extract (m := StateM σ) input (defaultOutput input) s).1.outcome with
      | ok summary => exact iff_of_true rfl ⟨summary, rfl⟩
      | error e =>
        -- Only the system can refuse by now, and that does not end with 0.
        obtain ⟨fault, -, rfl, -⟩ := hrun.of_error hread hparse houtcome
        refine iff_of_false (show (1 : UInt32) ≠ 0 by decide) fun h => ?_
        obtain ⟨summary, h⟩ := h
        cases h

/-- An extraction that is refused nothing does what the listing says. -/
theorem foretells_of_unrefused [Zlib.Decoder.Lawful] {input : Path}
    (hcreated : Extract.Unrefused input (defaultOutput input) s)
    {data : Bytes} {a : Archive} (hread : (Storage.readFile (m := StateM σ) input s).1 = .ok data)
    (hparse : Archive.parse data = .ok a) :
    ∃ summary, (Extract.extract (m := StateM σ) input (defaultOutput input) s).1.outcome = .ok summary ∧
      Foretells input a (listed input (Storage.readFile (m := StateM σ) input s).1).output summary
        (System.disk (Extract.extract (m := StateM σ) input (defaultOutput input) s).2) := by
  obtain ⟨summary, hok⟩ := (Extract.unrefused_iff hread hparse).1 hcreated
  obtain ⟨data', a', hread', hparse', hdone⟩ := (Extract.run_extract input (defaultOutput input) s).done hok
  rw [Extract.readFile_of_run hread] at hread'
  cases hread'
  rw [hparse] at hparse'
  cases hparse'
  refine ⟨summary, hok, ?_⟩
  simp only [hread, listed, hparse]
  exact foretells_of_done hdone

/-- **A listing foretells what an extraction does.** -/
theorem listing_agrees [Zlib.Decoder.Lawful] {argument : String} (h : IsPath argument)
    (threshold : Log.Threshold) (s : σ) :
    Agree ⟨argument⟩ s (run (m := StateM σ) ["--list", argument] threshold s)
      (run (m := StateM σ) [argument] threshold s) := by
  have hread := (Prod.eta (Storage.readFile (m := StateM σ) ⟨argument⟩ s)).symm
  have hextract := (Prod.eta (Extract.extract (m := StateM σ) ⟨argument⟩ (defaultOutput ⟨argument⟩) s)).symm
  obtain ⟨listLog, hlist⟩ := run_list h threshold hread
  obtain ⟨pathLog, hpath⟩ := run_path h threshold hextract
  have hstatus := status_listed ⟨argument⟩ (Storage.readFile (m := StateM σ) ⟨argument⟩ s).1
  rw [hlist, hpath]
  exact {
    status := by rw [hstatus, eq_comm, status_told_iff]
    rejected := by rw [← statusOf_eq_two_iff, ← hstatus]
    unread := by rw [← statusOf_eq_one_iff, ← hstatus]
    accepted := by rw [← statusOf_eq_zero_iff, ← hstatus]
    unchanged := (System.reads hread).1
    foretold := fun hcreated _ _ hdata hparse => foretells_of_unrefused hcreated hdata hparse }

end

/-! ### An archive alone on a disk -/

section
attribute [local instance] Zlib.inflater

/-- The disk with the directory that is made where none is asked for. -/
def openedBeside (data : Bytes) : Disk := { entries := [(["a"], .file data), (["a.out"], .directory)] }

/-- An archive alone on a disk is refused nothing if names are short. -/
theorem unrefused_alone {data : Bytes} {a : Archive} (hparse : Archive.parse data = .ok a)
    (hshort : Extract.Short ⟨"a"⟩ a) :
    Extract.Unrefused ⟨"a"⟩ (defaultOutput ⟨"a"⟩) (Extract.alone data) := by
  have hmake : Storage.makeDirectories (m := StateM Disk) (defaultOutput ⟨"a"⟩) (Extract.alone data) =
      (.ok (), openedBeside data) := rfl
  have hinto : (openedBeside data).Enters (defaultOutput ⟨"a"⟩) ["a.out"] := ⟨rfl, rfl⟩
  have haccepts : Disk.Accepts (openedBeside data) (defaultOutput ⟨"a"⟩) :=
    Disk.accepts_disk rfl (by decide) (by decide)
  obtain ⟨d, hcreated⟩ := Extract.exists_created_of_empty hinto (fun _ => rfl) haccepts hshort
  intro data' s₁ a' hread hparse'
  cases hread
  rw [hparse] at hparse'
  cases hparse'
  exact ⟨_, d, hmake, hcreated⟩

theorem listing_agrees_of_damaged : ∃ a, Archive.parse Extract.damaged = .ok a ∧ IsPath "a" ∧
    Extract.Unrefused ⟨"a"⟩ (defaultOutput ⟨"a"⟩) (Extract.alone Extract.damaged) ∧
    Agree ⟨"a"⟩ (Extract.alone Extract.damaged)
      (run (m := StateM Disk) ["--list", "a"] .default (Extract.alone Extract.damaged))
      (run (m := StateM Disk) ["a"] .default (Extract.alone Extract.damaged)) := by
  obtain ⟨a, hparse, hshort⟩ := Extract.exists_damaged
  have hpath : IsPath "a" := ⟨by decide, by decide⟩
  exact ⟨a, hparse, hpath, unrefused_alone hparse hshort,
    listing_agrees hpath .default (Extract.alone Extract.damaged)⟩

end

end ClassicIcons.Command
