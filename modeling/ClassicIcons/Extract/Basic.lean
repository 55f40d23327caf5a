import ClassicIcons.Archive.Walk
import ClassicIcons.Disk.Storage
import ClassicIcons.Extract.FileName
import ClassicIcons.Icns.Conversion
import ClassicIcons.Log

/-! Extracting an archive: one icns file for each icon.

Nothing is written unless the header of the archive can be read. A record that
cannot be decoded is skipped; a file that cannot be written ends the extraction.
What was done is told in a log. -/
namespace ClassicIcons.Extract
open Archive (Error Icon Item)
open Disk (Storage)

structure Summary where
  /-- The files written, in the order of their records. -/
  written : List Disk.Path
  /-- The records skipped, each with the reason. -/
  skipped : List (Nat × Error)

/-- What an extraction tells, and how it ends. -/
structure Report where
  log : List Log.Entry
  outcome : Except Error Summary

namespace Report

/-- An extraction that fails. -/
def failed (e : Error) : Report := ⟨[], .error e⟩

/-- An extraction with nothing left to do. -/
def done : Report := ⟨[], .ok ⟨[], []⟩⟩

/-- What was told before. -/
def after (before : List Log.Entry) (r : Report) : Report := { r with log := before ++ r.log }

def addWritten (p : Disk.Path) (r : Report) : Report :=
  { r with outcome := r.outcome.map fun s => { s with written := p :: s.written } }

def addSkipped (index : Nat) (e : Error) (r : Report) : Report :=
  { r with outcome := r.outcome.map fun s => { s with skipped := (index, e) :: s.skipped } }

end Report

/-! ### The log -/

def info (message : String) : Log.Entry := ⟨.info, .extract, message⟩

def warn (message : String) : Log.Entry := ⟨.warn, .extract, message⟩

/-- A text of the header is told if it is not empty. -/
def textLog (label text : String) : List Log.Entry :=
  if text = "" then [] else [info (label ++ ": " ++ text)]

def headerLog (input : Disk.Path) (h : Archive.Header) : List Log.Entry :=
  let texts := match h.edition with
    | .first => []
    | .second x => textLog "copyright" x.copyright ++ textLog "comment" x.comment
  info (input.text ++ ": Icon Archiver version " ++ toString h.version.number.toNat ++
    " file with " ++ toString h.iconCount.toNat ++ " icon(s)") :: texts

/-- Where a record was found. -/
def spanLog (item : Item) : List Log.Entry :=
  match item.span with
  | none => []
  | some span =>
    [⟨.debug, .archive, "icon " ++ toString item.index ++ ": " ++ toString span.size ++
      " byte record at 0x" ++ String.ofList (Nat.toDigits 16 span.start)⟩]

def skipLog (item : Item) (e : Error) : Log.Entry :=
  warn ("skipping icon " ++ toString item.index ++ ": " ++ e.message)

def writeLog (p : Disk.Path) : Log.Entry := info ("... " ++ p.text)

/-! ### Extraction -/

section
variable {m : Type → Type} [Monad m] [Storage m]

/-- The file for an icon. -/
def target (output : Disk.Path) (stem : String) (i : Icon) : Disk.Path :=
  output.join (fileName stem i.index i.name)

/-- Writes the file for an icon. -/
def writeIcon (p : Disk.Path) (i : Icon) : m (Except Error Unit) := do
  match (Icns.Family.ofIcon i).write with
  | .error e => return .error (.system (.other e.message))
  | .ok content =>
    match ← Storage.writeFile p content with
    | .ok () => return .ok ()
    | .error fault => return .error (.system fault)

/-- Writes the icons among the items, up to the first that cannot be written. -/
def writeItems (output : Disk.Path) (stem : String) : List Item → m Report
  | [] => return .done
  | item :: rest =>
    match item.result with
    | .error e => do
      let report ← writeItems output stem rest
      return (report.addSkipped item.index e).after (spanLog item ++ [skipLog item e])
    | .ok icon => do
      let p := target output stem icon
      match ← writeIcon p icon with
      | .error e => return (Report.failed e).after (spanLog item)
      | .ok () =>
        let report ← writeItems output stem rest
        return (report.addWritten p).after (spanLog item ++ [writeLog p])

/-- Extracts the archive in a file into a directory, which is made if it is not
there. -/
def extract [Zlib.Decoder] (input output : Disk.Path) : m Report := do
  match ← Storage.readFile input with
  | .error fault => return .failed (.system fault)
  | .ok data =>
    match Archive.parse data with
    | .error e => return .failed e
    | .ok archive =>
      let log := headerLog input archive.header
      match ← Storage.makeDirectories output with
      | .error fault => return (Report.failed (.system fault)).after log
      | .ok () => return (← writeItems output (stemOf input) archive.items).after log

end

end ClassicIcons.Extract
