import ClassicIcons.Command.Arguments
import ClassicIcons.Command.Listing
import ClassicIcons.Extract.Basic

/-! What the program does with its arguments. -/
namespace ClassicIcons.Command
open Archive (Error)
open Disk (Storage)

/-- How a run ends, and what it says. -/
structure Outcome where
  status : UInt32
  /-- What goes to the standard output. -/
  output : String
  log : List Log.Entry
  /-- The lines that follow the log. -/
  complaint : List String
  deriving DecidableEq, Repr

/-- The exit status of a failure: 2 if the input is no archive that can be read. -/
def errorStatus : Error → UInt32
  | .unsupportedFormat _ | .unsupportedVersion _ => 2
  | _ => 1

/-- A run that ends in an error about its input. -/
def Outcome.failed (input : Disk.Path) (log : List Log.Entry) (e : Error) : Outcome :=
  ⟨errorStatus e, "", log, ["Error: " ++ input.text ++ ": " ++ e.message]⟩

/-- Lines as a text. -/
def unlines (lines : List String) : String := String.join (lines.map (· ++ "\n"))

section
variable [Zlib.Decoder] {m : Type → Type} [Monad m] [Storage m]

def runList (input : Disk.Path) : m Outcome := do
  match ← Storage.readFile input with
  | .error fault => return .failed input [] (.system fault)
  | .ok data =>
    match Archive.parse data with
    | .error e => return .failed input [] e
    | .ok archive =>
      return ⟨0, unlines (listing archive), archive.items.flatMap Extract.spanLog, []⟩

/-- What is told at the end of an extraction. -/
def summaryLog (s : Extract.Summary) : Log.Entry :=
  ⟨.info, .command, "wrote " ++ toString s.written.length ++ " icon(s), skipped " ++
    toString s.skipped.length⟩

def runExtract (input : Disk.Path) (output : Option Disk.Path) : m Outcome := do
  let report ← Extract.extract input (output.getD (Extract.defaultOutput input))
  match report.outcome with
  | .ok summary => return ⟨0, "", report.log ++ [summaryLog summary], []⟩
  | .error e => return .failed input report.log e

/-- Runs the program, and keeps of its log what is to be shown. -/
def run (arguments : List String) (threshold : Log.Threshold) : m Outcome := do
  let outcome ← match Request.parse arguments with
    | .error misuse => pure ⟨2, "", [], misuse.lines⟩
    | .ok .help => pure ⟨0, helpText, [], []⟩
    | .ok .version => pure ⟨0, versionText, [], []⟩
    | .ok (.list input) => runList input
    | .ok (.extract input output) => runExtract input output
  return { outcome with log := outcome.log.filter threshold.shows }

end

end ClassicIcons.Command
