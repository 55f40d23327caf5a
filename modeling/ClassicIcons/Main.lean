import ClassicIcons.Command.Run
import ClassicIcons.Zlib.Stream

/-! The program.

What it does is `Command.run`; here the machine it runs on becomes a `Storage`, streams
are decoded by `Zlib.inflater`, and what it has to say goes to its outputs. -/
namespace ClassicIcons.Machine
open Disk (Fault Storage)

/-- The system's number for a failure, which may come negated, and its words. -/
def systemCode? : IO.Error → Option (Nat × String)
  | .noFileOrDirectory _ code words | .interrupted _ code words
  | .alreadyExists _ code words | .invalidArgument _ code words
  | .permissionDenied _ code words | .resourceExhausted _ code words
  | .inappropriateType _ code words | .noSuchThing _ code words
  | .otherError code words | .resourceBusy code words | .resourceVanished code words
  | .unsupportedOperation code words | .hardwareFault code words
  | .unsatisfiedConstraints code words | .illegalOperation code words
  | .protocolError code words | .timeExpired code words =>
    some (code.toInt32.toInt.natAbs, words.capitalize)
  | .unexpectedEof | .userError _ => none

def faultOf (e : IO.Error) : Fault :=
  match systemCode? e with
  | some (2, _) => .notFound
  | some (17, _) => .alreadyExists
  | some (20, _) => .notDirectory
  | some (21, _) => .isDirectory
  | some (36, _) => .nameTooLong
  | some (code, words) => .other (words ++ " (os error " ++ toString code ++ ")")
  | none => .other (toString e)

/-- An action of the machine, with its failure as a value. -/
def attempt {α : Type} (action : IO α) : IO (Except Fault α) :=
  tryCatch (return .ok (← action)) fun e => return .error (faultOf e)

instance : Storage IO where
  readFile p := attempt do return (← IO.FS.readBinFile p.text).data.toList
  isDirectory p := do
    match ← attempt do (← IO.FS.realPath p.text).isDir with
    | .ok found => return found
    | .error _ => return false
  makeDirectory p := attempt (IO.FS.createDir p.text)
  writeFile p content := attempt (IO.FS.writeBinFile p.text ⟨content.toArray⟩)

/-- Names how much of the log is shown. -/
def thresholdVariable : String := "RUST_LOG"

def threshold : IO Log.Threshold := do
  match ← IO.getEnv thresholdVariable with
  | some name => return .ofName name
  | none => return .default

attribute [local instance] Zlib.inflater

/-- Runs the program on the machine. -/
def run (arguments : List String) : IO Command.Outcome := do
  Command.run arguments (← threshold)

end ClassicIcons.Machine

open ClassicIcons in
def main (arguments : List String) : IO UInt32 := do
  let outcome ← Machine.run arguments
  IO.print outcome.output
  (outcome.log.map Log.Entry.line ++ outcome.complaint).forM fun line => IO.eprintln line
  return outcome.status
