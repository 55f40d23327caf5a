import ClassicIcons.Disk.Path

/-! The command line.

Arguments are taken in order, and the first that is wrong decides. Options may
stand before, between and after the two paths; after two dashes everything is a
path. Short options may be written together. -/
namespace ClassicIcons.Command

/-- What the program is asked to do. -/
inductive Request where
  | help
  | version
  | list (input : Disk.Path)
  | extract (input : Disk.Path) (output : Option Disk.Path)
  deriving DecidableEq, Repr

/-- Why arguments are not understood. -/
inductive Misuse where
  | unexpected (argument : String)
  /-- An option has a value, but takes none. -/
  | unexpectedValue (option value : String)
  | repeatedList
  | missingInput
  /-- A path is empty. -/
  | emptyPath (name : String)
  deriving DecidableEq, Repr

inductive Flag where
  | list
  | help
  | version
  deriving DecidableEq, Repr

namespace Flag

def ofLong? : String → Option Flag
  | "list" => some list
  | "help" => some help
  | "version" => some version
  | _ => none

def ofShort? : Char → Option Flag
  | 'l' => some list
  | 'h' => some help
  | 'V' => some version
  | _ => none

def long : Flag → String
  | list => "--list"
  | help => "--help"
  | version => "--version"

end Flag

/-- One step of reading the arguments. -/
inductive Token where
  | path (text : String)
  | flag (f : Flag)
  | wrong (misuse : Misuse)
  deriving DecidableEq, Repr

/-- The tokens of a long option, given without its dashes. -/
def longTokens (argument : String) : List Token :=
  let name := argument.toList.takeWhile (· ≠ '=')
  let value := argument.toList.dropWhile (· ≠ '=')
  match Flag.ofLong? (String.ofList name) with
  | none => [.wrong (.unexpected ("--" ++ String.ofList name))]
  | some f =>
    if value = [] then [.flag f]
    else [.wrong (.unexpectedValue f.long (String.ofList (value.drop 1)))]

/-- The token of one letter of a group of short options. -/
def shortToken (c : Char) : Token :=
  match Flag.ofShort? c with
  | some f => .flag f
  | none => .wrong (.unexpected (String.ofList ['-', c]))

def tokens : List String → List Token
  | [] => []
  | argument :: rest =>
    match argument.toList with
    | ['-', '-'] => rest.map .path
    | '-' :: '-' :: name => longTokens (String.ofList name) ++ tokens rest
    | '-' :: c :: letters => (c :: letters).map shortToken ++ tokens rest
    | _ => .path argument :: tokens rest

/-- What has been understood so far; the latest path is the first. -/
structure Partial where
  list : Bool
  paths : List String
  deriving DecidableEq, Repr

namespace Partial

/-- The name of the latest path if that is empty. -/
def emptyPath? (p : Partial) : Option Misuse :=
  match p.paths with
  | [""] => some (.emptyPath "<INPUT>")
  | ["", _] => some (.emptyPath "[OUTPUT]")
  | _ => none

/-- The request, once all arguments are read. -/
def request (p : Partial) : Except Misuse Request :=
  match p.emptyPath? with
  | some misuse => .error misuse
  | none =>
    match p.paths.reverse with
    | [] => .error .missingInput
    | input :: output =>
      if p.list then .ok (.list ⟨input⟩) else .ok (.extract ⟨input⟩ (output.head?.map (⟨·⟩)))

/-- Reads on. An empty path is noticed when the next argument is accepted. -/
def read (p : Partial) : List Token → Except Misuse Request
  | [] => p.request
  | .wrong misuse :: _ => .error misuse
  | .flag f :: rest =>
    match p.emptyPath?, f with
    | some misuse, _ => .error misuse
    | none, .help => .ok .help
    | none, .version => .ok .version
    | none, .list => if p.list then .error .repeatedList else read { p with list := true } rest
  | .path text :: rest =>
    if 2 ≤ p.paths.length then .error (.unexpected text)
    else match p.emptyPath? with
      | some misuse => .error misuse
      | none => read { p with paths := text :: p.paths } rest

end Partial

/-- The request that arguments make. -/
def Request.parse (arguments : List String) : Except Misuse Request :=
  Partial.read ⟨false, []⟩ (tokens arguments)

/-! ### Texts -/

def usage : String := "Usage: icon-dearchiver [OPTIONS] <INPUT> [OUTPUT]"

def moreInformation : String := "For more information, try '--help'."

def Misuse.message : Misuse → String
  | unexpected argument => "unexpected argument '" ++ argument ++ "' found"
  | unexpectedValue option value =>
    "unexpected value '" ++ value ++ "' for '" ++ option ++ "' found; no more were expected"
  | repeatedList => "the argument '--list' cannot be used multiple times"
  | missingInput => "the following required arguments were not provided:\n  <INPUT>"
  | emptyPath name => "a value is required for '" ++ name ++ "' but none was supplied"

/-- Whether a misuse is answered with the usage line. -/
def Misuse.showsUsage : Misuse → Bool
  | emptyPath _ => false
  | _ => true

/-- The lines that answer a misuse. -/
def Misuse.lines (misuse : Misuse) : List String :=
  ["error: " ++ misuse.message, ""] ++ (if misuse.showsUsage then [usage, ""] else []) ++
    [moreInformation]

def helpText : String := String.intercalate "\n" [
  "Converts Icon Archiver files into .icns files",
  "",
  usage,
  "",
  "Arguments:",
  "  <INPUT>   Path to the Icon Archiver file",
  "  [OUTPUT]  Output directory (defaults to <input>.out)",
  "",
  "Options:",
  "  -l, --list     List the icons in the archive instead of extracting them",
  "  -h, --help     Print help",
  "  -V, --version  Print version",
  ""]

def versionText : String := "icon-dearchiver 0.1.0\n"

end ClassicIcons.Command
