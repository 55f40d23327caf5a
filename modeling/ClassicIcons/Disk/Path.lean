/-! Paths.

A path is a text in which slashes separate names. Where it leads is a matter of
its parts; how it is written matters too, because paths are shown as written. Paths
that are no text, because their bytes are not UTF-8, are left out: they cannot be shown
as written, and what is shown for them is not what they are. -/
namespace ClassicIcons.Disk

structure Path where
  text : String
  deriving DecidableEq, Repr

/-- The texts between slashes, among them empty ones. -/
def splitSlashes (s : List Char) : List (List Char) :=
  s.foldr (fun c parts =>
    match c, parts with
    | '/', parts => [] :: parts
    | c, part :: parts => (c :: part) :: parts
    | c, [] => [[c]]) [[]]

namespace Path

def isAbsolute (p : Path) : Bool := p.text.toList.head? = some '/'

/-- Whether the path ends in a slash, and so can only mean a directory. -/
def endsInSlash (p : Path) : Bool := p.text.toList.getLast? = some '/'

/-- The parts of a path; repeated slashes count as one. -/
def parts (p : Path) : List String :=
  ((splitSlashes p.text.toList).filter fun part => part ≠ []).map String.ofList

/-- The parts that matter for what stands above a path: a dot is one only at the
start of a relative path. -/
def components (p : Path) : List String :=
  match p.parts with
  | [] => []
  | part :: rest =>
    (if part = "." ∧ p.isAbsolute then [] else [part]) ++ rest.filter fun part => part ≠ "."

/-- A path followed by a name. -/
def join (p : Path) (name : String) : Path :=
  if name.toList.head? = some '/' then ⟨name⟩
  else if p.text = "" ∨ p.endsInSlash then ⟨p.text ++ name⟩
  else ⟨p.text ++ "/" ++ name⟩

/-- The last name of a path, unless the path ends in one that leads upwards. -/
def fileName? (p : Path) : Option String :=
  match (p.parts.filter fun part => part ≠ ".").getLast? with
  | some ".." => none
  | last => last

/-- A name up to its last dot, or all of it if no dot follows its first
character. -/
def stem (name : String) : String :=
  let chars := name.toList
  let fromDot := (chars.reverse.dropWhile (· ≠ '.')).drop 1
  if fromDot = [] then name else String.ofList fromDot.reverse

def fileStem? (p : Path) : Option String := p.fileName?.map stem

/-- What stands above a path, the nearest first, up to the top or to where a
relative path starts. -/
def above (p : Path) : List Path :=
  let components := p.components
  (List.range components.length).reverse.filterMap fun n =>
    if p.isAbsolute then some ⟨"/" ++ String.intercalate "/" (components.take n)⟩
    else if n = 0 then none
    else some ⟨String.intercalate "/" (components.take n)⟩

end Path
end ClassicIcons.Disk
