import ClassicIcons.Disk.Path

/-! Names of extracted files.

A file is named for the archive, the place of the icon in it and the icon. The
place makes the name unique; of the icon's name, whatever cannot stand in a file
name is replaced. -/
namespace ClassicIcons.Extract

def isControl (c : Char) : Bool := c.toNat < 0x20 || (0x7f ≤ c.toNat && c.toNat < 0xa0)

/-- Characters that must not stand in a file name. -/
def isForbidden (c : Char) : Bool := c = '/' || c = '\\' || c = ':' || isControl c

/-- A text with an underscore for each forbidden character. -/
def sanitize (name : String) : String :=
  String.ofList (name.toList.map fun c => if isForbidden c then '_' else c)

/-- The name of the file for an icon; an icon without a name adds nothing. -/
def fileName (stem : String) (index : Nat) (name : String) : String :=
  let suffix := if name = "" then "" else "_" ++ sanitize name
  stem ++ "_" ++ toString index ++ suffix ++ ".icns"

/-- The directory that icons go to if none is given. -/
def defaultOutput (input : Disk.Path) : Disk.Path := ⟨input.text ++ ".out"⟩

/-- What names start with: the input's name without its extension. -/
def stemOf (input : Disk.Path) : String := input.fileStem?.getD "icon"

end ClassicIcons.Extract
