import ClassicIcons.Bytes
import ClassicIcons.Disk.Fault
import ClassicIcons.Disk.Path

/-! What a program can do with files and directories.

Programs are written for any `Storage`: the disk of the machine, or a `Disk`
value, about which statements can be made. -/
namespace ClassicIcons.Disk

class Storage (m : Type → Type) where
  readFile : Path → m (Except Fault Bytes)
  isDirectory : Path → m Bool
  /-- Makes one directory, in one that exists. -/
  makeDirectory : Path → m (Except Fault Unit)
  /-- Writes a whole file, in place of what it may have held. -/
  writeFile : Path → Bytes → m (Except Fault Unit)

namespace Storage
variable {m : Type → Type} [Monad m] [Storage m]

/-- A failure to make a directory is none if the directory is there. -/
def unlessDirectory (p : Path) (fault : Fault) : m (Except Fault Unit) := do
  if ← isDirectory p then return .ok () else return .error fault

/-- Makes the first of some directories, each of which is to lie in the next, and
before it those of the others that are missing. -/
def makeMissing : List Path → m (Except Fault Unit)
  | [] => return .ok ()
  | p :: above => do
    match ← makeDirectory p with
    | .ok () => return .ok ()
    | .error .notFound =>
      match ← makeMissing above with
      | .error fault => return .error fault
      | .ok () =>
        match ← makeDirectory p with
        | .ok () => return .ok ()
        | .error fault => unlessDirectory p fault
    | .error fault => unlessDirectory p fault

/-- Makes a directory, and the directories above it that are missing. -/
def makeDirectories (p : Path) : m (Except Fault Unit) :=
  if p.text = "" then return .ok () else makeMissing (p :: p.above)

end Storage
end ClassicIcons.Disk
