/-! What can go wrong with files and directories. -/
namespace ClassicIcons.Disk

inductive Fault where
  | notFound
  | alreadyExists
  | notDirectory
  | isDirectory
  /-- A name, or a whole path, is longer than the system allows. -/
  | nameTooLong
  /-- A path holds a NUL character. -/
  | nulInPath
  | other (text : String)
  deriving DecidableEq, Repr

/-- The system's own words. -/
def Fault.message : Fault → String
  | notFound => "No such file or directory (os error 2)"
  | alreadyExists => "File exists (os error 17)"
  | notDirectory => "Not a directory (os error 20)"
  | isDirectory => "Is a directory (os error 21)"
  | nameTooLong => "File name too long (os error 36)"
  | nulInPath => "file name contained an unexpected NUL byte"
  | other text => text

end ClassicIcons.Disk
