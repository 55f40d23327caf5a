import ClassicIcons.Archive.Walk
import ClassicIcons.Text.Quoted

/-! The listing of an archive: its header, then one line for each record. -/
namespace ClassicIcons.Command
open Archive (Item)

/-- A kind with its size in pixels. -/
def kindText (k : Kind) : String :=
  let pixels := toString k.size.pixels
  k.tag.text ++ "(" ++ pixels ++ "x" ++ pixels ++ ")"

def headerLines (h : Archive.Header) : List String :=
  let extended := match h.edition with
    | .first => []
    | .second x => ["Copyright: " ++ x.copyright, "Comment: " ++ x.comment,
        "Locked: " ++ if x.locked then "true" else "false"]
  ("Icon Archiver version " ++ toString h.version.number.toNat ++ ", " ++
    toString h.iconCount.toNat ++ " icon(s)") :: extended

def itemLine (item : Item) : String :=
  let rest := match item.result with
    | .ok icon =>
      Text.quoted icon.name ++ " (" ++ toString icon.data.length ++ " byte data) " ++
        String.intercalate " " (icon.kinds.map kindText)
    | .error e => "skipped (" ++ e.message ++ ")"
  "Icon " ++ toString item.index ++ ": " ++ rest

/-- The lines of a listing. -/
def listing [Zlib.Decoder] (a : Archive) : List String := headerLines a.header ++ a.items.map itemLine

end ClassicIcons.Command
