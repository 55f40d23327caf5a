import ClassicIcons.Icns.Family
import ClassicIcons.Archive.Icon

/-! From an icon of an archive to a family.

A family has an element for each image of the icon, in the order of an icns file.
A palette image would not be shown without a one-bit image of its size, so where
that is missing, a placeholder stands in. -/
namespace ClassicIcons.Icns
open Archive (Icon)

/-- The element that a family has for a kind, if any. -/
def Element.ofIcon? (i : Icon) (k : Kind) : Option Element :=
  match i.image? k with
  | some image => ofImage? k image
  | none => if k.dependents.any i.has then some (placeholder k) else none

def Family.ofIcon (i : Icon) : Family := ⟨Kind.icnsOrder.filterMap (Element.ofIcon? i)⟩

end ClassicIcons.Icns
