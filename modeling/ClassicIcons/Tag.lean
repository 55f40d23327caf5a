import ClassicIcons.Bytes

/-! Four-byte tags, which name the elements of an icns file. -/
namespace ClassicIcons

structure Tag where
  first : UInt8
  second : UInt8
  third : UInt8
  fourth : UInt8
  deriving DecidableEq, Repr

namespace Tag

/-- The tag that four ASCII characters spell. -/
def ofChars (a b c d : Char) : Tag := ⟨a.toUInt8, b.toUInt8, c.toUInt8, d.toUInt8⟩

def bytes (t : Tag) : Bytes := [t.first, t.second, t.third, t.fourth]

/-- The tag of exactly four bytes. -/
def ofBytes? : Bytes → Option Tag
  | [a, b, c, d] => some ⟨a, b, c, d⟩
  | _ => none

/-- A tag as text: each byte is the character of that number, up to U+00FF. -/
def text (t : Tag) : String := String.ofList (t.bytes.map fun b => Char.ofNat b.toNat)

@[simp] theorem length_bytes (t : Tag) : t.bytes.length = 4 := rfl

@[simp] theorem ofBytes?_bytes (t : Tag) : ofBytes? t.bytes = some t := rfl

theorem bytes_injective {t u : Tag} (h : t.bytes = u.bytes) : t = u :=
  Option.some.inj (congrArg ofBytes? h)

/-- Reads a tag off the front. -/
def read {ε : Type} [Truncated ε] : Reader ε Tag :=
  return ⟨← Reader.u8, ← Reader.u8, ← Reader.u8, ← Reader.u8⟩

theorem read_eq_ok_iff {ε : Type} [Truncated ε] {b rest : Bytes} {t : Tag} :
    (read : Reader ε Tag) b = .ok (t, rest) ↔ b = t.bytes ++ rest := by
  simp only [read, Reader.bind_eq_ok_iff, Reader.u8_eq_ok_iff]
  constructor
  · rintro ⟨a, _, rfl, b, _, rfl, c, _, rfl, d, _, rfl, h⟩
    cases h
    rfl
  · rintro rfl
    exact ⟨_, _, rfl, _, _, rfl, _, _, rfl, _, _, rfl, rfl⟩

theorem read_eq_error_iff {ε : Type} [Truncated ε] {b : Bytes} {e : ε} :
    (read : Reader ε Tag) b = .error e ↔ b.length < 4 ∧ e = Truncated.truncated := by
  simp only [read, Reader.bind_eq_error_iff, Reader.u8_eq_error_iff, Reader.u8_eq_ok_iff,
    Reader.pure_ne_error, and_false, exists_false, or_false]
  match b with
  | [] => simp
  | [_] => simp [and_assoc]
  | [_, _] => simp [and_assoc]
  | [_, _, _] => simp [and_assoc]
  | _ :: _ :: _ :: _ :: rest =>
    have hlength : ¬ rest.length + 1 + 1 + 1 + 1 < 4 := by omega
    simp [and_assoc, hlength]

end Tag
end ClassicIcons
