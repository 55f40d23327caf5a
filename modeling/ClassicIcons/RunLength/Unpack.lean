import ClassicIcons.RunLength.Group

/-! Unpacking a stream to a length that is known beforehand.

Groups are taken off the stream until they stand for exactly the wanted number
of bytes; what follows them is left alone. A group that announces more than is
still wanted is refused before its operands are looked for. -/
namespace ClassicIcons.RunLength

inductive Error where
  /-- The stream ends inside or before a group that is still wanted. -/
  | truncated
  /-- A group announces more than is left of the `expected` bytes. -/
  | overrun (expected : Nat)
  deriving DecidableEq, Repr

def Error.message : Error → String
  | truncated => "truncated RLE-compressed data"
  | overrun expected => s!"RLE-compressed data overruns the expected {expected} bytes"

/-- A stream that ends too early is no stream of that length, so this is about its
bytes too. -/
def Error.kind : Error → ErrorKind
  | truncated => .invalidData
  | overrun _ => .invalidData

namespace Flavour

/-- The operands of an announced group. -/
def operands : Control → Bytes → Option (Group × Bytes)
  | .literal n, b => (b.split? n).map fun (bytes, rest) => (.literal bytes, rest)
  | .run _, [] => none
  | .run n, value :: rest => some (.run n value, rest)

/-- The first group of a stream of which `wanted` bytes are still wanted, out of
`expected` in all. -/
def group (f : Flavour) (expected wanted : Nat) : Bytes → Except Error (Group × Bytes)
  | [] => .error .truncated
  | c :: b =>
    if wanted < (f.control c).count then .error (.overrun expected)
    else match operands (f.control c) b with
      | some result => .ok result
      | none => .error .truncated

theorem length_le_of_operands {c : Control} {b rest : Bytes} {g : Group}
    (h : operands c b = some (g, rest)) : rest.length ≤ b.length := by
  cases c with
  | literal n =>
    simp only [operands, Option.map_eq_some_iff, Prod.exists, Prod.mk.injEq] at h
    obtain ⟨bytes, rest', hs, -, rfl⟩ := h
    have := (Bytes.split?_eq_some_iff.1 hs).1
    simp [this]
  | run n =>
    cases b with
    | nil => simp [operands] at h
    | cons value b =>
      simp only [operands, Option.some.injEq, Prod.mk.injEq] at h
      simp [← h.2]

theorem length_lt_of_group {f : Flavour} {expected wanted : Nat} {b rest : Bytes} {g : Group}
    (h : f.group expected wanted b = .ok (g, rest)) : rest.length < b.length := by
  cases b with
  | nil => simp [group] at h
  | cons c b =>
    simp only [group] at h
    split at h
    · cases h
    · split at h
      · rename_i result hr
        cases h
        exact Nat.lt_succ_of_le (length_le_of_operands hr)
      · cases h

/-- Takes groups off a stream until `wanted` more bytes are there. `taken` holds
the groups so far, the last one first. -/
def groupsFrom (f : Flavour) (expected wanted : Nat) (taken : List Group) (b : Bytes) :
    Except Error (List Group × Bytes) :=
  if wanted = 0 then .ok (taken.reverse, b)
  else match h : f.group expected wanted b with
    | .error e => .error e
    | .ok (g, rest) =>
      have := length_lt_of_group h
      groupsFrom f expected (wanted - g.count) (g :: taken) rest
termination_by b.length

theorem groupsFrom_zero (f : Flavour) (expected : Nat) (taken : List Group) (b : Bytes) :
    f.groupsFrom expected 0 taken b = .ok (taken.reverse, b) := by
  rw [groupsFrom, if_pos rfl]

theorem groupsFrom_of_group {f : Flavour} {expected wanted : Nat} {b rest : Bytes} {g : Group}
    (hw : wanted ≠ 0) (h : f.group expected wanted b = .ok (g, rest)) (taken : List Group) :
    f.groupsFrom expected wanted taken b =
      f.groupsFrom expected (wanted - g.count) (g :: taken) rest := by
  rw [groupsFrom, if_neg hw]
  split
  · rename_i he
    rw [h] at he
    cases he
  · rename_i hg
    rw [h] at hg
    cases hg
    rfl

/-- The first `length` bytes that a stream stands for, and the rest of the
stream. -/
def unpack (f : Flavour) (b : Bytes) (length : Nat) : Except Error (Bytes × Bytes) :=
  match f.groupsFrom length length [] b with
  | .ok (groups, rest) => .ok (expand groups, rest)
  | .error e => .error e

/-- Unpacks from a position on, and says at which position the stream went on. -/
def unpackAt (f : Flavour) (b : Bytes) (position length : Nat) : Except Error (Bytes × Nat) :=
  match f.unpack (b.drop position) length with
  | .ok (values, rest) => .ok (values, b.length - rest.length)
  | .error e => .error e

/-- The most bytes that can be asked for at once. -/
def maxLength : Nat := UInt64.size / 2 - 1

/-- Unpacks as `unpackAt` does, but asks for room for all of the output beforehand. To ask
for too much stops the program, whatever the stream is. -/
def unpackInto? (f : Flavour) (b : Bytes) (position length : Nat) : Option (Except Error (Bytes × Nat)) :=
  if length ≤ maxLength then some (f.unpackAt b position length) else none

/-- An archive can ask for no more than there can be room for. -/
theorem unpackInto?_size (f : Flavour) (b : Bytes) (position : Nat) (length : UInt32) :
    f.unpackInto? b position length.toNat = some (f.unpackAt b position length.toNat) :=
  if_pos (Nat.le_trans (Nat.le_of_lt length.toNat_lt) (by decide))

/-- Unpacks one stream after another, each from where the one before it ended. -/
def unpackEach (f : Flavour) (b : Bytes) (position : Nat) :
    (lengths : List Nat) → Except Error (List Bytes × Nat)
  | [] => .ok ([], position)
  | length :: lengths =>
    match f.unpackAt b position length with
    | .error e => .error e
    | .ok (values, position) =>
      match unpackEach f b position lengths with
      | .error e => .error e
      | .ok (more, position) => .ok (values :: more, position)

end Flavour
end ClassicIcons.RunLength
