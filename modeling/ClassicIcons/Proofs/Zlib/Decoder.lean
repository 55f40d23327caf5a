import ClassicIcons.Proofs.Text.Lines
import ClassicIcons.Zlib.Decoder

/-! What can be relied on in a decoder.

A decoder may take for a stream whatever it likes. But it has to end where the stream ends:
if fewer bytes come out than are wanted, there are no others, and they come out whatever
is wanted (`Lawful`). So either something is wrong with a stream, or it holds more bytes
than are wanted, or these are all of its bytes (`completes_or_exceeds`). -/
namespace ClassicIcons.Zlib
open Text (OneLine)

/-- The stream is complete, and it holds these bytes: so many of them as are wanted come
out. -/
def Completes [Decoder] (stream data : Bytes) : Prop :=
  ∀ most, Decoder.read most stream = .ok (data.take most)

class Decoder.Lawful [Decoder] : Prop where
  length_le {most : Nat} {stream data : Bytes} : read most stream = .ok data → data.length ≤ most
  completes {most : Nat} {stream data : Bytes} :
    read most stream = .ok data → data.length < most → Completes stream data
  /-- What is wrong with a stream is said on one line. -/
  oneLine {most : Nat} {stream : Bytes} {text : String} : read most stream = .error text → OneLine text

section
variable [Decoder] {stream data : Bytes}

theorem Completes.read (h : Completes stream data) {most : Nat} (hmost : data.length ≤ most) :
    Decoder.read most stream = .ok data := by
  rw [h most, List.take_of_length_le hmost]

theorem Completes.unique {other : Bytes} (h : Completes stream data) (h' : Completes stream other) :
    data = other := by
  have hread := h.read (Nat.le_max_left data.length other.length)
  rw [h'.read (Nat.le_max_right data.length other.length)] at hread
  exact (Except.ok.inj hread).symm

/-- **However many bytes are wanted**, one of three things is so. -/
theorem completes_or_exceeds [Decoder.Lawful] (stream : Bytes) (limit : Nat) :
    (∃ text, Decoder.read (limit + 1) stream = .error text) ∨
      (∃ data, Decoder.read (limit + 1) stream = .ok data ∧ data.length = limit + 1) ∨
        ∃ data, Completes stream data ∧ data.length ≤ limit := by
  cases hread : Decoder.read (limit + 1) stream with
  | error text => exact .inl ⟨text, rfl⟩
  | ok data =>
    rcases Nat.lt_or_eq_of_le (Decoder.Lawful.length_le hread) with hlt | heq
    · exact .inr (.inr ⟨data, Decoder.Lawful.completes hread hlt, Nat.le_of_lt_succ hlt⟩)
    · exact .inr (.inl ⟨data, rfl, heq⟩)

end

end ClassicIcons.Zlib
