import ClassicIcons.Proofs.Archive.Faults
import ClassicIcons.Proofs.Archive.RecordHeader
import ClassicIcons.Proofs.Zlib.Decoder

/-! What is said of records.

A fault that only says what a caller put into it may say anything, and a decoder has its own
words for what is wrong with a stream. But what is found wrong with a record of an archive
is never of the first kind, and a decoder keeps to one line (`Zlib.Decoder.Lawful`); so what is
said of a record is a line of text (`oneLine_of_found`). -/
namespace ClassicIcons
open Text (OneLine oneLine_toString oneLine_around)

theorem RunLength.Error.oneLine_message (e : RunLength.Error) : OneLine e.message := by
  cases e with
  | truncated => decide
  | overrun expected => exact oneLine_around (by decide) (by decide) expected

theorem Kind.oneLine_tag (k : Kind) : OneLine k.tag.text := by
  have hall : ∀ k ∈ Kind.all, OneLine k.tag.text := by decide
  exact hall k k.mem_all

namespace Archive
open Reader (Fails)

/-- Only words that are not the fault's own could be of more lines. -/
theorem RecordFault.oneLine_message {fault : RecordFault}
    (h : ∀ text, fault = .stream text ∨ fault = .other text → OneLine text) : OneLine fault.message := by
  cases fault with
  | truncated => decide
  | packed e => exact e.oneLine_message
  | stream text => exact h text (.inl rfl)
  | excess limit => exact oneLine_around (by decide) (by decide) limit
  | imageOverrun k offset size =>
    have hoffset : OneLine (" data at offset " ++ toString offset ++ " overruns the ") :=
      oneLine_around (by decide) (by decide) offset
    exact k.oneLine_tag.append (oneLine_around hoffset (by decide) size)
  | startsPastEnd index => exact oneLine_around (by decide) (by decide) index
  | impossibleSize index size =>
    have hindex : OneLine ("record " ++ toString index ++ " has an impossible size of ") :=
      oneLine_around (by decide) (by decide) index
    exact oneLine_around hindex (by decide) size
  | extendsPastEnd size => exact (oneLine_toString size).append (by decide)
  | other text => exact h text (.inr rfl)

theorem Error.oneLine_decompressionFailed {fault : RecordFault}
    (h : ∀ text, fault = .stream text ∨ fault = .other text → OneLine text) :
    OneLine (Error.decompressionFailed fault).message :=
  OneLine.append (by decide) (RecordFault.oneLine_message h)

/-- A header cannot be read only if it is cut short. -/
theorem Record.fails_read (v : Version) : Fails (· = .truncated) (Record.read v) :=
  fun _ _ h => (spans_read v).eq_truncated h

variable [Zlib.Decoder] [Zlib.Decoder.Lawful]

/-- What is said of a payload is a line of text. -/
theorem Record.oneLine_of_decode {r : Record} {index : Nat} {payload : Bytes} {e : Error}
    (h : r.decode index payload = .error e) : OneLine e.message := by
  cases hlayout : r.layout with
  | legacy offsets =>
    cases hunpack : unpack payload r.uncompressedSize.toNat with
    | ok data =>
      rw [decode_legacy hlayout hunpack] at h
      obtain ⟨k, start, rfl⟩ := Icon.error_of h
      exact Error.oneLine_decompressionFailed (by simp)
    | error found =>
      simp only [decode, hlayout, hunpack] at h
      cases h
      obtain ⟨found, rfl⟩ := error_of_unpack hunpack
      exact Error.oneLine_decompressionFailed (by simp)
  | extended presence extra =>
    cases hinflate : inflate payload r.uncompressedSize.toNat with
    | ok data =>
      by_cases hkinds : Layout.presentKinds presence = []
      · rw [decode_hollow hlayout hkinds hinflate] at h
        cases h
        decide
      · rw [decode_extended hlayout hkinds hinflate] at h
        obtain ⟨k, start, rfl⟩ := Icon.error_of h
        exact Error.oneLine_decompressionFailed (by simp)
    | error found =>
      simp only [decode, hlayout, hinflate] at h
      cases h
      rcases error_of_inflate hinflate with ⟨text, htext, rfl⟩ | rfl | ⟨data, -, -, rfl⟩
      · have hline : OneLine text := Zlib.Decoder.Lawful.oneLine htext
        exact Error.oneLine_decompressionFailed (by simpa using hline)
      · exact Error.oneLine_decompressionFailed (by simp)
      · exact (oneLine_around (by decide) (by decide) data.length).append (oneLine_toString _)

/-- **What is wrong with a record is said on one line.** -/
theorem oneLine_of_found {a : Archive} {i : Nat} {e : Error} (h : (a.found i).result = .error e) :
    OneLine e.message := by
  unfold found at h
  split at h
  · cases h
    exact Error.oneLine_decompressionFailed (by simp)
  · split at h
    · cases h
      exact Error.oneLine_decompressionFailed (by simp)
    · change a.decoded i _ = .error e at h
      unfold decoded Record.decodeWhole at h
      split at h
      · split at h
        · exact Record.oneLine_of_decode h
        · rename_i fault hread
          cases h
          rw [Record.fails_read _ _ fault hread]
          exact Error.oneLine_decompressionFailed (by simp)
      · cases h
        exact Error.oneLine_decompressionFailed (by simp)

end Archive
end ClassicIcons
