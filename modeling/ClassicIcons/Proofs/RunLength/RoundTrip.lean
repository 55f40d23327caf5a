import ClassicIcons.RunLength.Pack
import ClassicIcons.Proofs.RunLength.Grammar

/-! What is packed can be unpacked.

The groups that the packer writes stay within the limits of their flavour
(`groups_writable`), so their control bytes announce just what follows them, and
a packed stream is made of complete groups (`grouped_stream`). The unpacker takes
these off again, and stops at the last of them without a look at what comes
behind: a stream that was packed from `n` bytes needs no mark at its end, only
`n`. So streams can stand one behind another in a buffer
(`unpackEach_writeEach`). -/
namespace ClassicIcons.RunLength

/-- Within the limits of a flavour. -/
def Group.Writable (f : Flavour) : Group → Prop
  | .literal bytes => 1 ≤ bytes.length ∧ bytes.length ≤ maxLiteral
  | .run n _ => minRun ≤ n ∧ n ≤ f.maxRun

namespace Flavour

theorem groups_writable (f : Flavour) (b : Bytes) : ∀ g ∈ f.groups b, g.Writable f := by
  fun_induction f.groups b with
  | case1 => simp
  | case2 x b n hn ih =>
    intro g hg
    rcases List.mem_cons.1 hg with rfl | hg
    · exact ⟨hn, leading_le_limit _ _⟩
    · exact ih g hg
  | case3 x b n hn bytes ih =>
    intro g hg
    rcases List.mem_cons.1 hg with rfl | hg
    · exact ⟨length_plain_pos (by decide) f.minRun_le_maxRun hn, length_plain_le _ _⟩
    · exact ih g hg

/-! ### Taking groups off again -/

/-- The control byte that is written for a literal announces one of that length. -/
theorem complete_literal (f : Flavour) {bytes : Bytes} (h : 1 ≤ bytes.length)
    (h' : bytes.length ≤ maxLiteral) :
    Complete f (.literal bytes) (literalControl bytes.length :: bytes) := by
  have hcontrol := f.control_literalControl bytes.length h h'
  by_cases hc : (literalControl bytes.length).toNat < 128
  · rw [f.control_of_lt hc] at hcontrol
    exact .literal hc (Control.literal.inj hcontrol).symm
  · rw [f.control_of_le (Nat.not_lt.1 hc)] at hcontrol
    cases hcontrol

theorem complete_run (f : Flavour) {n : Nat} (value : UInt8) (h : minRun ≤ n) (h' : n ≤ f.maxRun) :
    Complete f (.run n value) [f.runControl n, value] := by
  have hcontrol := f.control_runControl n h h'
  by_cases hc : (f.runControl n).toNat < 128
  · rw [f.control_of_lt hc] at hcontrol
    cases hcontrol
  · rw [f.control_of_le (Nat.not_lt.1 hc)] at hcontrol
    have hcomplete : Complete f (.run (f.copies (f.runControl n)) value) [f.runControl n, value] :=
      .run (Nat.not_lt.1 hc)
    rw [Control.run.inj hcontrol] at hcomplete
    exact hcomplete

/-- What is written of groups within the limits is a stream of just these groups. -/
theorem grouped_stream {f : Flavour} {groups : List Group} (h : ∀ g ∈ groups, g.Writable f) :
    Grouped f groups (stream f groups) := by
  induction groups with
  | nil => exact .nil
  | cons g groups ih =>
    have hg := h g (List.mem_cons_self ..)
    have hcomplete : Complete f g (g.bytes f) := by
      cases g with
      | literal bytes => exact f.complete_literal hg.1 hg.2
      | run n value => exact f.complete_run value hg.1 hg.2
    exact .cons hcomplete (ih fun g' hg' => h g' (List.mem_cons_of_mem g hg'))

theorem unpack_stream {f : Flavour} {groups : List Group} (h : ∀ g ∈ groups, g.Writable f)
    (rest : Bytes) :
    f.unpack (stream f groups ++ rest) (expand groups).length = .ok (expand groups, rest) :=
  unpack_eq_ok_iff.2 ⟨groups, stream f groups, grouped_stream h, rfl, rfl, rfl⟩

/-- **Unpacking gives back what was packed**, and leaves what follows the stream. -/
theorem unpack_pack (f : Flavour) (b rest : Bytes) :
    f.unpack (f.pack b ++ rest) b.length = .ok (b, rest) := by
  have h := unpack_stream (f.groups_writable b) rest
  rw [expand_groups] at h
  rw [pack_eq_stream, h]

/-! ### Streams behind one another -/

/-- Packs one sampling after another onto the end of a buffer. -/
def writeEach (f : Flavour) (b buffer : Bytes) : List Sampling → Bytes
  | [] => buffer
  | s :: steps => writeEach f b (f.write buffer b s).1 steps

/-- The streams of the samplings, one behind another. -/
def streams (f : Flavour) (b : Bytes) (steps : List Sampling) : Bytes :=
  steps.flatMap fun s => f.pack (s.samples b)

theorem writeEach_eq (f : Flavour) (b buffer : Bytes) (steps : List Sampling) :
    f.writeEach b buffer steps = buffer ++ f.streams b steps := by
  induction steps generalizing buffer with
  | nil => simp [writeEach, streams]
  | cons s steps ih =>
    rw [writeEach, write_eq, ih]
    simp [streams]

/-- One stream in the middle of a buffer. -/
theorem unpackAt_pack (f : Flavour) (front b rest : Bytes) :
    f.unpackAt (front ++ (f.pack b ++ rest)) front.length b.length =
      .ok (b, front.length + (f.pack b).length) := by
  rw [unpackAt, List.drop_left, unpack_pack]
  simp only [List.length_append]
  congr 2
  omega

theorem unpackEach_streams (f : Flavour) (b front rest : Bytes) (steps : List Sampling) :
    f.unpackEach (front ++ (f.streams b steps ++ rest)) front.length
        (steps.map fun s => (s.samples b).length) =
      .ok (steps.map fun s => s.samples b, (front ++ f.streams b steps).length) := by
  induction steps generalizing front with
  | nil => simp [unpackEach, streams]
  | cons s steps ih =>
    have hsplit : f.streams b (s :: steps) = f.pack (s.samples b) ++ f.streams b steps := by
      simp [streams]
    -- What one step has unpacked is part of the front for the next.
    have hnext := ih (front ++ f.pack (s.samples b))
    rw [List.append_assoc, List.length_append] at hnext
    rw [hsplit, List.map_cons, unpackEach, List.append_assoc, unpackAt_pack]
    simp only [hnext, List.map_cons, List.append_assoc]

/-- **Packed streams delimit themselves.** Each step of packing leaves the buffer
as it was, adds the packed form of its samples, the bytes at `base`,
`base + stride`, and so on, and counts what it adds. From where the first stream
starts, and with nothing but the numbers of samples, the steps are unpacked
again, one by one, up to the end of the last stream, whatever follows it. -/
theorem unpackEach_writeEach (f : Flavour) (b buffer rest : Bytes) (steps : List Sampling) :
    (∀ (s : Sampling) (before : Bytes),
      f.write before b s = (before ++ f.pack (s.samples b), (f.pack (s.samples b)).length) ∧
      ∀ i, (s.samples b)[i]? = b[s.base + i * s.stride]?) ∧
    f.unpackEach (f.writeEach b buffer steps ++ rest) buffer.length
        (steps.map fun s => (s.samples b).length) =
      .ok (steps.map fun s => s.samples b, (f.writeEach b buffer steps).length) ∧
    f.unpackAt (f.pack b ++ rest) 0 b.length = .ok (b, (f.pack b).length) := by
  refine ⟨fun s before => ⟨write_eq f before b s, s.getElem?_samples b⟩, ?_, ?_⟩
  · rw [writeEach_eq, List.append_assoc]
    exact unpackEach_streams f b buffer rest steps
  · have h := unpackAt_pack f [] b rest
    rw [List.nil_append, List.length_nil, Nat.zero_add] at h
    exact h

end Flavour
end ClassicIcons.RunLength
