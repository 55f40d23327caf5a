import ClassicIcons.Bytes

/-! Reading bits.

A compressed stream is read bit by bit, the lowest bit of each byte first. What
a reader leaves is never longer than what it was given; `Takes n` says that it is
shorter by `n` bits at least, which is why decoding ends. -/
namespace ClassicIcons.Zlib

/-- Why decoding stops before the stream is complete. -/
inductive Fault where
  /-- Something in the stream is not allowed. -/
  | corrupt
  /-- The input ends. -/
  | incomplete
  deriving DecidableEq, Repr

def Fault.message : Fault → String
  | corrupt => "corrupt deflate stream"
  | incomplete => "incomplete deflate stream"

/-- Bits still to be read: what is left of the byte at hand, and whole bytes. -/
structure Source where
  pending : List Bool
  bytes : Bytes
  deriving DecidableEq, Repr

/-- How many bits are left. -/
def Source.remaining (s : Source) : Nat := s.pending.length + 8 * s.bytes.length

/-- The bits of a byte, the lowest first. -/
def bitsOf (b : UInt8) : List Bool := (List.range 8).map b.toNat.testBit

abbrev BitReader := StateT Source (Except Fault)

namespace BitReader

def fail {α : Type} (f : Fault) : BitReader α := fun _ => .error f

def bit : BitReader Bool := fun s =>
  match s.pending with
  | x :: pending => .ok (x, ⟨pending, s.bytes⟩)
  | [] => match s.bytes with
    | [] => .error .incomplete
    | b :: bytes => .ok (b.toNat.testBit 0, ⟨(bitsOf b).tail, bytes⟩)

/-- A number of `n` bits, the lowest first. -/
def field : Nat → BitReader Nat
  | 0 => pure 0
  | n + 1 => do
    let low ← bit
    let high ← field n
    return low.toNat + 2 * high

/-- Skips what is left of the byte at hand. -/
def align : BitReader Unit := fun s => .ok ((), ⟨[], s.bytes⟩)

/-- Goes on only under a condition. -/
def require (c : Prop) [Decidable c] : BitReader Unit := if c then pure () else fail .corrupt

/-- A reader that takes at least `n` bits whenever it succeeds. -/
def Takes {α : Type} (n : Nat) (m : BitReader α) : Prop :=
  ∀ s x rest, m s = .ok (x, rest) → rest.remaining + n ≤ s.remaining

variable {α β : Type}

theorem Takes.pure (x : α) : Takes 0 (pure x : BitReader α) := by
  intro s y rest h
  cases h
  exact Nat.le_refl _

theorem Takes.fail (n : Nat) (f : Fault) : Takes n (fail f : BitReader α) := by
  intro s x rest h
  cases h

theorem Takes.bind {n k : Nat} {m : BitReader α} {f : α → BitReader β} (hm : Takes n m)
    (hf : ∀ x, Takes k (f x)) : Takes (n + k) (m >>= f) := by
  intro s y rest h
  change (m s >>= fun (x, mid) => f x mid) = _ at h
  cases hs : m s with
  | error e => rw [hs] at h; cases h
  | ok p =>
    obtain ⟨x, mid⟩ := p
    rw [hs] at h
    have := hm s x mid hs
    have := hf x mid y rest h
    omega

theorem Takes.seq {n : Nat} {m : BitReader α} {f : α → BitReader β} (hm : Takes n m)
    (hf : ∀ x, Takes 0 (f x)) : Takes n (m >>= f) := hm.bind hf

theorem Takes.mono {n k : Nat} {m : BitReader α} (hm : Takes n m) (h : k ≤ n) : Takes k m :=
  fun s x rest hs => by have := hm s x rest hs; omega

theorem Takes.zero {n : Nat} {m : BitReader α} (hm : Takes n m) : Takes 0 m :=
  hm.mono (Nat.zero_le n)

theorem Takes.mapM {f : α → BitReader β} (hf : ∀ x, Takes 0 (f x)) (l : List α) :
    Takes 0 (l.mapM f) := by
  induction l with
  | nil => exact Takes.pure _
  | cons x l ih =>
    rw [List.mapM_cons]
    exact (hf x).seq fun _ => ih.seq fun _ => Takes.pure _

theorem takes_bit : Takes 1 bit := by
  intro s x rest h
  simp only [bit] at h
  split at h
  · cases h
    simp only [Source.remaining, *, List.length_cons]
    omega
  · split at h
    · cases h
    · cases h
      simp only [Source.remaining, *, List.length_cons, bitsOf, List.length_tail, List.length_map,
        List.length_range, List.length_nil]
      omega

theorem takes_field (n : Nat) : Takes n (field n) := by
  induction n with
  | zero => exact Takes.pure 0
  | succ n ih =>
    exact (takes_bit.bind fun _ => ih.bind fun _ => Takes.pure _).mono (by omega)

theorem takes_align : Takes 0 align := by
  intro s x rest h
  cases h
  simp [Source.remaining]

theorem takes_require (c : Prop) [Decidable c] : Takes 0 (require c) := by
  unfold require
  split
  · exact Takes.pure _
  · exact Takes.fail _ _

end BitReader
end ClassicIcons.Zlib
