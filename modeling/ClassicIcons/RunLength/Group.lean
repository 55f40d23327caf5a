import ClassicIcons.Bytes

/-! Groups: what a packed stream is made of.

A control byte announces either a literal, bytes to be copied, or a run, one
byte to be repeated. Both flavours write a literal of `n` bytes as `n - 1`; they
differ in how they count runs.

`control_literalControl` and `control_runControl` say that a written control
byte announces the length it was written for, over the whole range a flavour
can write. -/
namespace ClassicIcons.RunLength

/-- The two dialects: the older counts runs downwards from 129, the one used for
the planes of 24-bit images upwards from 3. -/
inductive Flavour where
  | packBits
  | icns
  deriving DecidableEq, Repr

/-- What a control byte announces. -/
inductive Control where
  | literal (count : Nat)
  | run (count : Nat)
  deriving DecidableEq, Repr

/-- How many bytes the announced group stands for. -/
def Control.count : Control → Nat
  | .literal n => n
  | .run n => n

/-- A control byte with its operands. -/
inductive Group where
  | literal (bytes : Bytes)
  | run (count : Nat) (value : UInt8)
  deriving DecidableEq, Repr

namespace Flavour

def control (f : Flavour) (c : UInt8) : Control :=
  if c < 128 then .literal (c.toNat + 1)
  else match f with
    | packBits => .run (257 - c.toNat)
    | icns => .run (c.toNat - 125)

/-- The longest run that is written as one group. -/
def maxRun : Flavour → Nat
  | packBits => 128
  | icns => 130

/-- The control byte of a literal. -/
def literalControl (n : Nat) : UInt8 := UInt8.ofNat (n - 1)

/-- The control byte of a run. -/
def runControl (f : Flavour) (n : Nat) : UInt8 :=
  match f with
  | packBits => UInt8.ofNat (257 - n)
  | icns => UInt8.ofNat (n + 125)

theorem control_count_pos (f : Flavour) (c : UInt8) : 0 < (f.control c).count := by
  have := c.toNat_lt
  unfold control
  split
  · simp [Control.count]
  · rename_i h
    have : ¬ c.toNat < 128 := fun hc => h (UInt8.lt_iff_toNat_lt.2 hc)
    cases f <;> simp only [Control.count] <;> omega

theorem control_literalControl (f : Flavour) (n : Nat) (h : 1 ≤ n) (h' : n ≤ 128) :
    f.control (literalControl n) = .literal n := by
  have hn : (literalControl n).toNat = n - 1 := by
    simp only [literalControl, UInt8.toNat_ofNat']
    omega
  have hlt : literalControl n < 128 := by
    rw [UInt8.lt_iff_toNat_lt, hn]
    show n - 1 < 128
    omega
  unfold control
  rw [if_pos hlt, hn, Nat.sub_add_cancel h]

theorem control_runControl (f : Flavour) (n : Nat) (h : 3 ≤ n) (h' : n ≤ f.maxRun) :
    f.control (f.runControl n) = .run n := by
  cases f with
  | packBits =>
    simp only [maxRun] at h'
    have hn : (runControl packBits n).toNat = 257 - n := by
      simp only [runControl, UInt8.toNat_ofNat']
      omega
    have hge : ¬ runControl packBits n < 128 := by
      rw [UInt8.lt_iff_toNat_lt, hn]
      show ¬ 257 - n < 128
      omega
    unfold control
    rw [if_neg hge]
    show Control.run (257 - (runControl packBits n).toNat) = .run n
    rw [hn, Nat.sub_sub_self (by omega)]
  | icns =>
    simp only [maxRun] at h'
    have hn : (runControl icns n).toNat = n + 125 := by
      simp only [runControl, UInt8.toNat_ofNat']
      omega
    have hge : ¬ runControl icns n < 128 := by
      rw [UInt8.lt_iff_toNat_lt, hn]
      show ¬ n + 125 < 128
      omega
    unfold control
    rw [if_neg hge]
    show Control.run ((runControl icns n).toNat - 125) = .run n
    rw [hn, Nat.add_sub_cancel]

end Flavour

namespace Group

/-- The bytes a group stands for. -/
def expand : Group → Bytes
  | literal bytes => bytes
  | run n value => List.replicate n value

/-- How many bytes a group stands for. -/
def count : Group → Nat
  | literal bytes => bytes.length
  | run n _ => n

/-- The group as written in a stream. -/
def bytes (f : Flavour) : Group → Bytes
  | literal bs => Flavour.literalControl bs.length :: bs
  | run n value => [f.runControl n, value]

@[simp] theorem length_expand (g : Group) : g.expand.length = g.count := by
  cases g <;> simp [expand, count]

end Group

/-- The bytes that groups stand for together. -/
def expand (groups : List Group) : Bytes := groups.flatMap Group.expand

/-- The stream that groups make up. -/
def stream (f : Flavour) (groups : List Group) : Bytes := groups.flatMap (Group.bytes f)

theorem length_expand_cons (g : Group) (groups : List Group) :
    (expand (g :: groups)).length = g.count + (expand groups).length := by
  simp [expand]

theorem length_stream_cons (f : Flavour) (g : Group) (groups : List Group) :
    (stream f (g :: groups)).length = (g.bytes f).length + (stream f groups).length := by
  simp [stream]

end ClassicIcons.RunLength
