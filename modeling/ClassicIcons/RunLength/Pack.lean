import ClassicIcons.RunLength.Group

/-! Packing bytes into groups.

From the front: three or more equal bytes become a run, as long as the flavour
allows; anything else becomes a literal of up to 128 bytes, which stops where
three equal bytes follow. `expand_groups`: the groups stand for the bytes that
were packed. -/
namespace ClassicIcons.RunLength

/-- The shortest run that is written as a run. -/
def minRun : Nat := 3

/-- The longest literal. -/
def maxLiteral : Nat := 128

/-- How many equal bytes stand in front, counted up to `limit`. -/
def leading (limit : Nat) : Bytes → Nat
  | [] => 0
  | x :: b => (((x :: b).take limit).takeWhile (· == x)).length

/-- The bytes before the first three equal ones, at most `limit`. -/
def plain : (limit : Nat) → Bytes → Bytes
  | 0, _ => []
  | _, [] => []
  | limit + 1, x :: b => if leading minRun (x :: b) < minRun then x :: plain limit b else []

theorem leading_le_limit (limit : Nat) (b : Bytes) : leading limit b ≤ limit := by
  cases b with
  | nil => simp [leading]
  | cons x b =>
    refine Nat.le_trans ( List.takeWhile_prefix _).length_le ?_
    simp only [List.length_take]
    omega

/-- What is counted in front is that many copies of the first byte. -/
theorem replicate_leading (limit : Nat) (x : UInt8) (b : Bytes) :
    List.replicate (leading limit (x :: b)) x = (x :: b).take (leading limit (x :: b)) := by
  have hp : ((x :: b).take limit).takeWhile (· == x) <+: x :: b :=
    ( List.takeWhile_prefix _).trans ( List.take_prefix _ _)
  have he (y : UInt8) (hy : y ∈ ((x :: b).take limit).takeWhile (· == x)) : y = x := by
    have := List.all_eq_true.1 List.all_takeWhile y hy
    simpa using this
  rw [leading, ← List.prefix_iff_eq_take.1 hp]
  exact (List.eq_replicate_of_mem he).symm

theorem plain_isPrefix (limit : Nat) (b : Bytes) : plain limit b <+: b := by
  induction limit generalizing b with
  | zero => simp [plain]
  | succ limit ih =>
    cases b with
    | nil => simp [plain]
    | cons x b =>
      rw [plain]
      split
      · exact List.cons_prefix_cons.2 ⟨rfl, ih b⟩
      · exact List.nil_prefix

theorem length_plain_le (limit : Nat) (b : Bytes) : (plain limit b).length ≤ limit := by
  induction limit generalizing b with
  | zero => simp [plain]
  | succ limit ih =>
    cases b with
    | nil => simp [plain]
    | cons x b =>
      rw [plain]
      split
      · exact Nat.succ_le_succ (ih b)
      · exact Nat.zero_le _

theorem leading_cons (limit : Nat) (x : UInt8) (b : Bytes) :
    leading limit (x :: b) = min limit ((x :: b).takeWhile (· == x)).length := by
  rw [leading, ← List.take_takeWhile, List.length_take]

/-- Counting further finds no fewer equal bytes. -/
theorem leading_mono {limit limit' : Nat} (h : limit ≤ limit') (b : Bytes) :
    leading limit b ≤ leading limit' b := by
  cases b with
  | nil => simp [leading]
  | cons x b =>
    rw [leading_cons, leading_cons]
    omega

/-- Where no run starts, the first byte is plain. -/
theorem length_plain_pos {limit limit' : Nat} {x : UInt8} {b : Bytes} (hl : 0 < limit)
    (hl' : minRun ≤ limit') (h : ¬minRun ≤ leading limit' (x :: b)) :
    0 < (plain limit (x :: b)).length := by
  have hlt : leading minRun (x :: b) < minRun := by
    have := leading_mono hl' (x :: b)
    omega
  cases limit with
  | zero => cases hl
  | succ limit => simp [plain, hlt]

namespace Flavour

theorem minRun_le_maxRun (f : Flavour) : minRun ≤ f.maxRun := by cases f <;> decide

/-- The groups that bytes are packed into. -/
def groups (f : Flavour) : Bytes → List Group
  | [] => []
  | x :: b =>
    let n := leading f.maxRun (x :: b)
    if minRun ≤ n then
      .run n x :: groups f ((x :: b).drop n)
    else
      let bytes := plain maxLiteral (x :: b)
      .literal bytes :: groups f ((x :: b).drop (max 1 bytes.length))
termination_by b => b.length
decreasing_by all_goals simp only [List.length_drop, List.length_cons, minRun] at *; omega

theorem expand_groups (f : Flavour) (b : Bytes) : expand (f.groups b) = b := by
  fun_induction f.groups b with
  | case1 => rfl
  | case2 x b n hn ih =>
    rw [expand, List.flatMap_cons, ← expand, ih, Group.expand, replicate_leading,
      List.take_append_drop]
  | case3 x b n hn bytes ih =>
    have hpos : 0 < bytes.length := length_plain_pos (by decide) f.minRun_le_maxRun hn
    rw [expand, List.flatMap_cons, ← expand, ih, Group.expand, Nat.max_eq_right hpos]
    exact List.prefix_iff_eq_append.1 (plain_isPrefix maxLiteral (x :: b))

end Flavour

/-! ### Packing every n-th byte -/

/-- Which bytes to take: the one at `base` and every `stride`-th after it. -/
structure Sampling where
  base : Nat
  stride : Nat
  stride_pos : 0 < stride := by decide

namespace Sampling

/-- The first byte and every `stride`-th after it. -/
def everyNth (stride : Nat) : Bytes → Bytes
  | [] => []
  | x :: b => x :: everyNth stride (b.drop (stride - 1))
termination_by b => b.length
decreasing_by simp only [List.length_drop, List.length_cons]; omega

/-- A sampling, unless it would take the same byte for ever. -/
def of? (base stride : Nat) : Option Sampling :=
  if h : 0 < stride then some ⟨base, stride, h⟩ else none

def samples (s : Sampling) (b : Bytes) : Bytes := everyNth s.stride (b.drop s.base)

/-- Every byte. -/
def all : Sampling := { base := 0, stride := 1 }

theorem getElem?_everyNth {stride : Nat} (hs : 0 < stride) (b : Bytes) (i : Nat) :
    (everyNth stride b)[i]? = b[i * stride]? := by
  induction i generalizing b with
  | zero => cases b <;> simp [everyNth]
  | succ i ih =>
    cases b with
    | nil => simp [everyNth]
    | cons x b =>
      have hstep : (i + 1) * stride = stride - 1 + i * stride + 1 := by
        rw [Nat.succ_mul]
        omega
      rw [everyNth, List.getElem?_cons_succ, ih, List.getElem?_drop, hstep, List.getElem?_cons_succ]

/-- The samples are the bytes at `base`, `base + stride`, `base + 2 * stride`, … -/
theorem getElem?_samples (s : Sampling) (b : Bytes) (i : Nat) :
    (s.samples b)[i]? = b[s.base + i * s.stride]? := by
  rw [samples, getElem?_everyNth s.stride_pos, List.getElem?_drop]

/-- There is a sample as long as its byte is there. -/
theorem lt_length_samples_iff (s : Sampling) (b : Bytes) (i : Nat) :
    i < (s.samples b).length ↔ s.base + i * s.stride < b.length := by
  have hnone : (s.samples b)[i]? = none ↔ b[s.base + i * s.stride]? = none := by
    rw [getElem?_samples]
  rw [List.getElem?_eq_none_iff, List.getElem?_eq_none_iff] at hnone
  omega

@[simp] theorem samples_all (b : Bytes) : all.samples b = b := by
  apply List.ext_getElem?
  intro i
  rw [getElem?_samples]
  simp [all]

end Sampling

namespace Flavour

/-- Packs the sampled bytes, group by group, onto the end of a buffer, and counts
the bytes that this adds. -/
def write (f : Flavour) (buffer b : Bytes) (s : Sampling) : Bytes × Nat :=
  let out := (f.groups (s.samples b)).foldl (fun out g => out ++ g.bytes f) buffer.toArray
  (out.toList, out.size - buffer.length)

/-- The buffer with the sampled bytes packed onto its end. -/
def append (f : Flavour) (buffer b : Bytes) (s : Sampling) : Bytes := (f.write buffer b s).1

/-- Packs bytes into a stream. -/
def pack (f : Flavour) (b : Bytes) : Bytes := f.append [] b .all

theorem toList_foldl_bytes (f : Flavour) (groups : List Group) (out : Array UInt8) :
    (groups.foldl (fun out g => out ++ g.bytes f) out).toList = out.toList ++ stream f groups := by
  induction groups generalizing out with
  | nil => simp [stream]
  | cons g groups ih => simp [ih, stream]

theorem append_eq_stream (f : Flavour) (buffer b : Bytes) (s : Sampling) :
    f.append buffer b s = buffer ++ stream f (f.groups (s.samples b)) :=
  toList_foldl_bytes f _ _

theorem pack_eq_stream (f : Flavour) (b : Bytes) : f.pack b = stream f (f.groups b) := by
  rw [pack, append_eq_stream, Sampling.samples_all, List.nil_append]

theorem append_eq (f : Flavour) (buffer b : Bytes) (s : Sampling) :
    f.append buffer b s = buffer ++ f.pack (s.samples b) := by
  rw [append_eq_stream, pack_eq_stream]

/-- What was in the buffer stays, the packed samples come behind it, and the count
is theirs. -/
theorem write_eq (f : Flavour) (buffer b : Bytes) (s : Sampling) :
    f.write buffer b s = (buffer ++ f.pack (s.samples b), (f.pack (s.samples b)).length) := by
  apply Prod.ext
  · exact append_eq f buffer b s
  · have hlength := congrArg List.length (append_eq f buffer b s)
    rw [append, write, Array.length_toList, List.length_append] at hlength
    show _ - buffer.length = _
    rw [hlength, Nat.add_sub_cancel_left]

end Flavour

end ClassicIcons.RunLength
