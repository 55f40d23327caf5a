import Mathlib.Algebra.Order.Floor.Div
import Mathlib.GroupTheory.GroupAction.Ring
import ClassicIcons.Proofs.RunLength.Canonical

/-! How long packed bytes are.

Each group takes two bytes at least and stands for no more than the longest run does, so
there are two packed bytes at least for every longest run, whole or begun, that the bytes
could be made of (`le_length_pack`). And there is at most one packed byte more than bytes
for every 128 of them, whole or begun (`length_pack_le`). Of the groups only literals are
longer than what they stand for, each by its control byte; but a literal that is neither full
nor the last group has a run behind it, and that run spares the byte (`Paid`).

Both bounds are reached: by bytes without a run (`length_pack_of_plain`), and by equal bytes,
unless two are left over (`length_pack_replicate`). -/
namespace ClassicIcons.RunLength

/-! ### Rounding up -/

theorem add_ceilDiv {d : Nat} (hd : 0 < d) (n : Nat) : (d + n) ⌈/⌉ d = n ⌈/⌉ d + 1 := by
  rw [Nat.ceilDiv_eq_add_pred_div, Nat.ceilDiv_eq_add_pred_div, Nat.add_assoc,
    Nat.add_sub_assoc (Nat.le_trans hd (Nat.le_add_left d n)), Nat.add_div_left _ hd]

theorem ceilDiv_of_le {d n : Nat} (hpos : 0 < n) (hle : n ≤ d) : n ⌈/⌉ d = 1 := by
  have hd : 0 < d := Nat.lt_of_lt_of_le hpos hle
  apply Nat.le_antisymm
  · exact (ceilDiv_le_iff_le_mul hd).2 (by rwa [Nat.mul_one])
  · rw [Nat.ceilDiv_eq_add_pred_div, Nat.le_div_iff_mul_le hd]
    omega

theorem ceilDiv_le_add_ceilDiv {d : Nat} (hd : 0 < d) (m n : Nat) : n ⌈/⌉ d ≤ (m + n) ⌈/⌉ d :=
  (gc_mul_ceilDiv hd).monotone_l (Nat.le_add_left n m)

/-! ### At least -/

theorem Flavour.maxLiteral_le_maxRun (f : Flavour) : maxLiteral ≤ f.maxRun := by cases f <;> decide

theorem Flavour.maxRun_pos (f : Flavour) : 0 < f.maxRun :=
  Nat.lt_of_lt_of_le (by decide) f.minRun_le_maxRun

theorem Group.Writable.count_le {f : Flavour} {g : Group} (h : g.Writable f) : g.count ≤ f.maxRun := by
  cases g with
  | literal bytes => exact Nat.le_trans h.2 f.maxLiteral_le_maxRun
  | run n value => exact h.2

theorem Group.Writable.two_le_length {f : Flavour} {g : Group} (h : g.Writable f) :
    2 ≤ (g.bytes f).length := by
  cases g with
  | literal bytes => exact Nat.succ_le_succ h.1
  | run n value => exact Nat.le_refl 2

/-- No group stands for more than the longest run, and none takes less than two bytes. -/
theorem length_groups_bounds {f : Flavour} {groups : List Group} (h : ∀ g ∈ groups, g.Writable f) :
    (expand groups).length ≤ f.maxRun * groups.length ∧
      2 * groups.length ≤ (stream f groups).length := by
  induction groups with
  | nil => exact ⟨Nat.le_refl 0, Nat.le_refl 0⟩
  | cons g groups ih =>
    have hg := h g (List.mem_cons_self ..)
    obtain ⟨hexpand, hstream⟩ := ih fun g' hg' => h g' (List.mem_cons_of_mem g hg')
    have hcount := hg.count_le
    have hbytes := hg.two_le_length
    rw [length_expand_cons, length_stream_cons, List.length_cons, Nat.mul_succ, Nat.mul_succ]
    omega

/-- **Packing leaves two bytes at least for every longest run.** -/
theorem Flavour.le_length_pack (f : Flavour) (b : Bytes) :
    2 * (b.length ⌈/⌉ f.maxRun) ≤ (f.pack b).length := by
  obtain ⟨hexpand, hstream⟩ := length_groups_bounds (f.groups_writable b)
  rw [expand_groups] at hexpand
  have hgroups : b.length ⌈/⌉ f.maxRun ≤ (f.groups b).length :=
    (ceilDiv_le_iff_le_mul f.maxRun_pos).2 hexpand
  rw [pack_eq_stream]
  omega

/-! ### At most -/

/-- What a run in front has spared for the literal before it. -/
def credit : List Group → Nat
  | .run _ _ :: _ => 1
  | _ => 0

/-- The groups take no more than the bytes they stand for and one byte for every full literal,
whole or begun, that these could make, and have the credit left. -/
def Paid (f : Flavour) (groups : List Group) : Prop :=
  (stream f groups).length + credit groups ≤
    (expand groups).length + (expand groups).length ⌈/⌉ maxLiteral

theorem credit_literal (bytes : Bytes) (groups : List Group) :
    credit (.literal bytes :: groups) = 0 := rfl

theorem credit_run (n : Nat) (value : UInt8) (groups : List Group) :
    credit (.run n value :: groups) = 1 := rfl

/-- A run pays for itself, and for a literal before it. -/
theorem paid_run {f : Flavour} {n : Nat} {value : UInt8} {behind : List Group} (hn : minRun ≤ n)
    (h : Paid f behind) : Paid f (.run n value :: behind) := by
  have hthree : 3 ≤ n := hn
  have hbytes : (Group.bytes f (.run n value)).length = 2 := rfl
  have hround := ceilDiv_le_add_ceilDiv (d := maxLiteral) (by decide) n (expand behind).length
  unfold Paid at h ⊢
  rw [length_stream_cons, length_expand_cons, hbytes, Group.count, credit_run]
  omega

/-- A literal is paid for by its own bytes if it is full or the last group, and else by the run
behind it. -/
theorem paid_literal {f : Flavour} {bytes : Bytes} {behind : List Group}
    (hliteral : PlainLiteral bytes behind) (h : Paid f behind) : Paid f (.literal bytes :: behind) := by
  have hbytes : (Group.bytes f (.literal bytes)).length = bytes.length + 1 := rfl
  unfold Paid at h ⊢
  rw [length_stream_cons, length_expand_cons, hbytes, Group.count, credit_literal]
  rcases hliteral.maximal with hfull | rfl | ⟨n, value, rest, rfl⟩
  · -- 128 bytes more allow for one more byte, wherever the other literals end.
    rw [hfull, add_ceilDiv (by decide)]
    omega
  · show bytes.length + 1 ≤ bytes.length + bytes.length ⌈/⌉ maxLiteral
    rw [ceilDiv_of_le hliteral.least hliteral.most]
  · have hround := ceilDiv_le_add_ceilDiv (d := maxLiteral) (by decide) bytes.length
      (expand (.run n value :: rest)).length
    -- The literal may be too short to allow for anything; the control byte uses up the credit.
    rw [credit_run] at h
    omega

theorem Canonical.paid {f : Flavour} {groups : List Group} (h : Canonical f groups) : Paid f groups := by
  induction h with
  | nil => exact Nat.zero_le _
  | run hrun _ ih => exact paid_run hrun.least ih
  | literal hliteral _ ih => exact paid_literal hliteral ih

namespace Flavour

/-- **Packing adds at most one byte for every 128.** -/
theorem length_pack_le (f : Flavour) (b : Bytes) :
    (f.pack b).length ≤ b.length + b.length ⌈/⌉ maxLiteral := by
  have h := (f.canonical_groups b).paid
  rw [Paid, expand_groups] at h
  rw [pack_eq_stream]
  exact Nat.le_trans (Nat.le_add_right _ _) h

-- Three literals, but only the last one adds a byte.
example : (icns.pack [1, 2, 2, 2, 3, 4, 4, 4, 5]).length = 10 := by cbv

/-! ### The bounds are reached -/

/-- Bytes without a run are packed into full literals and one for the rest. -/
theorem length_pack_of_plain (f : Flavour) {b : Bytes} (h : ∀ i, ¬TripleAt b i) :
    (f.pack b).length = b.length + b.length ⌈/⌉ maxLiteral := by
  rw [pack_eq_stream]
  fun_induction f.groups b with
  | case1 => rfl
  | case2 x b n hn ih => exact absurd ((tripleAt_zero_iff f.minRun_le_maxRun).2 hn) (h 0)
  | case3 x b n hn bytes ih =>
    have hpos : 0 < bytes.length := length_plain_pos (by decide) f.minRun_le_maxRun hn
    have hmost : bytes.length ≤ maxLiteral := length_plain_le _ _
    have hlength : (x :: b).length = bytes.length + ((x :: b).drop bytes.length).length := by
      rw [← List.length_append, List.prefix_iff_eq_append.1 (plain_isPrefix maxLiteral (x :: b))]
    have hbytes : (Group.bytes f (.literal bytes)).length = bytes.length + 1 := rfl
    rw [Nat.max_eq_right hpos] at ih ⊢
    rw [length_stream_cons, hbytes, ih fun i => mt tripleAt_drop.1 (h (bytes.length + i)), hlength]
    rcases plain_ends maxLiteral (x :: b) with hfull | hnone | htriple
    · have hfull : bytes.length = maxLiteral := hfull
      rw [hfull, add_ceilDiv (by decide)]
      omega
    · have hnone : (x :: b).drop bytes.length = [] := hnone
      rw [hnone, List.length_nil, zero_ceilDiv]
      exact congrArg (bytes.length + ·) (ceilDiv_of_le hpos hmost).symm
    · exact absurd (tripleAt_drop.1 htriple) (h _)

theorem groups_replicate_add (f : Flavour) (n : Nat) (value : UInt8) :
    f.groups (List.replicate (f.maxRun + n) value) =
      .run f.maxRun value :: f.groups (List.replicate n value) := by
  rw [List.replicate_add]
  exact groups_run ⟨f.minRun_le_maxRun, Nat.le_refl _, .inl rfl⟩

/-- Fewer equal bytes than the longest run has make one group of two bytes: a literal, if there
is one byte, or a run. -/
theorem length_pack_replicate_of_lt {f : Flavour} {n : Nat} (value : UInt8) (hpos : 0 < n)
    (hlt : n < f.maxRun) (h : n ≠ 2) : (f.pack (List.replicate n value)).length = 2 := by
  by_cases hone : n = 1
  · subst hone
    have hplain (i : Nat) : ¬TripleAt [value] i := by simp [TripleAt]
    rw [List.replicate_one, f.length_pack_of_plain hplain, List.length_singleton,
      ceilDiv_of_le (by decide) (by decide)]
  · have hthree : 3 ≤ n := by omega
    have hrun : f.MaximalRun n value [] :=
      ⟨hthree, Nat.le_of_lt hlt, .inr (Option.some_ne_none value).symm⟩
    have hgroups := groups_run hrun
    rw [List.append_nil, f.groups_nil] at hgroups
    rw [pack_eq_stream, hgroups]
    rfl

/-- Equal bytes are packed into longest runs and one group for the rest, unless two bytes are
left, which are too few for a run. -/
theorem length_pack_replicate (f : Flavour) {n : Nat} (value : UInt8) (h : n % f.maxRun ≠ 2) :
    (f.pack (List.replicate n value)).length = 2 * (n ⌈/⌉ f.maxRun) := by
  have hpos := f.maxRun_pos
  induction n using Nat.strongRecOn with
  | ind n ih =>
    by_cases hlong : f.maxRun ≤ n
    · obtain ⟨rest, rfl⟩ := Nat.exists_eq_add_of_le hlong
      rw [Nat.add_mod_left] at h
      have hrest := ih rest (Nat.lt_add_of_pos_left hpos) h
      rw [pack_eq_stream] at hrest ⊢
      rw [groups_replicate_add, length_stream_cons, hrest, add_ceilDiv hpos, Nat.mul_succ, Nat.add_comm]
      rfl
    · have hlt : n < f.maxRun := Nat.not_le.1 hlong
      rw [Nat.mod_eq_of_lt hlt] at h
      cases n with
      | zero => rw [List.replicate_zero, pack_eq_stream, f.groups_nil, zero_ceilDiv]; rfl
      | succ n =>
        rw [length_pack_replicate_of_lt value (Nat.succ_pos n) hlt h,
          ceilDiv_of_le (Nat.succ_pos n) (Nat.le_of_lt hlt)]

end Flavour
end ClassicIcons.RunLength
