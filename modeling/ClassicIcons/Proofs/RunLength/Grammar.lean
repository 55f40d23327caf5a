import ClassicIcons.RunLength.Unpack

/-! Which streams can be unpacked.

A complete group is a control byte with all its operands (`Complete`), and a stream
can be unpacked to `n` bytes just if it starts with complete groups that stand for
`n` bytes (`Spells`). The unpacker takes such groups off one by one, from any point
of its work (`groupsFrom_append`), and it takes nothing else
(`grouped_of_groupsFrom_eq_ok`, `grouped_of_groupsFrom_eq_error`). So all that can be
wrong is the one group where it stops: it announces more than is wanted (`Overruns`),
or it is not all there. `unpackInto?_grammar` puts this together. -/
namespace ClassicIcons.RunLength

/-- How many copies the control byte of a run asks for. -/
def Flavour.copies (f : Flavour) (c : UInt8) : Nat :=
  match f with
  | .packBits => 257 - c.toNat
  | .icns => c.toNat - 125

/-- How many bytes the group of a control byte stands for. -/
def Flavour.announced (f : Flavour) (c : UInt8) : Nat :=
  if c.toNat < 128 then c.toNat + 1 else f.copies c

/-- The bytes of a complete group. -/
inductive Complete (f : Flavour) : Group → Bytes → Prop
  | literal {c : UInt8} {bytes : Bytes} (hc : c.toNat < 128) (hlength : bytes.length = c.toNat + 1) :
      Complete f (.literal bytes) (c :: bytes)
  | run {c value : UInt8} (hc : 128 ≤ c.toNat) : Complete f (.run (f.copies c) value) [c, value]

/-- The bytes of complete groups, one behind another. -/
inductive Grouped (f : Flavour) : List Group → Bytes → Prop
  | nil : Grouped f [] []
  | cons {g : Group} {groups : List Group} {front rest : Bytes} (hg : Complete f g front)
      (h : Grouped f groups rest) : Grouped f (g :: groups) (front ++ rest)

/-- The first `k` bytes are complete groups that stand for `out`. -/
def Flavour.Spells (f : Flavour) (b : Bytes) (k : Nat) (out : Bytes) : Prop :=
  k ≤ b.length ∧ ∃ groups, Grouped f groups (b.take k) ∧ expand groups = out

/-- Behind complete groups for fewer than `n` bytes there is a control byte that
announces more than are still missing, whether or not its operands are there. -/
def Flavour.Overruns (f : Flavour) (b : Bytes) (n : Nat) : Prop :=
  ∃ k out c, f.Spells b k out ∧ out.length < n ∧ b[k]? = some c ∧ n - out.length < f.announced c

/-! ### One group -/

namespace Flavour

theorem control_of_lt (f : Flavour) {c : UInt8} (hc : c.toNat < 128) :
    f.control c = .literal (c.toNat + 1) :=
  if_pos (UInt8.lt_iff_toNat_lt.2 hc)

theorem control_of_le (f : Flavour) {c : UInt8} (hc : 128 ≤ c.toNat) :
    f.control c = .run (f.copies c) := by
  have hlt : ¬ c < 128 := fun h => Nat.not_lt.2 hc (UInt8.lt_iff_toNat_lt.1 h)
  cases f <;> exact if_neg hlt

theorem count_control (f : Flavour) (c : UInt8) : (f.control c).count = f.announced c := by
  unfold announced
  split
  · rename_i hc
    rw [f.control_of_lt hc]
    rfl
  · rename_i hc
    rw [f.control_of_le (Nat.not_lt.1 hc)]
    rfl

end Flavour

theorem Complete.exists_cons {f : Flavour} {g : Group} {front : Bytes} (h : Complete f g front) :
    ∃ c operands, front = c :: operands ∧ g.count = f.announced c := by
  cases h with
  | literal hc hlength => exact ⟨_, _, rfl, by rw [Flavour.announced, if_pos hc, ← hlength]; rfl⟩
  | run hc => exact ⟨_, _, rfl, by rw [Flavour.announced, if_neg (Nat.not_lt.2 hc)]; rfl⟩

theorem Complete.count_pos {f : Flavour} {g : Group} {front : Bytes} (h : Complete f g front) :
    0 < g.count := by
  obtain ⟨c, _, -, hcount⟩ := h.exists_cons
  rw [hcount, ← f.count_control]
  exact f.control_count_pos c

namespace Flavour

/-- The operands that a control byte asks for make its group complete. -/
theorem operands_eq_some_iff {f : Flavour} {c : UInt8} {b rest : Bytes} {g : Group} :
    operands (f.control c) b = some (g, rest) ↔
      ∃ front, Complete f g (c :: front) ∧ b = front ++ rest := by
  by_cases hc : c.toNat < 128
  · rw [f.control_of_lt hc]
    simp only [operands, Option.map_eq_some_iff, Prod.exists, Bytes.split?_eq_some_iff, Prod.mk.injEq]
    constructor
    · intro h
      obtain ⟨front, rest, ⟨rfl, hlength⟩, rfl, rfl⟩ := h
      exact ⟨front, .literal hc hlength, rfl⟩
    · intro h
      obtain ⟨front, hg, rfl⟩ := h
      cases hg with
      | literal _ hlength => exact ⟨front, rest, ⟨rfl, hlength⟩, rfl, rfl⟩
      | run hc' => exact absurd hc (Nat.not_lt.2 hc')
  · rw [f.control_of_le (Nat.not_lt.1 hc)]
    cases b with
    | nil =>
      constructor
      · intro h
        cases h
      · intro h
        obtain ⟨front, hg, hb⟩ := h
        cases hg with
        | literal hc' => exact absurd hc' hc
        | run => cases hb
    | cons value b =>
      simp only [operands, Option.some.injEq, Prod.mk.injEq]
      constructor
      · intro h
        obtain ⟨rfl, rfl⟩ := h
        exact ⟨[value], .run (Nat.not_lt.1 hc), rfl⟩
      · intro h
        obtain ⟨front, hg, hb⟩ := h
        cases hg with
        | literal hc' => exact absurd hc' hc
        | run =>
          cases hb
          exact ⟨rfl, rfl⟩

/-- What is taken off the front is a complete group, of no more than is wanted. -/
theorem group_eq_ok_iff {f : Flavour} {expected wanted : Nat} {b rest : Bytes} {g : Group} :
    f.group expected wanted b = .ok (g, rest) ↔
      ∃ front, Complete f g front ∧ b = front ++ rest ∧ g.count ≤ wanted := by
  cases b with
  | nil =>
    constructor
    · intro h
      cases h
    · intro h
      obtain ⟨front, hg, hb, -⟩ := h
      obtain ⟨c, operands, rfl, -⟩ := hg.exists_cons
      cases hb
  | cons c b =>
    have hfront : (∃ front, Complete f g front ∧ c :: b = front ++ rest ∧ g.count ≤ wanted) ↔
        f.announced c ≤ wanted ∧ operands (f.control c) b = some (g, rest) := by
      rw [operands_eq_some_iff]
      constructor
      · intro h
        obtain ⟨front, hg, hb, hle⟩ := h
        obtain ⟨c', operands, rfl, hcount⟩ := hg.exists_cons
        cases hb
        exact ⟨hcount ▸ hle, operands, hg, rfl⟩
      · intro h
        obtain ⟨hle, operands, hg, rfl⟩ := h
        obtain ⟨c', operands', heq, hcount⟩ := hg.exists_cons
        cases heq
        exact ⟨c :: operands, hg, rfl, hcount ▸ hle⟩
    rw [hfront, group, count_control]
    split
    · rename_i hlt
      simp [Nat.not_le.2 hlt]
    · rename_i hle
      rw [and_iff_right (Nat.not_lt.1 hle)]
      cases operands (f.control c) b <;> simp

/-- A group is refused for its control byte alone. -/
theorem group_eq_overrun_iff {f : Flavour} {expected wanted n : Nat} {b : Bytes} :
    f.group expected wanted b = .error (.overrun n) ↔
      n = expected ∧ ∃ c, b[0]? = some c ∧ wanted < f.announced c := by
  cases b with
  | nil => simp [group]
  | cons c b =>
    simp only [group, count_control, List.getElem?_cons_zero, Option.some.injEq, exists_eq_left']
    split
    · rename_i hlt
      simp [hlt, eq_comm]
    · rename_i hle
      cases operands (f.control c) b <;> simp [hle]

theorem error_of_group {f : Flavour} {expected wanted : Nat} {b : Bytes} {e : Error}
    (h : f.group expected wanted b = .error e) : e = .overrun expected ∨ e = .truncated := by
  cases e with
  | truncated => exact .inr rfl
  | overrun n => exact .inl (by rw [(group_eq_overrun_iff.1 h).1])

/-! ### All groups -/

/-- From any point of the unpacking: complete groups of no more than is wanted are
taken, and it goes on behind them. -/
theorem groupsFrom_append {f : Flavour} {groups : List Group} {front : Bytes}
    (h : Grouped f groups front) {wanted : Nat} (hw : (expand groups).length ≤ wanted)
    (expected : Nat) (taken : List Group) (rest : Bytes) :
    f.groupsFrom expected wanted taken (front ++ rest) =
      f.groupsFrom expected (wanted - (expand groups).length) (groups.reverse ++ taken) rest := by
  induction h generalizing wanted taken with
  | nil => rfl
  | @cons g groups front behind hg _ ih =>
    have hpos := hg.count_pos
    rw [length_expand_cons] at hw ⊢
    -- The first group is taken, as it is of no more than is wanted.
    have hgroup : f.group expected wanted (front ++ (behind ++ rest)) = .ok (g, behind ++ rest) :=
      group_eq_ok_iff.2 ⟨front, hg, rfl, by omega⟩
    rw [List.append_assoc, groupsFrom_of_group (by omega) hgroup, ih (by omega), Nat.sub_sub]
    simp

/-- Unpacking that succeeds has taken complete groups, of all that was wanted. -/
theorem grouped_of_groupsFrom_eq_ok {f : Flavour} {expected wanted : Nat} {taken all : List Group}
    {b rest : Bytes} (h : f.groupsFrom expected wanted taken b = .ok (all, rest)) :
    ∃ groups front, Grouped f groups front ∧ b = front ++ rest ∧ all = taken.reverse ++ groups ∧
      (expand groups).length = wanted := by
  fun_induction groupsFrom f expected wanted taken b with
  | case1 taken b =>
    cases h
    exact ⟨[], [], .nil, rfl, (List.append_nil _).symm, rfl⟩
  | case2 wanted taken b hw e he => cases h
  | case3 wanted taken b hw g behind hg _ ih =>
    obtain ⟨front, hcomplete, rfl, hle⟩ := group_eq_ok_iff.1 hg
    obtain ⟨groups, front', hgrouped, rfl, rfl, hlength⟩ := ih h
    refine ⟨g :: groups, front ++ front', .cons hcomplete hgrouped, ?_, ?_, ?_⟩
    · rw [List.append_assoc]
    · simp
    · rw [length_expand_cons]
      omega

/-- Unpacking that fails has taken complete groups too, and fails at the next one. -/
theorem grouped_of_groupsFrom_eq_error {f : Flavour} {expected wanted : Nat} {taken : List Group}
    {b : Bytes} {e : Error} (h : f.groupsFrom expected wanted taken b = .error e) :
    ∃ groups front rest, Grouped f groups front ∧ b = front ++ rest ∧
      (expand groups).length < wanted ∧
      f.group expected (wanted - (expand groups).length) rest = .error e := by
  fun_induction groupsFrom f expected wanted taken b with
  | case1 taken b => cases h
  | case2 wanted taken b hw e' he =>
    cases h
    exact ⟨[], [], b, .nil, rfl, Nat.pos_of_ne_zero hw, he⟩
  | case3 wanted taken b hw g behind hg _ ih =>
    obtain ⟨front, hcomplete, rfl, hle⟩ := group_eq_ok_iff.1 hg
    obtain ⟨groups, front', rest, hgrouped, rfl, hlt, herror⟩ := ih h
    have hlength := length_expand_cons g groups
    refine ⟨g :: groups, front ++ front', rest, .cons hcomplete hgrouped, ?_, by omega, ?_⟩
    · rw [List.append_assoc]
    · rw [hlength, ← Nat.sub_sub]
      exact herror

theorem groupsFrom_of_group_error {f : Flavour} {expected wanted : Nat} {b : Bytes} {e : Error}
    (hw : wanted ≠ 0) (h : f.group expected wanted b = .error e) (taken : List Group) :
    f.groupsFrom expected wanted taken b = .error e := by
  rw [groupsFrom, if_neg hw]
  split
  · rename_i he
    rw [h] at he
    cases he
    rfl
  · rename_i hg
    rw [h] at hg
    cases hg

/-! ### Streams -/

theorem unpack_eq_ok_iff {f : Flavour} {b out rest : Bytes} {n : Nat} :
    f.unpack b n = .ok (out, rest) ↔
      ∃ groups front, Grouped f groups front ∧ b = front ++ rest ∧ expand groups = out ∧
        out.length = n := by
  constructor
  · intro h
    unfold unpack at h
    split at h
    · rename_i all rest' hgroups
      cases h
      obtain ⟨groups, front, hgrouped, hb, hall, hlength⟩ := grouped_of_groupsFrom_eq_ok hgroups
      rw [List.reverse_nil, List.nil_append] at hall
      subst hall
      exact ⟨_, front, hgrouped, hb, rfl, hlength⟩
    · cases h
  · intro h
    obtain ⟨groups, front, hgrouped, rfl, hout, hlength⟩ := h
    subst hout hlength
    rw [unpack, groupsFrom_append hgrouped (Nat.le_refl _), Nat.sub_self, groupsFrom_zero]
    simp

/-- What stands behind the groups that are wanted is left alone. -/
theorem unpack_append {f : Flavour} {b out rest : Bytes} {n : Nat} (h : f.unpack b n = .ok (out, rest))
    (tail : Bytes) : f.unpack (b ++ tail) n = .ok (out, rest ++ tail) := by
  obtain ⟨groups, front, hgrouped, rfl, hout, hlength⟩ := unpack_eq_ok_iff.1 h
  exact unpack_eq_ok_iff.2 ⟨groups, front, hgrouped, List.append_assoc .., hout, hlength⟩

theorem unpackAt_zero_eq_error_iff {f : Flavour} {b : Bytes} {n : Nat} {e : Error} :
    f.unpackAt b 0 n = .error e ↔ f.groupsFrom n n [] b = .error e := by
  rw [unpackAt, unpack, List.drop_zero]
  cases f.groupsFrom n n [] b <;> simp

/-- **What can be unpacked is what starts with groups of just the wanted length.** -/
theorem unpackAt_eq_ok_iff {f : Flavour} {b out : Bytes} {n k : Nat} :
    f.unpackAt b 0 n = .ok (out, k) ↔ f.Spells b k out ∧ out.length = n := by
  constructor
  · intro h
    unfold unpackAt at h
    split at h
    · rename_i values rest hunpack
      cases h
      obtain ⟨groups, front, hgrouped, hb, hout, hlength⟩ := unpack_eq_ok_iff.1 hunpack
      rw [List.drop_zero] at hb
      subst hb
      refine ⟨⟨Nat.sub_le _ _, groups, ?_, hout⟩, hlength⟩
      rw [List.length_append, Nat.add_sub_cancel, List.take_left]
      exact hgrouped
    · cases h
  · intro h
    obtain ⟨⟨hk, groups, hgrouped, hout⟩, hlength⟩ := h
    have hunpack : f.unpack b n = .ok (out, b.drop k) :=
      unpack_eq_ok_iff.2 ⟨groups, b.take k, hgrouped, (List.take_append_drop k b).symm, hout, hlength⟩
    rw [unpackAt, List.drop_zero, hunpack]
    simp only [List.length_drop]
    congr 2
    omega

/-- **Unpacking overruns just where a control byte announces too much.** -/
theorem unpackAt_eq_overrun_iff {f : Flavour} {b : Bytes} {n : Nat} :
    f.unpackAt b 0 n = .error (.overrun n) ↔ f.Overruns b n := by
  rw [unpackAt_zero_eq_error_iff]
  constructor
  · intro h
    obtain ⟨groups, front, rest, hgrouped, rfl, hlt, herror⟩ := grouped_of_groupsFrom_eq_error h
    obtain ⟨-, c, hc, hannounced⟩ := group_eq_overrun_iff.1 herror
    refine ⟨front.length, expand groups, c, ⟨?_, groups, ?_, rfl⟩, hlt, ?_, hannounced⟩
    · rw [List.length_append]
      exact Nat.le_add_right _ _
    · rw [List.take_left]
      exact hgrouped
    · rw [List.getElem?_append_right (Nat.le_refl _), Nat.sub_self]
      exact hc
  · intro h
    obtain ⟨k, out, c, ⟨hk, groups, hgrouped, rfl⟩, hlt, hc, hannounced⟩ := h
    have hnext : (b.drop k)[0]? = some c := by
      rw [List.getElem?_drop]
      exact hc
    have hfrom := groupsFrom_append hgrouped (Nat.le_of_lt hlt) n [] (b.drop k)
    rw [List.take_append_drop] at hfrom
    rw [hfrom]
    exact groupsFrom_of_group_error (by omega) (group_eq_overrun_iff.2 ⟨rfl, c, hnext, hannounced⟩) _

theorem error_of_unpackAt {f : Flavour} {b : Bytes} {n : Nat} {e : Error}
    (h : f.unpackAt b 0 n = .error e) : e = .overrun n ∨ e = .truncated := by
  obtain ⟨_, _, _, -, -, -, herror⟩ := grouped_of_groupsFrom_eq_error (unpackAt_zero_eq_error_iff.1 h)
  exact error_of_group herror

theorem unpackAt_eq_truncated_iff {f : Flavour} {b : Bytes} {n : Nat} :
    f.unpackAt b 0 n = .error .truncated ↔
      (¬ ∃ out k, f.Spells b k out ∧ out.length = n) ∧ ¬ f.Overruns b n := by
  simp only [← unpackAt_eq_ok_iff, ← unpackAt_eq_overrun_iff]
  constructor
  · intro h
    simp [h]
  · intro h
    obtain ⟨hok, hoverrun⟩ := h
    cases hresult : f.unpackAt b 0 n with
    | ok result => exact absurd ⟨_, _, hresult⟩ hok
    | error e =>
      rcases error_of_unpackAt hresult with rfl | rfl
      · exact absurd hresult hoverrun
      · rfl

/-! ### Shorter and longer streams -/

/-- Groups in the front of a stream are groups of the stream. -/
theorem Spells.of_take {f : Flavour} {b out : Bytes} {k k' : Nat} (h : f.Spells (b.take k') k out) :
    k ≤ k' ∧ f.Spells b k out := by
  obtain ⟨hk, groups, hgrouped, hout⟩ := h
  rw [List.length_take] at hk
  rw [List.take_take, Nat.min_eq_left (by omega)] at hgrouped
  exact ⟨by omega, by omega, groups, hgrouped, hout⟩

theorem Overruns.of_take {f : Flavour} {b : Bytes} {n k' : Nat} (h : f.Overruns (b.take k') n) :
    f.Overruns b n := by
  obtain ⟨k, out, c, hspells, hlt, hc, hannounced⟩ := h
  refine ⟨k, out, c, (Spells.of_take hspells).2, hlt, ?_, hannounced⟩
  rw [List.getElem?_take] at hc
  split at hc
  · exact hc
  · cases hc

theorem Spells.append {f : Flavour} {b out : Bytes} {k : Nat} (h : f.Spells b k out) (tail : Bytes) :
    f.Spells (b.take k ++ tail) k out := by
  obtain ⟨hk, groups, hgrouped, hout⟩ := h
  have hlength : (b.take k).length = k := by
    rw [List.length_take, Nat.min_eq_left hk]
  refine ⟨?_, groups, ?_, hout⟩
  · rw [List.length_append, hlength]
    exact Nat.le_add_right _ _
  · rw [List.take_append_of_le_length (Nat.le_of_eq hlength.symm), List.take_take, Nat.min_self]
    exact hgrouped

/-- **A stream is too short until its last byte**: no part of it can be unpacked to
the same length, and no part of it overruns. -/
theorem unpackAt_take {f : Flavour} {b out : Bytes} {n k k' : Nat}
    (h : f.unpackAt b 0 n = .ok (out, k)) (hk : k' < k) :
    f.unpackAt (b.take k') 0 n = .error .truncated := by
  -- If the part had any other answer, the whole would have it too.
  cases hpart : f.unpackAt (b.take k') 0 n with
  | ok result =>
    obtain ⟨out', k''⟩ := result
    obtain ⟨hspells, hlength⟩ := unpackAt_eq_ok_iff.1 hpart
    obtain ⟨hle, hwhole⟩ := Spells.of_take hspells
    rw [unpackAt_eq_ok_iff.2 ⟨hwhole, hlength⟩] at h
    cases h
    exact absurd hk (Nat.not_lt.2 hle)
  | error e =>
    rcases error_of_unpackAt hpart with rfl | rfl
    · have hoverruns := Overruns.of_take (unpackAt_eq_overrun_iff.1 hpart)
      rw [unpackAt_eq_overrun_iff.2 hoverruns] at h
      cases h
    · rfl

/-! ### Room for the output -/

/-- **The grammar of streams.** If there can be room for `n` bytes, unpacking to `n` bytes
succeeds with `out`, and stops behind `k` bytes, just if those are complete groups that
stand for `out`, and `out` has `n` bytes. It overruns just where a control byte announces
too much, and in all other cases the stream is truncated. What follows the groups does not
matter, and none of their bytes can be missing. -/
theorem unpackInto?_grammar (f : Flavour) (b : Bytes) {n : Nat} (hn : n ≤ maxLength) :
    (∀ out k, f.unpackInto? b 0 n = some (.ok (out, k)) ↔ f.Spells b k out ∧ out.length = n) ∧
    (f.unpackInto? b 0 n = some (.error (.overrun n)) ↔ f.Overruns b n) ∧
    (f.unpackInto? b 0 n = some (.error .truncated) ↔
      (¬ ∃ out k, f.Spells b k out ∧ out.length = n) ∧ ¬ f.Overruns b n) ∧
    (∃ result, f.unpackInto? b 0 n = some result ∧
      ∀ e, result = .error e → (e = .overrun n ∨ e = .truncated) ∧ e.kind = .invalidData) ∧
    ∀ out k, f.unpackInto? b 0 n = some (.ok (out, k)) →
      (∀ tail, f.unpackInto? (b.take k ++ tail) 0 n = some (.ok (out, k))) ∧
      ∀ k', k' < k → f.unpackInto? (b.take k') 0 n = some (.error .truncated) := by
  have hroom (b : Bytes) : f.unpackInto? b 0 n = some (f.unpackAt b 0 n) := if_pos hn
  simp only [hroom, Option.some.injEq]
  refine ⟨fun _ _ => unpackAt_eq_ok_iff, unpackAt_eq_overrun_iff, unpackAt_eq_truncated_iff, ?_, ?_⟩
  · refine ⟨_, rfl, fun e h => ?_⟩
    have he := error_of_unpackAt h
    refine ⟨he, ?_⟩
    rcases he with rfl | rfl <;> rfl
  · intro out k h
    obtain ⟨hspells, hlength⟩ := unpackAt_eq_ok_iff.1 h
    exact ⟨fun tail => unpackAt_eq_ok_iff.2 ⟨hspells.append tail, hlength⟩, fun _ => unpackAt_take h⟩

/-- The longest run of the older flavour, which no packer writes. -/
theorem unpackInto?_grammar_of_longest_run :
    129 ≤ maxLength ∧ 128 ≤ maxLength ∧
    packBits.unpackInto? [0x80, 0x11, 5] 0 129 = some (.ok (List.replicate 129 0x11, 2)) ∧
    (∀ tail, packBits.unpackInto? ([0x80, 0x11] ++ tail) 0 129 =
      some (.ok (List.replicate 129 0x11, 2))) ∧
    packBits.unpackInto? [0x80] 0 129 = some (.error .truncated) ∧
    packBits.unpackInto? [0x80] 0 128 = some (.error (.overrun 128)) := by
  have hcomplete : Complete packBits (.run 129 0x11) [0x80, 0x11] := .run (c := 0x80) (by decide)
  have hgrouped : Grouped packBits [.run 129 0x11] [0x80, 0x11] := .cons hcomplete .nil
  have hspells : packBits.Spells [0x80, 0x11, 5] 2 (List.replicate 129 0x11) :=
    ⟨by decide, _, hgrouped, rfl⟩
  have hoverruns : packBits.Overruns [0x80] 128 :=
    ⟨0, [], 0x80, ⟨by decide, [], .nil, rfl⟩, by decide, rfl, by decide⟩
  have hrun : 129 ≤ maxLength := by decide
  have hless : 128 ≤ maxLength := by decide
  obtain ⟨hok, -, -, -, hends⟩ := unpackInto?_grammar packBits [0x80, 0x11, 5] hrun
  have hunpack := (hok _ 2).2 ⟨hspells, List.length_replicate⟩
  obtain ⟨htail, htake⟩ := hends _ _ hunpack
  exact ⟨hrun, hless, hunpack, htail, htake 1 (by decide),
    (unpackInto?_grammar packBits [0x80] hless).2.1.2 hoverruns⟩

/-- If there can be no room, a stream that ends too early is not even looked at. -/
theorem unpackInto?_of_no_room :
    (¬ ∃ out k, packBits.Spells [] k out ∧ out.length = UInt64.size - 1) ∧
    ¬ ∃ e, packBits.unpackInto? [] 0 (UInt64.size - 1) = some (.error e) := by
  have hshort : packBits.unpackAt [] 0 (UInt64.size - 1) = .error .truncated :=
    unpackAt_zero_eq_error_iff.2 (groupsFrom_of_group_error (by decide) rfl [])
  refine ⟨(unpackAt_eq_truncated_iff.1 hshort).1, fun h => ?_⟩
  obtain ⟨e, h⟩ := h
  rw [unpackInto?, if_neg (by decide)] at h
  cases h

end Flavour
end ClassicIcons.RunLength
