import ClassicIcons.Proofs.RunLength.RoundTrip

/-! The one stream that is written.

Bytes can be put into groups in many ways, and most of these ways can be unpacked. The
packer writes one of them, which can be told without it (`Canonical`): runs of three bytes
and more that could not be longer, and between them literals of which no byte starts three
equal ones, not even with what comes behind the literal. Nothing else has that form
(`Canonical.eq_groups`), and a group is written in one way only (`Complete.eq_bytes`). So a
stream is what the packer makes of the bytes it stands for just if its groups are of that
form: `pack_canonical`. -/
namespace ClassicIcons.RunLength

/-- Three equal bytes stand at a place. -/
def TripleAt (b : Bytes) (i : Nat) : Prop :=
  ∃ value, b[i]? = some value ∧ b[i + 1]? = some value ∧ b[i + 2]? = some value

/-- A run that could not be longer: it is as long as runs get, or what is behind it starts
with another byte. -/
structure Flavour.MaximalRun (f : Flavour) (n : Nat) (value : UInt8) (behind : Bytes) : Prop where
  least : minRun ≤ n
  most : n ≤ f.maxRun
  maximal : n = f.maxRun ∨ behind.head? ≠ some value

/-- A literal that misses no run, and that ends for one, or because it is full, or because
there is nothing else. -/
structure PlainLiteral (bytes : Bytes) (behind : List Group) : Prop where
  least : 1 ≤ bytes.length
  most : bytes.length ≤ maxLiteral
  plain : ∀ i, i < bytes.length → ¬TripleAt (bytes ++ expand behind) i
  maximal : bytes.length = maxLiteral ∨ behind = [] ∨ ∃ n value rest, behind = .run n value :: rest

/-- Groups of the form that is written. -/
inductive Canonical (f : Flavour) : List Group → Prop
  | nil : Canonical f []
  | run {n : Nat} {value : UInt8} {behind : List Group} (hrun : f.MaximalRun n value (expand behind))
      (h : Canonical f behind) : Canonical f (.run n value :: behind)
  | literal {bytes : Bytes} {behind : List Group} (hliteral : PlainLiteral bytes behind)
      (h : Canonical f behind) : Canonical f (.literal bytes :: behind)

theorem expand_run (n : Nat) (value : UInt8) (groups : List Group) :
    expand (.run n value :: groups) = List.replicate n value ++ expand groups := rfl

theorem expand_literal (bytes : Bytes) (groups : List Group) :
    expand (.literal bytes :: groups) = bytes ++ expand groups := rfl

/-! ### Counting equal bytes -/

theorem leading_zero (b : Bytes) : leading 0 b = 0 := Nat.le_zero.1 (leading_le_limit 0 b)

theorem leading_succ_cons (limit : Nat) (x : UInt8) (b : Bytes) :
    leading (limit + 1) (x :: b) = (if b.head? = some x then leading limit b else 0) + 1 := by
  cases b with
  | nil => simp [leading]
  | cons y b =>
    by_cases h : y = x
    · simp [leading, h]
    · cases limit <;> simp [leading, h]

/-- Behind the bytes that are counted there is another byte, unless the limit ended it. -/
theorem leading_maximal (limit : Nat) (x : UInt8) (b : Bytes) :
    leading limit (x :: b) = limit ∨ ((x :: b).drop (leading limit (x :: b))).head? ≠ some x := by
  induction limit generalizing b with
  | zero => exact .inl (leading_zero _)
  | succ limit ih =>
    rw [leading_succ_cons]
    by_cases hnext : b.head? = some x
    · obtain ⟨b, rfl⟩ := List.head?_eq_some_iff.1 hnext
      rw [if_pos hnext, List.drop_succ_cons]
      exact (ih b).imp (congrArg (· + 1)) id
    · rw [if_neg hnext]
      exact .inr hnext

/-- A run is counted to its end. -/
theorem leading_replicate_append {limit n : Nat} {x : UInt8} {b : Bytes} (hpos : 0 < n)
    (hle : n ≤ limit) (hend : n = limit ∨ b.head? ≠ some x) :
    leading limit (List.replicate n x ++ b) = n := by
  induction n generalizing limit with
  | zero => cases hpos
  | succ n ih =>
    obtain ⟨limit, rfl⟩ : ∃ m, limit = m + 1 := ⟨limit - 1, by omega⟩
    rw [List.replicate_succ, List.cons_append, leading_succ_cons]
    cases n with
    | zero =>
      rw [List.replicate_zero, List.nil_append]
      split
      · rename_i hnext
        have hlimit : limit = 0 := by
          rcases hend with hfull | hother
          · omega
          · exact absurd hnext hother
        rw [hlimit, leading_zero]
      · rfl
    | succ n =>
      have hnext : (List.replicate (n + 1) x ++ b).head? = some x := rfl
      rw [if_pos hnext, ih (Nat.succ_pos n) (by omega) (hend.imp (by omega) id)]

/-- Three equal bytes are what a run starts with. -/
theorem tripleAt_zero_iff {limit : Nat} (h : minRun ≤ limit) {b : Bytes} :
    TripleAt b 0 ↔ minRun ≤ leading limit b := by
  obtain ⟨limit, rfl⟩ : ∃ m, limit = m + 3 := ⟨limit - 3, (Nat.sub_add_cancel h).symm⟩
  rcases b with _ | ⟨x, _ | ⟨y, _ | ⟨z, b⟩⟩⟩
  · simp [TripleAt, leading, minRun]
  · simp [TripleAt, leading_succ_cons, minRun]
  · by_cases hy : y = x <;> simp [TripleAt, leading_succ_cons, minRun, hy]
  · by_cases hy : y = x <;> by_cases hz : z = y <;> simp_all [TripleAt, leading_succ_cons, minRun]

theorem tripleAt_drop {b : Bytes} {i place : Nat} :
    TripleAt (b.drop place) i ↔ TripleAt b (place + i) := by
  simp only [TripleAt, List.getElem?_drop, Nat.add_assoc]

theorem tripleAt_cons_succ {x : UInt8} {b : Bytes} {i : Nat} :
    TripleAt (x :: b) (i + 1) ↔ TripleAt b i := by
  rw [Nat.add_comm, ← tripleAt_drop, List.drop_one, List.tail_cons]

instance (b : Bytes) (i : Nat) : Decidable (TripleAt b i) :=
  decidable_of_decidable_of_iff (p := minRun ≤ leading minRun (b.drop i))
    (by rw [← tripleAt_zero_iff (Nat.le_refl _), tripleAt_drop, Nat.add_zero])

theorem tripleAt_replicate_append {n : Nat} (h : minRun ≤ n) (x : UInt8) (b : Bytes) :
    TripleAt (List.replicate n x ++ b) 0 := by
  obtain ⟨n, rfl⟩ : ∃ m, n = m + 3 := ⟨n - 3, (Nat.sub_add_cancel h).symm⟩
  exact ⟨x, rfl, rfl, rfl⟩

/-! ### Bytes without a run -/

/-- Plain bytes are taken up to the limit, the end, or the next three equal bytes. -/
theorem plain_append {limit : Nat} {front b : Bytes} (hle : front.length ≤ limit)
    (hplain : ∀ i, i < front.length → ¬TripleAt (front ++ b) i)
    (hend : front.length = limit ∨ b = [] ∨ TripleAt b 0) : plain limit (front ++ b) = front := by
  induction front generalizing limit with
  | nil =>
    rw [List.nil_append]
    rcases hend with rfl | rfl | htriple
    · rfl
    · cases limit <;> rfl
    · have hrun := (tripleAt_zero_iff (Nat.le_refl minRun)).1 htriple
      cases limit with
      | zero => rfl
      | succ limit =>
        cases b with
        | nil => rfl
        | cons x b => rw [plain, if_neg (Nat.not_lt.2 hrun)]
  | cons x front ih =>
    obtain ⟨limit, rfl⟩ : ∃ m, limit = m + 1 :=
      ⟨limit - 1, (Nat.sub_add_cancel (Nat.le_trans (Nat.succ_le_succ (Nat.zero_le _)) hle)).symm⟩
    have hfirst := hplain 0 (Nat.succ_pos _)
    rw [tripleAt_zero_iff (Nat.le_refl minRun), Nat.not_le] at hfirst
    rw [List.cons_append] at hfirst ⊢
    rw [plain, if_pos hfirst, ih (Nat.le_of_succ_le_succ hle)]
    · exact fun i hi h => hplain (i + 1) (Nat.succ_lt_succ hi) (tripleAt_cons_succ.2 h)
    · exact hend.imp Nat.succ.inj id

theorem not_tripleAt_of_plain {limit i : Nat} {b : Bytes} (h : i < (plain limit b).length) :
    ¬TripleAt b i := by
  induction limit generalizing b i with
  | zero => cases h
  | succ limit ih =>
    cases b with
    | nil => cases h
    | cons x b =>
      rw [plain] at h
      split at h
      · rename_i hlt
        cases i with
        | zero => rwa [tripleAt_zero_iff (Nat.le_refl minRun), Nat.not_le]
        | succ i =>
          rw [tripleAt_cons_succ]
          exact ih (Nat.lt_of_succ_lt_succ h)
      · cases h

theorem plain_ends (limit : Nat) (b : Bytes) :
    (plain limit b).length = limit ∨ b.drop (plain limit b).length = [] ∨
      TripleAt (b.drop (plain limit b).length) 0 := by
  induction limit generalizing b with
  | zero => exact .inl rfl
  | succ limit ih =>
    cases b with
    | nil => exact .inr (.inl rfl)
    | cons x b =>
      rw [plain]
      split
      · exact (ih b).imp (congrArg (· + 1)) id
      · rename_i hrun
        exact .inr (.inr ((tripleAt_zero_iff (Nat.le_refl minRun)).2 (Nat.not_lt.1 hrun)))

/-! ### The form of what is written -/

namespace Flavour

/-- Bytes that start with three equal ones are packed into a run and more. -/
theorem groups_of_tripleAt (f : Flavour) {b : Bytes} (h : TripleAt b 0) :
    ∃ n value rest, f.groups b = .run n value :: rest := by
  have hrun := (tripleAt_zero_iff f.minRun_le_maxRun).1 h
  cases b with
  | nil => cases hrun
  | cons x b =>
    rw [groups]
    simp only [if_pos hrun]
    exact ⟨_, _, _, rfl⟩

theorem groups_run {f : Flavour} {n : Nat} {value : UInt8} {b : Bytes}
    (h : f.MaximalRun n value b) :
    f.groups (List.replicate n value ++ b) = .run n value :: f.groups b := by
  have hpos : 0 < n := Nat.lt_of_lt_of_le (by decide) h.least
  have hcount := leading_replicate_append hpos h.most h.maximal
  obtain ⟨n, rfl⟩ : ∃ m, n = m + 1 := ⟨n - 1, (Nat.sub_add_cancel hpos).symm⟩
  rw [List.replicate_succ, List.cons_append] at hcount ⊢
  rw [groups]
  simp only [hcount, if_pos h.least]
  rw [List.drop_succ_cons, List.drop_left' List.length_replicate]

theorem groups_literal {f : Flavour} {bytes b : Bytes} (hleast : 1 ≤ bytes.length)
    (hmost : bytes.length ≤ maxLiteral) (hplain : ∀ i, i < bytes.length → ¬TripleAt (bytes ++ b) i)
    (hend : bytes.length = maxLiteral ∨ b = [] ∨ TripleAt b 0) :
    f.groups (bytes ++ b) = .literal bytes :: f.groups b := by
  have hbytes := plain_append hmost hplain hend
  have hfirst := hplain 0 hleast
  rw [tripleAt_zero_iff f.minRun_le_maxRun] at hfirst
  have hmax : max 1 bytes.length = bytes.length := Nat.max_eq_right hleast
  cases bytes with
  | nil => cases hleast
  | cons x bytes =>
    rw [List.cons_append] at hbytes hfirst ⊢
    rw [groups]
    simp only [if_neg hfirst, hbytes, hmax]
    rw [← List.cons_append, List.drop_left]

theorem groups_nil (f : Flavour) : f.groups [] = [] := by rw [groups]

/-- What the packer writes is of the form. -/
theorem canonical_groups (f : Flavour) (b : Bytes) : Canonical f (f.groups b) := by
  fun_induction f.groups b with
  | case1 => exact .nil
  | case2 x b n hn ih =>
    refine .run ⟨hn, leading_le_limit _ _, ?_⟩ ih
    rw [expand_groups]
    exact leading_maximal f.maxRun x b
  | case3 x b n hn bytes ih =>
    have hpos : 0 < bytes.length := length_plain_pos (by decide) f.minRun_le_maxRun hn
    have hsplit : bytes ++ (x :: b).drop bytes.length = x :: b :=
      List.prefix_iff_eq_append.1 (plain_isPrefix maxLiteral (x :: b))
    rw [Nat.max_eq_right hpos] at ih ⊢
    refine .literal ⟨hpos, length_plain_le _ _, ?_, ?_⟩ ih
    · rw [expand_groups, hsplit]
      exact fun i => not_tripleAt_of_plain
    · rcases plain_ends maxLiteral (x :: b) with hfull | hnone | htriple
      · exact .inl hfull
      · exact .inr (.inl (by rw [hnone, groups_nil]))
      · exact .inr (.inr (f.groups_of_tripleAt htriple))

end Flavour

/-- Only the groups that the packer writes are of the form. -/
theorem Canonical.eq_groups {f : Flavour} {groups : List Group} (h : Canonical f groups) :
    groups = f.groups (expand groups) := by
  induction h with
  | nil => exact f.groups_nil.symm
  | run hrun h ih => rw [expand_run, Flavour.groups_run hrun, ← ih]
  | literal hliteral h ih =>
    rw [expand_literal, Flavour.groups_literal hliteral.least hliteral.most hliteral.plain, ← ih]
    rcases hliteral.maximal with hfull | rfl | ⟨n, value, rest, rfl⟩
    · exact .inl hfull
    · exact .inr (.inl rfl)
    · cases h with
      | run hrun => exact .inr (.inr (tripleAt_replicate_append hrun.least value _))

/-! ### Streams -/

/-- A group is written in one way only. -/
theorem Complete.eq_bytes {f : Flavour} {g : Group} {front : Bytes} (h : Complete f g front) :
    front = g.bytes f := by
  cases h with
  | @literal c bytes hc hlength =>
    have hcontrol : Flavour.literalControl bytes.length = c := by
      rw [hlength, Flavour.literalControl, Nat.add_sub_cancel, UInt8.ofNat_toNat]
    rw [Group.bytes, hcontrol]
  | @run c value hc =>
    have hcontrol : f.runControl (f.copies c) = c := by
      have hlt := c.toNat_lt
      cases f with
      | packBits =>
        show UInt8.ofNat (257 - (257 - c.toNat)) = c
        rw [Nat.sub_sub_self (by omega), UInt8.ofNat_toNat]
      | icns =>
        show UInt8.ofNat (c.toNat - 125 + 125) = c
        rw [Nat.sub_add_cancel (by omega), UInt8.ofNat_toNat]
    rw [Group.bytes, hcontrol]

theorem Grouped.eq_stream {f : Flavour} {groups : List Group} {b : Bytes} (h : Grouped f groups b) :
    b = stream f groups := by
  induction h with
  | nil => rfl
  | cons hg h ih =>
    rw [stream, List.flatMap_cons, ← stream, ← ih, ← hg.eq_bytes]

theorem Complete.unique {f : Flavour} {g g' : Group} {front front' rest rest' : Bytes}
    (h : Complete f g front) (h' : Complete f g' front') (heq : front ++ rest = front' ++ rest') :
    g = g' ∧ rest = rest' := by
  have hread : f.group 0 (max g.count g'.count) (front ++ rest) = .ok (g, rest) :=
    Flavour.group_eq_ok_iff.2 ⟨front, h, rfl, Nat.le_max_left ..⟩
  have hread' : f.group 0 (max g.count g'.count) (front ++ rest) = .ok (g', rest') :=
    Flavour.group_eq_ok_iff.2 ⟨front', h', heq, Nat.le_max_right ..⟩
  rw [hread] at hread'
  cases hread'
  exact ⟨rfl, rfl⟩

theorem Grouped.of_cons {f : Flavour} {groups : List Group} {c : UInt8} {rest : Bytes}
    (h : Grouped f groups (c :: rest)) :
    ∃ g behind operands rest', groups = g :: behind ∧ Complete f g (c :: operands) ∧
      rest = operands ++ rest' ∧ Grouped f behind rest' := by
  generalize hb : c :: rest = b at h
  cases h with
  | nil => cases hb
  | cons hg h =>
    obtain ⟨_, operands, rfl, -⟩ := hg.exists_cons
    cases hb
    exact ⟨_, _, operands, _, rfl, hg, rfl, h⟩

/-- Groups in the front of a stream are the first of its groups. -/
theorem Grouped.split {f : Flavour} {groups all : List Group} {front rest : Bytes}
    (h : Grouped f groups front) (hall : Grouped f all (front ++ rest)) :
    ∃ behind, all = groups ++ behind ∧ Grouped f behind rest := by
  induction h generalizing all with
  | nil => exact ⟨all, rfl, hall⟩
  | @cons g groups front behind hg _ ih =>
    obtain ⟨c, operands, rfl, -⟩ := hg.exists_cons
    rw [List.append_assoc, List.cons_append] at hall
    obtain ⟨g', all, operands', rest', rfl, hg', hwhole, hall⟩ := hall.of_cons
    obtain ⟨rfl, rfl⟩ := hg.unique hg' (congrArg (c :: ·) hwhole)
    obtain ⟨behind', rfl, hbehind⟩ := ih hall
    exact ⟨behind', rfl, hbehind⟩

/-- A stream can be taken apart in one way only. -/
theorem Grouped.unique {f : Flavour} {groups groups' : List Group} {b : Bytes}
    (h : Grouped f groups b) (h' : Grouped f groups' b) : groups' = groups := by
  rw [← List.append_nil b] at h'
  obtain ⟨behind, rfl, hbehind⟩ := h.split h'
  have hnone := hbehind.eq_stream
  cases behind with
  | nil => exact List.append_nil groups
  | cons g behind => cases g <;> cases hnone

namespace Flavour

theorem grouped_pack (f : Flavour) (b : Bytes) : Grouped f (f.groups b) (f.pack b) := by
  rw [pack_eq_stream]
  exact grouped_stream (f.groups_writable b)

/-- A stream of the form is what the packer makes of the bytes it stands for. -/
theorem pack_expand {f : Flavour} {groups : List Group} {s : Bytes} (h : Grouped f groups s)
    (hform : Canonical f groups) : f.pack (expand groups) = s := by
  rw [pack_eq_stream, ← hform.eq_groups, ← h.eq_stream]

theorem unpackAt_of_grouped {f : Flavour} {groups : List Group} {s : Bytes} (h : Grouped f groups s) :
    f.unpackAt s 0 (expand groups).length = .ok (expand groups, s.length) := by
  refine unpackAt_eq_ok_iff.2 ⟨⟨Nat.le_refl _, groups, ?_, rfl⟩, rfl⟩
  rw [List.take_length]
  exact h

/-- Packing again gives back the stream, if all of it was unpacked and it has the form. -/
theorem pack_eq_iff_of_unpackAt {f : Flavour} {s out : Bytes} {n k : Nat}
    (h : f.unpackAt s 0 n = .ok (out, k)) :
    f.pack out = s ↔ k = s.length ∧ ∃ groups, Grouped f groups s ∧ Canonical f groups := by
  obtain ⟨⟨-, groups, hgrouped, hout⟩, hlength⟩ := unpackAt_eq_ok_iff.1 h
  constructor
  · intro hpack
    have hwritten := f.grouped_pack out
    rw [hpack] at hwritten
    have hwhole := unpackAt_of_grouped hwritten
    rw [expand_groups, hlength, h] at hwhole
    cases hwhole
    exact ⟨rfl, f.groups out, hwritten, f.canonical_groups out⟩
  · intro h
    obtain ⟨rfl, groups', hgrouped', hform⟩ := h
    rw [List.take_length] at hgrouped
    obtain rfl := hgrouped.unique hgrouped'
    rw [← hout]
    exact pack_expand hgrouped hform

/-- The control byte of a run that is written asks for no more and no fewer bytes than runs have. -/
theorem copies_of_pack {f : Flavour} {b front rest : Bytes} {c : UInt8} {groups : List Group}
    (hpack : f.pack b = front ++ c :: rest) (h : Grouped f groups front) (hc : 128 ≤ c.toNat) :
    minRun ≤ f.copies c ∧ f.copies c ≤ f.maxRun := by
  have hall := f.grouped_pack b
  rw [hpack] at hall
  obtain ⟨_, hgroups, hbehind⟩ := h.split hall
  obtain ⟨g, _, _, _, rfl, hg, -, -⟩ := hbehind.of_cons
  have hmem : g ∈ f.groups b := by
    rw [hgroups]
    exact List.mem_append_right _ (List.mem_cons_self ..)
  have hwritable := f.groups_writable b g hmem
  cases hg with
  | literal hlow => exact absurd hlow (Nat.not_lt.2 hc)
  | run _ => exact hwritable

/-- **The packer writes the one stream of the form.** What it writes is made of groups of the
form, which stand for what was packed, and no other stream is. Any stream of groups can be
unpacked as a whole, and packing again gives it back just if its groups are of the form. In
the older flavour no run of 129 bytes is written, and none of two. -/
theorem pack_canonical (f : Flavour) :
    (∀ b, ∃ groups, Grouped f groups (f.pack b) ∧ Canonical f groups ∧ expand groups = b) ∧
    (∀ b s groups, Grouped f groups s → Canonical f groups → expand groups = b → s = f.pack b) ∧
    (∀ s groups, Grouped f groups s →
      f.unpackAt s 0 (expand groups).length = .ok (expand groups, s.length)) ∧
    (∀ s n out k, f.unpackAt s 0 n = .ok (out, k) →
      (f.pack out = s ↔ k = s.length ∧ ∃ groups, Grouped f groups s ∧ Canonical f groups)) ∧
    (f = packBits → ∀ b front c rest groups, f.pack b = front ++ c :: rest →
      Grouped f groups front → c ≠ 0x80 ∧ c ≠ 0xff) := by
  refine ⟨?_, ?_, ?_, ?_, ?_⟩
  · exact fun b => ⟨f.groups b, f.grouped_pack b, f.canonical_groups b, f.expand_groups b⟩
  · intro b s groups hgrouped hform hexpand
    rw [← hexpand, pack_expand hgrouped hform]
  · exact fun _ _ => unpackAt_of_grouped
  · exact fun _ _ _ _ => pack_eq_iff_of_unpackAt
  · intro hf b front c rest groups hpack hgrouped
    have hcopies := copies_of_pack hpack hgrouped
    subst hf
    constructor
    · rintro rfl
      exact absurd (hcopies (by decide)).2 (by decide)
    · rintro rfl
      exact absurd (hcopies (by decide)).1 (by decide)

/-- One byte, and 130 others: the run is full before they end, and what is left of them is
too short for another. -/
theorem pack_canonical_of_long_run :
    let groups : List Group := [.literal [1], .run 128 7, .literal [7, 7]]
    let s : Bytes := [0x00, 1, 0x81, 7, 0x01, 7, 7]
    Grouped packBits groups s ∧ Canonical packBits groups ∧ s = packBits.pack (expand groups) ∧
      packBits.unpackAt s 0 131 = .ok (expand groups, 7) ∧
      (packBits.pack (expand groups) = s ↔
        7 = s.length ∧ ∃ groups, Grouped packBits groups s ∧ Canonical packBits groups) ∧
      s[2]? ≠ some 0x80 ∧ s[2]? ≠ some 0xff := by
  intro groups s
  have hfirst : Complete packBits (.literal [1]) [0x00, 1] := .literal (by decide) rfl
  have hrun : Complete packBits (.run 128 7) [0x81, 7] := .run (c := 0x81) (by decide)
  have hlast : Complete packBits (.literal [7, 7]) [0x01, 7, 7] := .literal (by decide) rfl
  have hgrouped : Grouped packBits groups s := .cons hfirst (.cons hrun (.cons hlast .nil))
  have hform : Canonical packBits groups := by
    refine .literal ⟨by decide, by decide, ?_, .inr (.inr ⟨128, 7, _, rfl⟩)⟩ (.run ⟨?_, ?_, .inl rfl⟩
      (.literal ⟨by decide, by decide, ?_, .inr (.inl rfl)⟩ .nil))
    · decide +kernel
    · decide
    · decide
    · decide
  obtain ⟨-, hpack, hunpack, hexact, hcontrols⟩ := pack_canonical packBits
  have hwritten := hpack _ s groups hgrouped hform rfl
  have hread := hunpack s groups hgrouped
  have hcontrol : (0x81 : UInt8) ≠ 0x80 ∧ (0x81 : UInt8) ≠ 0xff :=
    hcontrols rfl (expand groups) [0x00, 1] 0x81 [7, 0x01, 7, 7] [.literal [1]] hwritten.symm
      (.cons hfirst .nil)
  refine ⟨hgrouped, hform, hwritten, hread, hexact s _ _ _ hread, ?_, ?_⟩
  · exact fun h => hcontrol.1 (Option.some.inj h)
  · exact fun h => hcontrol.2 (Option.some.inj h)

end Flavour
end ClassicIcons.RunLength
