import ClassicIcons.Proofs.Icns.RoundTrip

/-! Which files can be read.

A file that is read holds complete elements behind its header (`Stand`), as many as
are needed to reach the length it states and not one more (`Accepts`). The loop takes
such elements from any point on (`readElements_append`) and nothing else
(`stand_of_readElements_eq_ok`, `stand_of_readElements_eq_error`), so a file is refused
for its header, or for the first element that is needed and not there (`Refused`).
What was read is written again as it stood, but for the stated length, which need not
have been the true one. `reading` says all this of every file of less than 4 GiB, and
that four bytes are enough for the position in it. -/
namespace ClassicIcons.Icns

/-- The number in the length field, which stands behind a tag. -/
def lengthField (b : Bytes) : Nat := Bytes.value ((b.drop 4).take 4)

/-- Complete elements stand one behind another in front of `rest`. Each has a tag, a
length that counts the eight bytes of tag and length too, and its data. -/
inductive Stand : List Element → (b rest : Bytes) → Prop
  | nil (rest : Bytes) : Stand [] rest rest
  | cons {tag : Tag} {field data b rest : Bytes} {es : List Element} (hfield : field.length = 4)
      (hvalue : field.value = 8 + data.length) (h : Stand es b rest) :
      Stand (⟨tag, data⟩ :: es) (tag.bytes ++ (field ++ (data ++ b))) rest

/-- No complete element stands in front, for the given reason. -/
inductive Element.Refused (b : Bytes) : Error → Prop
  | header (h : b.length < 8) : Refused b .truncated
  | length (h : 8 ≤ b.length) (hlength : lengthField b < 8) : Refused b .elementLength
  | data (hlength : 8 ≤ lengthField b) (h : b.length < lengthField b) : Refused b .truncated

namespace Family

/-- The first `n` bytes are a file with the elements of `f`: the least number of
complete elements that reach the stated length. -/
structure Accepts (b : Bytes) (f : Family) (n : Nat) : Prop where
  magic : b.take 4 = magic.bytes
  header : 8 ≤ b.length
  elements : Stand f.elements (b.drop 8) (b.drop n)
  length : n = 8 + lengthOf f.elements
  reached : lengthField b ≤ n
  least : ∀ m, m < f.elements.length → 8 + lengthOf (f.elements.take m) < lengthField b

/-- The bytes do not start with a file, for the given reason: their header is none, or
the first elements do not reach the stated length and no other stands behind them. -/
inductive Refused (b : Bytes) : Error → Prop
  | short (h : b.length < 4) : Refused b .truncated
  | magic (h : 4 ≤ b.length) (hmagic : b.take 4 ≠ magic.bytes) : Refused b .wrongMagic
  | header (hmagic : b.take 4 = magic.bytes) (h : b.length < 8) : Refused b .truncated
  | element {es : List Element} {rest : Bytes} {e : Error} (hmagic : b.take 4 = magic.bytes)
      (h : 8 ≤ b.length) (hstand : Stand es (b.drop 8) rest)
      (hlength : 8 + lengthOf es < lengthField b) (he : Element.Refused rest e) : Refused b e

end Family

/-! ### Headers -/

theorem lengthField_append {front field : Bytes} (hfront : front.length = 4) (hfield : field.length = 4)
    (rest : Bytes) : lengthField (front ++ (field ++ rest)) = field.value := by
  rw [lengthField, List.drop_left' hfront, List.take_left' hfield]

theorem drop_header {front field : Bytes} (hfront : front.length = 4) (hfield : field.length = 4)
    (rest : Bytes) : (front ++ (field ++ rest)).drop 8 = rest := by
  rw [← List.append_assoc]
  exact List.drop_left' (by rw [List.length_append, hfront, hfield])

theorem exists_tag {b : Bytes} (h : 4 ≤ b.length) :
    ∃ (tag : Tag) (rest : Bytes), b = tag.bytes ++ rest ∧ b.length = 4 + rest.length := by
  match b, h with
  | t₁ :: t₂ :: t₃ :: t₄ :: rest, _ =>
    refine ⟨⟨t₁, t₂, t₃, t₄⟩, rest, rfl, ?_⟩
    simp only [List.length_cons]
    omega

/-- A tag and a length field in front. -/
theorem exists_header {b : Bytes} (h : 8 ≤ b.length) :
    ∃ (tag : Tag) (field rest : Bytes), b = tag.bytes ++ (field ++ rest) ∧ field.length = 4 ∧
      b.length = 8 + rest.length := by
  obtain ⟨tag, b, rfl, hlength⟩ := exists_tag (Nat.le_trans (by decide) h)
  refine ⟨tag, b.take 4, b.drop 4, by rw [List.take_append_drop], ?_, ?_⟩
  · rw [List.length_take]
    omega
  · rw [List.length_drop]
    omega

/-! ### One element -/

namespace Element

theorem read_eq_error_iff {b : Bytes} {e : Error} :
    Element.read b = .error e ↔ Refused b e := by
  have hheader : headerLength = 8 := rfl
  simp only [Element.read, Reader.bind_eq_error_iff, Tag.read_eq_error_iff, Tag.read_eq_ok_iff,
    Reader.number_eq_error_iff, Reader.number_eq_ok_iff, Reader.require_eq_error_iff,
    Reader.require_eq_ok_iff, Reader.bytes_eq_error_iff, Reader.pure_ne_error, and_false,
    exists_false, or_false]
  constructor
  · intro h
    rcases h with ⟨hshort, rfl⟩ | ⟨tag, b, rfl, h⟩
    · exact .header (by omega)
    · have hb : (tag.bytes ++ b).length = 4 + b.length := by rw [List.length_append, Tag.length_bytes]
      rcases h with ⟨hshort, rfl⟩ | ⟨_, rest, ⟨field, rfl, hfield, rfl⟩, h⟩
      · exact .header (by omega)
      · have hlength := lengthField_append (Tag.length_bytes tag) hfield rest
        have hrest : (field ++ rest).length = 4 + rest.length := by rw [List.length_append, hfield]
        rcases h with ⟨hle, rfl⟩ | ⟨_, _, ⟨hle, rfl⟩, hdata, rfl⟩
        · exact .length (by omega) (by omega)
        · exact .data (by omega) (by omega)
  · intro h
    by_cases hb : 8 ≤ b.length
    · obtain ⟨tag, field, rest, rfl, hfield, hlength⟩ := exists_header hb
      have hvalue := lengthField_append (Tag.length_bytes tag) hfield rest
      refine .inr ⟨tag, _, rfl, .inr ⟨_, rest, ⟨field, rfl, hfield, rfl⟩, ?_⟩⟩
      cases h with
      | header h => omega
      | length _ hlt => exact .inl ⟨by omega, rfl⟩
      | data hle h => exact .inr ⟨(), rest, ⟨by omega, rfl⟩, by omega, rfl⟩
    · have he : e = .truncated := by
        cases h with
        | header => rfl
        | length h => omega
        | data hle h => rfl
      by_cases hb' : 4 ≤ b.length
      · obtain ⟨tag, rest, rfl, hlength⟩ := exists_tag hb'
        exact .inr ⟨tag, rest, rfl, .inl ⟨by omega, he⟩⟩
      · exact .inl ⟨by omega, he⟩

end Element

/-! ### Elements in a row -/

/-- Complete elements stand as they are written. -/
theorem Stand.eq_append {es : List Element} {b rest : Bytes} (h : Stand es b rest) :
    b = es.flatMap Element.bytes ++ rest := by
  induction h with
  | nil => rfl
  | @cons tag field data b rest es hfield hvalue _ ih =>
    have hwritten : Bytes.ofNat 4 (Element.totalLength ⟨tag, data⟩) = field := by
      show Bytes.ofNat 4 (8 + data.length) = field
      rw [← hvalue, ← hfield, Bytes.ofNat_value]
    rw [List.flatMap_cons, Element.bytes, hwritten, ih]
    simp only [List.append_assoc]

theorem Stand.length_eq {es : List Element} {b rest : Bytes} (h : Stand es b rest) :
    b.length = Family.lengthOf es + rest.length := by
  rw [h.eq_append, List.length_append, Family.length_flatMap_bytes]

theorem Stand.of_read {b rest after : Bytes} {e : Element} {es : List Element}
    (he : Element.read b = .ok (e, rest)) (h : Stand es rest after) : Stand (e :: es) b after := by
  obtain ⟨field, hfield, hvalue, rfl⟩ := Element.read_eq_ok_iff.1 he
  exact .cons hfield hvalue h

namespace Family

theorem lengthOf_take_le (es : List Element) (m : Nat) : lengthOf (es.take m) ≤ lengthOf es := by
  induction es generalizing m with
  | nil => simp
  | cons e es ih =>
    cases m with
    | zero => exact Nat.zero_le _
    | succ m =>
      rw [List.take_succ_cons, lengthOf_cons, lengthOf_cons]
      exact Nat.add_le_add_left (ih m) _

theorem readElements_of_error {length position : Nat} {b : Bytes} {e : Error} (hp : position < length)
    (h : Element.read b = .error e) : readElements length position b = .error e := by
  rw [readElements, if_pos hp]
  split
  · rename_i he
    rw [h] at he
    cases he
    rfl
  · rename_i he
    rw [h] at he
    cases he

/-- From any point of the file on: complete elements are taken as long as the length
is not reached, and the loop goes on behind them. -/
theorem readElements_append {es : List Element} {b rest : Bytes} (h : Stand es b rest)
    {length position : Nat}
    (hleast : ∀ m, m < es.length → position + lengthOf (es.take m) < length) :
    readElements length position b =
      (readElements length (position + lengthOf es) rest).map fun (more, rest) => (es ++ more, rest) := by
  induction h generalizing position with
  | nil rest =>
    show readElements length position rest = (readElements length position rest).map id
    cases readElements length position rest <;> rfl
  | @cons tag field data b rest es hfield hvalue _ ih =>
    have hread : Element.read (tag.bytes ++ (field ++ (data ++ b))) = .ok (⟨tag, data⟩, b) :=
      Element.read_eq_ok_iff.2 ⟨field, hfield, hvalue, rfl⟩
    -- The bound holds before each element: at the front it lets this one be taken, and
    -- one further on it is the bound for those behind it.
    have hfirst : position < length := hleast 0 (Nat.zero_lt_succ _)
    have hrest : ∀ m, m < es.length →
        position + Element.totalLength ⟨tag, data⟩ + lengthOf (es.take m) < length := by
      intro m hm
      have hm' := hleast (m + 1) (Nat.succ_lt_succ hm)
      rw [List.take_succ_cons, lengthOf_cons] at hm'
      omega
    rw [readElements_of_read hfirst hread, ih hrest, lengthOf_cons, Nat.add_assoc]
    cases readElements length (position + (Element.totalLength ⟨tag, data⟩ + lengthOf es)) rest <;> rfl

/-- The loop that comes to its end has taken complete elements, and none too many. -/
theorem stand_of_readElements_eq_ok {length position : Nat} {b rest : Bytes} {es : List Element}
    (h : readElements length position b = .ok (es, rest)) :
    Stand es b rest ∧ length ≤ position + lengthOf es ∧
      ∀ m, m < es.length → position + lengthOf (es.take m) < length := by
  fun_induction readElements length position b generalizing es rest with
  | case1 position b hp e he => cases h
  | case2 position b hp e behind he _ e' hrest ih => cases h
  | case3 position b hp e behind he _ es' rest' hrest ih =>
    cases h
    obtain ⟨hstand, hreached, hleast⟩ := ih hrest
    rw [lengthOf_cons, ← Nat.add_assoc]
    refine ⟨.of_read he hstand, hreached, fun m hm => ?_⟩
    cases m with
    | zero => exact hp
    | succ m =>
      rw [List.take_succ_cons, lengthOf_cons, ← Nat.add_assoc]
      exact hleast m (Nat.lt_of_succ_lt_succ hm)
  | case4 position b hp =>
    cases h
    exact ⟨.nil _, Nat.not_lt.1 hp, fun m hm => absurd hm (Nat.not_lt_zero m)⟩

/-- The loop that fails has taken complete elements too, and fails at the next one. -/
theorem stand_of_readElements_eq_error {length position : Nat} {b : Bytes} {e : Error}
    (h : readElements length position b = .error e) :
    ∃ es rest, Stand es b rest ∧ position + lengthOf es < length ∧ Element.read rest = .error e := by
  fun_induction readElements length position b with
  | case1 position b hp e' he =>
    cases h
    exact ⟨[], b, .nil b, hp, he⟩
  | case2 position b hp first behind he _ e' hrest ih =>
    cases h
    obtain ⟨es, rest, hstand, hlt, herror⟩ := ih hrest
    refine ⟨first :: es, rest, .of_read he hstand, ?_, herror⟩
    rw [lengthOf_cons, ← Nat.add_assoc]
    exact hlt
  | case3 position b hp first behind he _ es' rest' hrest ih => cases h
  | case4 position b hp => cases h

/-! ### Files -/

/-- The magic tag and the stated length. -/
def readHeader : Reader Error Nat := do
  let found ← Tag.read
  Reader.require (found = magic) .wrongMagic
  Reader.number 4

theorem read_eq (b : Bytes) :
    read b = (readHeader >>= fun length => do
      let elements ← readElements length headerLength
      return ⟨elements⟩ : Reader Error Family) b := by
  simp only [read, readHeader, bind_assoc]

theorem read_of_readHeader {b rest : Bytes} {length : Nat} (h : readHeader b = .ok (length, rest)) :
    read b = (readElements length headerLength rest).map fun (es, rest) => (⟨es⟩, rest) := by
  rw [read_eq]
  show (readHeader b >>= _) = _
  rw [h]
  show (readElements length headerLength rest >>= _) = _
  cases readElements length headerLength rest <;> rfl

theorem readHeader_eq_ok_iff {b rest : Bytes} {length : Nat} :
    readHeader b = .ok (length, rest) ↔
      b.take 4 = magic.bytes ∧ 8 ≤ b.length ∧ length = lengthField b ∧ rest = b.drop 8 := by
  simp only [readHeader, Reader.bind_eq_ok_iff, Tag.read_eq_ok_iff, Reader.require_eq_ok_iff,
    Reader.number_eq_ok_iff]
  constructor
  · intro h
    obtain ⟨tag, _, rfl, _, _, ⟨rfl, rfl⟩, field, rfl, hfield, rfl⟩ := h
    have hmagic := Tag.length_bytes magic
    refine ⟨List.take_left' hmagic, ?_, (lengthField_append hmagic hfield rest).symm,
      (drop_header hmagic hfield rest).symm⟩
    rw [List.length_append, List.length_append, hmagic, hfield]
    omega
  · intro h
    obtain ⟨hmagic, hb, rfl, rfl⟩ := h
    obtain ⟨tag, field, rest, rfl, hfield, -⟩ := exists_header hb
    have htag := Tag.length_bytes tag
    rw [List.take_left' htag] at hmagic
    exact ⟨tag, _, rfl, (), _, ⟨Tag.bytes_injective hmagic, rfl⟩, field,
      by rw [drop_header htag hfield], hfield, (lengthField_append htag hfield rest).symm⟩

theorem readHeader_eq_error_iff {b : Bytes} {e : Error} :
    readHeader b = .error e ↔ (b.length < 4 ∧ e = .truncated) ∨
      (4 ≤ b.length ∧ b.take 4 ≠ magic.bytes ∧ e = .wrongMagic) ∨
      (b.take 4 = magic.bytes ∧ b.length < 8 ∧ e = .truncated) := by
  simp only [readHeader, Reader.bind_eq_error_iff, Tag.read_eq_error_iff, Tag.read_eq_ok_iff,
    Reader.require_eq_error_iff, Reader.require_eq_ok_iff, Reader.number_eq_error_iff]
  constructor
  · intro h
    rcases h with ⟨hlt, rfl⟩ | ⟨tag, rest, rfl, h⟩
    · exact .inl ⟨hlt, rfl⟩
    · have hb : (tag.bytes ++ rest).length = 4 + rest.length := by rw [List.length_append, Tag.length_bytes]
      rw [List.take_left' (Tag.length_bytes tag)]
      rcases h with ⟨hne, rfl⟩ | ⟨_, _, ⟨rfl, rfl⟩, hlt, rfl⟩
      · exact .inr (.inl ⟨by omega, fun h => hne (Tag.bytes_injective h), rfl⟩)
      · exact .inr (.inr ⟨rfl, by omega, rfl⟩)
  · intro h
    by_cases hb : 4 ≤ b.length
    · obtain ⟨tag, rest, rfl, hlength⟩ := exists_tag hb
      rw [List.take_left' (Tag.length_bytes tag)] at h
      refine .inr ⟨tag, rest, rfl, ?_⟩
      rcases h with ⟨hlt, -⟩ | ⟨-, hne, rfl⟩ | ⟨hmagic, hlt, rfl⟩
      · omega
      · exact .inl ⟨fun h => hne (congrArg Tag.bytes h), rfl⟩
      · exact .inr ⟨(), rest, ⟨Tag.bytes_injective hmagic, rfl⟩, by omega, rfl⟩
    · rcases h with ⟨hlt, rfl⟩ | ⟨hle, -⟩ | ⟨-, -, rfl⟩
      · exact .inl ⟨hlt, rfl⟩
      · exact absurd hle hb
      · exact .inl ⟨Nat.not_le.1 hb, rfl⟩

theorem read_eq_ok_iff {b rest : Bytes} {f : Family} :
    read b = .ok (f, rest) ↔ ∃ n, Accepts b f n ∧ rest = b.drop n := by
  rw [read_eq]
  simp only [Reader.bind_eq_ok_iff, readHeader_eq_ok_iff, Reader.pure_eq_ok_iff]
  constructor
  · intro h
    obtain ⟨_, _, ⟨hmagic, hb, rfl, rfl⟩, es, after, helements, rfl, rfl⟩ := h
    obtain ⟨hstand, hreached, hleast⟩ := stand_of_readElements_eq_ok helements
    have hrest : after = b.drop (8 + lengthOf es) := by
      rw [← List.drop_drop, hstand.eq_append, List.drop_left' (length_flatMap_bytes es)]
    exact ⟨8 + lengthOf es, ⟨hmagic, hb, hrest ▸ hstand, rfl, hreached, hleast⟩, hrest⟩
  · intro h
    obtain ⟨n, ha, rfl⟩ := h
    have hloop : readElements (lengthField b) 8 (b.drop 8) = _ := readElements_append ha.elements ha.least
    rw [← ha.length, readElements_of_le ha.reached] at hloop
    refine ⟨lengthField b, b.drop 8, ⟨ha.magic, ha.header, rfl, rfl⟩, f.elements, b.drop n, ?_, rfl, rfl⟩
    exact hloop.trans (by simp only [Except.map, List.append_nil])

theorem read_eq_error_iff {b : Bytes} {e : Error} : read b = .error e ↔ Refused b e := by
  rw [read_eq]
  simp only [Reader.bind_eq_error_iff, readHeader_eq_error_iff, readHeader_eq_ok_iff,
    Reader.pure_ne_error, and_false, exists_false, or_false]
  constructor
  · intro h
    rcases h with (⟨hlt, rfl⟩ | ⟨hle, hne, rfl⟩ | ⟨hmagic, hlt, rfl⟩) | ⟨_, _, ⟨hmagic, hb, rfl, rfl⟩, h⟩
    · exact .short hlt
    · exact .magic hle hne
    · exact .header hmagic hlt
    · obtain ⟨es, rest, hstand, hlt, herror⟩ := stand_of_readElements_eq_error h
      exact .element hmagic hb hstand hlt (Element.read_eq_error_iff.1 herror)
  · intro h
    cases h with
    | short h => exact .inl (.inl ⟨h, rfl⟩)
    | magic h hmagic => exact .inl (.inr (.inl ⟨h, hmagic, rfl⟩))
    | header hmagic h => exact .inl (.inr (.inr ⟨hmagic, h, rfl⟩))
    | @element es rest e hmagic h hstand hlength he =>
      have hleast : ∀ m, m < es.length → 8 + lengthOf (es.take m) < lengthField b := fun m _ =>
        Nat.lt_of_le_of_lt (Nat.add_le_add_left (lengthOf_take_le es m) 8) hlength
      have hloop : readElements (lengthField b) 8 (b.drop 8) = _ := readElements_append hstand hleast
      rw [readElements_of_error hlength (Element.read_eq_error_iff.2 he)] at hloop
      exact .inr ⟨_, _, ⟨hmagic, h, rfl, rfl⟩, hloop⟩

/-! ### Writing what was read -/

section Written
variable {b : Bytes} {f : Family} {n : Nat}

theorem Accepts.eq_totalLength (h : Accepts b f n) : n = f.totalLength := h.length

theorem Accepts.le_length (h : Accepts b f n) : n ≤ b.length := by
  have hlength := h.elements.length_eq
  have hn := h.length
  have hb := h.header
  rw [List.length_drop, List.length_drop] at hlength
  omega

theorem Accepts.bytes_eq (h : Accepts b f n) :
    f.bytes = b.take 4 ++ Bytes.ofNat 4 n ++ (b.take n).drop 8 := by
  have helements : (b.take n).drop 8 = f.elements.flatMap Element.bytes := by
    rw [List.drop_take, h.elements.eq_append]
    exact List.take_left' (by rw [length_flatMap_bytes, h.length, Nat.add_sub_cancel_left])
  rw [helements, h.magic, h.eq_totalLength]
  rfl

theorem Accepts.write_eq (h : Accepts b f n) (hb : b.length < UInt32.size) :
    f.write = .ok (b.take 4 ++ Bytes.ofNat 4 n ++ (b.take n).drop 8) := by
  have hlength : f.totalLength < UInt32.size :=
    h.eq_totalLength ▸ Nat.lt_of_le_of_lt h.le_length hb
  rw [← h.bytes_eq]
  exact if_pos hlength

theorem take_eq_of_le (b : Bytes) (hn : 8 ≤ n) :
    b.take n = b.take 4 ++ (b.drop 4).take 4 ++ (b.take n).drop 8 := by
  have hfront : (b.take n).take 8 = b.take 4 ++ (b.drop 4).take 4 := by
    rw [List.take_take, Nat.min_eq_left hn, ← List.take_add]
  rw [← hfront, List.take_append_drop]

/-- The file is written again as it was just if it stated its true length. -/
theorem Accepts.write_eq_take_iff (h : Accepts b f n) (hb : b.length < UInt32.size) :
    f.write = .ok (b.take n) ↔ lengthField b = n := by
  have hn : 8 ≤ n := h.length ▸ Nat.le_add_right _ _
  have hfield : ((b.drop 4).take 4).length = 4 := by
    have := h.header
    rw [List.length_take, List.length_drop]
    omega
  have htake := take_eq_of_le b hn
  rw [h.write_eq hb, Except.ok.injEq]
  generalize (b.take n).drop 8 = elements at htake ⊢
  rw [htake, List.append_cancel_right_eq, List.append_cancel_left_eq]
  constructor
  · intro hwritten
    rw [lengthField, ← hwritten, Bytes.value_ofNat]
    exact Nat.mod_eq_of_lt (Nat.lt_of_le_of_lt h.le_length hb)
  · intro hstated
    rw [← hstated, lengthField]
    have hvalue := Bytes.ofNat_value ((b.drop 4).take 4)
    rw [hfield] at hvalue
    exact hvalue

end Written

/-! ### The loop, counted and measured -/

/-- The loop of `readElements` with a position that has to fit in four bytes, and for
that many rounds at most. There is no answer if either is not enough. -/
def readElementsWithin (length : Nat) : (rounds position : Nat) → Bytes →
    Option (Except Error (List Element × Bytes))
  | 0, position, b => if position < length then none else some (.ok ([], b))
  | rounds + 1, position, b =>
    if position < length then
      match Element.read b with
      | .error e => some (.error e)
      | .ok (e, rest) =>
        if position + e.totalLength < UInt32.size then
          (readElementsWithin length rounds (position + e.totalLength) rest).map
            (Except.map fun (es, rest) => (e :: es, rest))
        else none
    else some (.ok ([], b))

/-- Reads a file with such a loop. -/
def readWithin (rounds : Nat) (b : Bytes) : Option (Except Error (Family × Bytes)) :=
  match readHeader b with
  | .error e => some (.error e)
  | .ok (length, rest) => (readElementsWithin length rounds headerLength rest).map
      (Except.map fun (es, rest) => (⟨es⟩, rest))

/-- Every round but a failing one takes eight bytes at least, and the position is the
number of bytes that were taken. -/
theorem readElementsWithin_eq (length : Nat) {rounds position : Nat} {b : Bytes}
    (hrounds : b.length / 8 < rounds) (hposition : position + b.length < UInt32.size) :
    readElementsWithin length rounds position b = some (readElements length position b) := by
  induction rounds generalizing position b with
  | zero => exact absurd hrounds (Nat.not_lt_zero _)
  | succ rounds ih =>
    rw [readElementsWithin]
    split
    · rename_i hp
      cases he : Element.read b with
      | error e => rw [readElements_of_error hp he]
      | ok result =>
        obtain ⟨e, rest⟩ := result
        have hlength := (Stand.of_read he (.nil rest)).length_eq
        have hheader : 8 ≤ e.totalLength := Nat.le_add_right _ _
        rw [lengthOf_cons, lengthOf, List.foldr_nil, Nat.add_zero] at hlength
        -- The element has eight bytes at least, so one round less is enough for the rest.
        show (if position + e.totalLength < UInt32.size then _ else _) = _
        rw [if_pos (by omega), ih (by omega) (by omega), readElements_of_read hp he]
        rfl
    · rename_i hp
      rw [readElements_of_le (Nat.not_lt.1 hp)]

/-- **A file of `n` bytes takes `n / 8` rounds at most, and four bytes are enough for the
position**, be the file accepted or refused. -/
theorem readWithin_eq {b : Bytes} (hb : b.length < UInt32.size) :
    readWithin (b.length / 8) b = some (read b) := by
  rw [readWithin]
  cases hheader : readHeader b with
  | error e => rw [read_eq, Reader.bind_eq_error_iff.2 (.inl hheader)]
  | ok result =>
    obtain ⟨length, rest⟩ := result
    obtain ⟨-, hle, -, rfl⟩ := readHeader_eq_ok_iff.1 hheader
    have hrest : (b.drop 8).length = b.length - 8 := List.length_drop
    have hrounds : (b.drop 8).length / 8 < b.length / 8 := by omega
    have hposition : 8 + (b.drop 8).length < UInt32.size := by omega
    show Option.map _ (readElementsWithin length (b.length / 8) 8 (b.drop 8)) = some (read b)
    rw [readElementsWithin_eq length hrounds hposition, read_of_readHeader hheader]
    rfl

/-! ### Main statement -/

/-- All that is known of reading the bytes `b`. -/
structure Reading (b : Bytes) : Prop where
  /-- A family is read, and `n` bytes are taken, just if the bytes start with such a file. -/
  accepted : ∀ f rest, read b = .ok (f, rest) ↔ ∃ n, Accepts b f n ∧ rest = b.drop n
  /-- Reading fails just where something of the file is not there. -/
  refused : ∀ e, read b = .error e ↔ Refused b e
  /-- Either the bytes end too early, or the magic tag or the length of an element is wrong. -/
  kind : ∀ e, read b = .error e → e = .truncated ∧ e.kind = .unexpectedEnd ∨
    (e = .wrongMagic ∨ e = .elementLength) ∧ e.kind = .invalidData
  /-- The family is as long as what was read, and is written as it stood there, with its
  true length in the header. -/
  written : ∀ f n, Accepts b f n → n = f.totalLength ∧ n ≤ b.length ∧
    f.write = .ok (b.take 4 ++ Bytes.ofNat 4 n ++ (b.take n).drop 8) ∧
    (f.write = .ok (b.take n) ↔ lengthField b = n)
  /-- There are few rounds, and the position always fits in four bytes. -/
  bounded : readWithin (b.length / 8) b = some (read b)

theorem Refused.error_eq {b : Bytes} {e : Error} (h : Refused b e) :
    e = .truncated ∨ e = .wrongMagic ∨ e = .elementLength := by
  cases h with
  | short => exact .inl rfl
  | magic => exact .inr (.inl rfl)
  | header => exact .inl rfl
  | element _ _ _ _ he =>
    cases he with
    | header => exact .inl rfl
    | length => exact .inr (.inr rfl)
    | data => exact .inl rfl

/-- **Reading accepts just the complete files, and loses nothing of them.** -/
theorem reading {b : Bytes} (hb : b.length < UInt32.size) : Reading b where
  accepted _ _ := read_eq_ok_iff
  refused _ := read_eq_error_iff
  kind := by
    intro e he
    rcases (read_eq_error_iff.1 he).error_eq with rfl | rfl | rfl
    · exact .inl ⟨rfl, rfl⟩
    · exact .inr ⟨.inl rfl, rfl⟩
    · exact .inr ⟨.inr rfl, rfl⟩
  written f n h := ⟨h.eq_totalLength, h.le_length, h.write_eq hb, h.write_eq_take_iff hb⟩
  bounded := readWithin_eq hb

/-- The stated length of nine ends inside the header of the one element, which is read
as a whole all the same. The last byte is left. -/
def midElement : Bytes :=
  [0x69, 0x63, 0x6e, 0x73, 0, 0, 0, 9, 0x71, 0x75, 0x75, 0x78, 0, 0, 0, 10, 1, 2, 0xff]

theorem reading_of_mid_element : midElement.length < UInt32.size ∧ Reading midElement ∧
    read midElement = .ok (⟨[⟨.ofChars 'q' 'u' 'u' 'x', [1, 2]⟩]⟩, [0xff]) := by
  have hb : midElement.length < UInt32.size := by decide
  have hreading := reading hb
  have hfield : ([0, 0, 0, 10] : Bytes).length = 4 := rfl
  have hstand : Stand [⟨.ofChars 'q' 'u' 'u' 'x', [1, 2]⟩] (midElement.drop 8) (midElement.drop 18) :=
    .cons hfield rfl (.nil [0xff])
  have hleast : ∀ m, m < 1 →
      8 + lengthOf (List.take m [⟨.ofChars 'q' 'u' 'u' 'x', [1, 2]⟩]) < lengthField midElement := by
    intro m hm
    cases Nat.lt_one_iff.1 hm
    decide
  exact ⟨hb, hreading,
    (hreading.accepted _ _).2 ⟨18, ⟨rfl, by decide, hstand, rfl, by decide, hleast⟩, rfl⟩⟩

end Family
end ClassicIcons.Icns
