/-! Bytes, and the fields that files are made of.

A file is a list of bytes, read from the front. A `Reader` takes fields off it
and hands on what is left; the only thing that can go wrong in a field is that
the bytes end first, and each file format says what that means (`Truncated`).
Numbers are big-endian.

`split?_eq_some_iff` says that a field of `n` bytes is exactly the first `n`
bytes, none lost; `value_ofNat` and `ofNat_value` that a big-endian number and
its bytes determine each other. -/
namespace ClassicIcons

/-- The content of a file, or a part of one. -/
abbrev Bytes := List UInt8

namespace Bytes

/-- The first `n` bytes and what follows them, if there are that many. -/
def split? (n : Nat) (b : Bytes) : Option (Bytes × Bytes) :=
  let front := b.take n
  if front.length = n then some (front, b.drop n) else none

theorem split?_eq_some_iff {n : Nat} {b front rest : Bytes} :
    split? n b = some (front, rest) ↔ b = front ++ rest ∧ front.length = n := by
  constructor
  · intro h
    simp only [split?] at h
    split at h
    · rename_i hn
      cases h
      exact ⟨(List.take_append_drop n b).symm, hn⟩
    · cases h
  · rintro ⟨rfl, rfl⟩
    simp [split?]

theorem split?_self {n : Nat} {b : Bytes} (h : b.length = n) : split? n b = some (b, []) :=
  split?_eq_some_iff.2 ⟨(List.append_nil b).symm, h⟩

theorem split?_eq_none_iff {n : Nat} {b : Bytes} : split? n b = none ↔ b.length < n := by
  simp only [split?, List.length_take]
  split
  · simp; omega
  · simp; omega

/-- The `n` bytes from a place on, if there are that many. -/
def slice? (place n : Nat) (b : Bytes) : Option Bytes :=
  if place + n ≤ b.length then some ((b.drop place).take n) else none

theorem slice?_eq_some_iff {place n : Nat} {b part : Bytes} :
    slice? place n b = some part ↔ place + n ≤ b.length ∧ (b.drop place).take n = part := by
  unfold slice?
  split <;> simp [*]

/-- A part with as many bytes before it as its place says. -/
theorem slice?_append {place n : Nat} {front part : Bytes} (hfront : front.length = place)
    (hpart : part.length = n) (rest : Bytes) : slice? place n (front ++ (part ++ rest)) = some part := by
  subst hfront hpart
  refine slice?_eq_some_iff.2 ⟨?_, ?_⟩
  · rw [List.length_append, List.length_append]
    omega
  · rw [List.drop_left, List.take_left]

/-- The front of what follows a place. -/
theorem split?_drop (place : Nat) {n : Nat} (hn : 0 < n) (b : Bytes) :
    split? n (b.drop place) = (slice? place n b).map fun part => (part, b.drop (place + n)) := by
  simp only [split?, slice?, List.length_take, List.length_drop, List.drop_drop]
  by_cases h : place + n ≤ b.length
  · rw [if_pos h, if_pos (by omega)]
    rfl
  · rw [if_neg h, if_neg (by omega)]
    rfl

/-! ### Big-endian numbers -/

/-- The number that big-endian bytes spell. -/
def value (b : Bytes) : Nat := b.foldl (fun n byte => n * 256 + byte.toNat) 0

/-- The low `width` bytes of a number, the most significant first. -/
def ofNat : (width n : Nat) → Bytes
  | 0, _ => []
  | width + 1, n => ofNat width (n / 256) ++ [UInt8.ofNat n]

/-- How many numbers there are of `width` bytes. -/
def capacity : (width : Nat) → Nat
  | 0 => 1
  | width + 1 => 256 * capacity width

theorem value_concat (b : Bytes) (byte : UInt8) :
    value (b ++ [byte]) = value b * 256 + byte.toNat := by
  simp [value]

@[simp] theorem length_ofNat (width n : Nat) : (ofNat width n).length = width := by
  induction width generalizing n with
  | zero => rfl
  | succ width ih => simp [ofNat, ih]

theorem value_ofNat (width n : Nat) : value (ofNat width n) = n % capacity width := by
  induction width generalizing n with
  | zero => rw [capacity, Nat.mod_one]; rfl
  | succ width ih =>
    rw [ofNat, value_concat, ih, capacity, Nat.mod_mul, UInt8.toNat_ofNat']
    omega

/-- The bytes of a number followed by one more. -/
theorem ofNat_concat (width n : Nat) (byte : UInt8) :
    ofNat (width + 1) (n * 256 + byte.toNat) = ofNat width n ++ [byte] := by
  have hbyte := byte.toNat_lt
  have hhigh : (n * 256 + byte.toNat) / 256 = n := by omega
  have hlow : UInt8.ofNat (n * 256 + byte.toNat) = byte := by
    apply UInt8.toNat_inj.1
    rw [UInt8.toNat_ofNat']
    omega
  rw [ofNat, hhigh, hlow]

theorem ofNat_value (b : Bytes) : ofNat b.length b.value = b := by
  induction h : b.length generalizing b with
  | zero => rw [List.length_eq_zero_iff.1 h]; rfl
  | succ width ih =>
    obtain ⟨front, byte, rfl⟩ : ∃ front byte, b = front ++ [byte] :=
      ⟨_, _, (List.dropLast_concat_getLast (List.ne_nil_of_length_eq_add_one h)).symm⟩
    rw [value_concat, ofNat_concat, ih front (by simpa using h)]

theorem value_lt (b : Bytes) : b.value < capacity b.length := by
  have hpos (width : Nat) : 0 < capacity width := by
    induction width with
    | zero => decide
    | succ width ih => rw [capacity]; omega
  rw [← ofNat_value b, value_ofNat, length_ofNat]
  exact Nat.mod_lt _ (hpos _)

end Bytes

/-! ### Readers -/

/-- Reads fields from the front of its input, and fails with an `ε`. -/
abbrev Reader (ε : Type) := StateT Bytes (Except ε)

/-- What it means for a format that its bytes end inside a field. -/
class Truncated (ε : Type) where
  truncated : ε

/-- What sort of thing is wrong when bytes are read or written. -/
inductive ErrorKind where
  /-- The bytes end inside a field. -/
  | unexpectedEnd
  /-- The bytes are not of the format. -/
  | invalidData
  /-- What is asked for cannot be done with what is given. -/
  | invalidInput
  deriving DecidableEq, Repr

namespace Reader
variable {ε : Type} [Truncated ε]

/-- The next `n` bytes. -/
def bytes (n : Nat) : Reader ε Bytes := fun b =>
  match b.split? n with
  | some (front, rest) => .ok (front, rest)
  | none => .error Truncated.truncated

/-- A number of `n` bytes. -/
def number (n : Nat) : Reader ε Nat := return (← bytes n).value

def u8 : Reader ε UInt8 := return UInt8.ofNat (← number 1)

def u16 : Reader ε UInt16 := return UInt16.ofNat (← number 2)

def u32 : Reader ε UInt32 := return UInt32.ofNat (← number 4)

def u64 : Reader ε UInt64 := return UInt64.ofNat (← number 8)

/-- Goes on only if the bytes read so far satisfy a condition. -/
def require (c : Prop) [Decidable c] (e : ε) : Reader ε Unit := fun b =>
  if c then .ok ((), b) else .error e

/-- A length byte and that many bytes. -/
def counted : Reader ε Bytes := do bytes (← u8).toNat

omit [Truncated ε] in
theorem require_eq_ok_iff {c : Prop} [Decidable c] {e : ε} {b rest : Bytes} {u : Unit} :
    require c e b = .ok (u, rest) ↔ c ∧ b = rest := by
  unfold require
  split <;> simp_all

omit [Truncated ε] in
/-- One field after another. -/
theorem bind_eq_ok_iff {α β : Type} {m : Reader ε α} {f : α → Reader ε β} {b rest : Bytes} {y : β} :
    (m >>= f) b = .ok (y, rest) ↔ ∃ x mid, m b = .ok (x, mid) ∧ f x mid = .ok (y, rest) := by
  show (m b >>= fun (x, mid) => f x mid) = _ ↔ _
  cases h : m b with
  | error e => simp [bind, Except.bind]
  | ok p =>
    obtain ⟨x, mid⟩ := p
    simp only [bind, Except.bind, Except.ok.injEq, Prod.mk.injEq]
    exact ⟨fun h => ⟨x, mid, ⟨rfl, rfl⟩, h⟩, fun ⟨_, _, ⟨rfl, rfl⟩, h⟩ => h⟩

omit [Truncated ε] in
theorem pure_eq_ok_iff {α : Type} {x y : α} {b rest : Bytes} :
    (pure x : Reader ε α) b = .ok (y, rest) ↔ x = y ∧ b = rest := by
  show Except.ok (x, b) = Except.ok (y, rest) ↔ _
  rw [Except.ok.injEq, Prod.mk.injEq]

omit [Truncated ε] in
theorem require_eq_error_iff {c : Prop} [Decidable c] {e e' : ε} {b : Bytes} :
    require c e b = .error e' ↔ ¬ c ∧ e = e' := by
  unfold require
  split <;> simp_all

omit [Truncated ε] in
/-- Fields fail at the first one that does. -/
theorem bind_eq_error_iff {α β : Type} {m : Reader ε α} {f : α → Reader ε β} {b : Bytes} {e : ε} :
    (m >>= f) b = .error e ↔ m b = .error e ∨ ∃ x mid, m b = .ok (x, mid) ∧ f x mid = .error e := by
  show (m b >>= fun (x, mid) => f x mid) = _ ↔ _
  cases h : m b with
  | error e' => simp [bind, Except.bind]
  | ok p =>
    obtain ⟨x, mid⟩ := p
    simp only [bind, Except.bind, Except.ok.injEq, Prod.mk.injEq, reduceCtorEq, false_or]
    exact ⟨fun h => ⟨x, mid, ⟨rfl, rfl⟩, h⟩, fun ⟨_, _, ⟨rfl, rfl⟩, h⟩ => h⟩

omit [Truncated ε] in
theorem pure_ne_error {α : Type} {x : α} {b : Bytes} {e : ε} : (pure x : Reader ε α) b ≠ .error e :=
  nofun

theorem bytes_eq_ok_iff {n : Nat} {b front rest : Bytes} :
    (bytes n : Reader ε Bytes) b = .ok (front, rest) ↔ b = front ++ rest ∧ front.length = n := by
  rw [← Bytes.split?_eq_some_iff, bytes]
  cases b.split? n with
  | none => simp
  | some p => cases p; simp

/-- The only thing that can be wrong with a field. -/
theorem bytes_eq_error_iff {n : Nat} {b : Bytes} {e : ε} :
    (bytes n : Reader ε Bytes) b = .error e ↔ b.length < n ∧ e = Truncated.truncated := by
  rw [← Bytes.split?_eq_none_iff, bytes]
  cases b.split? n <;> simp [eq_comm]

theorem number_eq_ok_iff {n value : Nat} {b rest : Bytes} :
    (number n : Reader ε Nat) b = .ok (value, rest) ↔
      ∃ front, b = front ++ rest ∧ front.length = n ∧ front.value = value := by
  rw [number, bind_eq_ok_iff]
  simp only [bytes_eq_ok_iff, pure_eq_ok_iff]
  constructor
  · rintro ⟨x, mid, ⟨rfl, rfl⟩, rfl, rfl⟩
    exact ⟨x, rfl, rfl, rfl⟩
  · rintro ⟨x, rfl, rfl, rfl⟩
    exact ⟨x, rest, ⟨rfl, rfl⟩, rfl, rfl⟩

theorem number_eq_error_iff {n : Nat} {b : Bytes} {e : ε} :
    (number n : Reader ε Nat) b = .error e ↔ b.length < n ∧ e = Truncated.truncated := by
  rw [number, bind_eq_error_iff]
  simp only [bytes_eq_error_iff, pure_ne_error, and_false, exists_false, or_false]

/-- A number of `n` bytes is written with `n` bytes. -/
theorem number_eq_ok_iff_ofNat {n value : Nat} {b rest : Bytes} :
    (number n : Reader ε Nat) b = .ok (value, rest) ↔
      value < Bytes.capacity n ∧ b = Bytes.ofNat n value ++ rest := by
  rw [number_eq_ok_iff]
  constructor
  · rintro ⟨front, rfl, rfl, rfl⟩
    exact ⟨Bytes.value_lt front, by rw [Bytes.ofNat_value]⟩
  · rintro ⟨hlt, rfl⟩
    refine ⟨Bytes.ofNat n value, rfl, Bytes.length_ofNat n value, ?_⟩
    rw [Bytes.value_ofNat, Nat.mod_eq_of_lt hlt]

/-- A word type of `n` bytes: its values are the numbers below the capacity. -/
theorem word_eq_ok_iff {α : Type} {n : Nat} {ofNat : Nat → α} {toNat : α → Nat}
    (hlt : ∀ x, toNat x < Bytes.capacity n) (hof : ∀ x, ofNat (toNat x) = x)
    (hto : ∀ v, v < Bytes.capacity n → toNat (ofNat v) = v) {x : α} {b rest : Bytes} :
    (do return ofNat (← number n) : Reader ε α) b = .ok (x, rest) ↔
      b = Bytes.ofNat n (toNat x) ++ rest := by
  rw [bind_eq_ok_iff]
  simp only [number_eq_ok_iff_ofNat, pure_eq_ok_iff]
  constructor
  · rintro ⟨value, mid, ⟨hvalue, rfl⟩, rfl, rfl⟩
    rw [hto value hvalue]
  · rintro rfl
    exact ⟨toNat x, rest, ⟨hlt x, rfl⟩, hof x, rfl⟩

theorem u16_eq_ok_iff {x : UInt16} {b rest : Bytes} :
    (u16 : Reader ε UInt16) b = .ok (x, rest) ↔ b = Bytes.ofNat 2 x.toNat ++ rest :=
  word_eq_ok_iff (n := 2) UInt16.toNat_lt (fun _ => UInt16.ofNat_toNat)
    fun _ h => UInt16.toNat_ofNat_of_lt' h

theorem u32_eq_ok_iff {x : UInt32} {b rest : Bytes} :
    (u32 : Reader ε UInt32) b = .ok (x, rest) ↔ b = Bytes.ofNat 4 x.toNat ++ rest :=
  word_eq_ok_iff (n := 4) UInt32.toNat_lt (fun _ => UInt32.ofNat_toNat)
    fun _ h => UInt32.toNat_ofNat_of_lt' h

theorem u64_eq_ok_iff {x : UInt64} {b rest : Bytes} :
    (u64 : Reader ε UInt64) b = .ok (x, rest) ↔ b = Bytes.ofNat 8 x.toNat ++ rest :=
  word_eq_ok_iff (n := 8) UInt64.toNat_lt (fun _ => UInt64.ofNat_toNat)
    fun _ h => UInt64.toNat_ofNat_of_lt' h

theorem u8_eq_ok_iff {x : UInt8} {b rest : Bytes} :
    (u8 : Reader ε UInt8) b = .ok (x, rest) ↔ b = x :: rest := by
  rw [u8, bind_eq_ok_iff]
  simp only [number_eq_ok_iff, pure_eq_ok_iff]
  constructor
  · rintro ⟨_, mid, ⟨front, rfl, hlength, rfl⟩, rfl, rfl⟩
    obtain ⟨byte, rfl⟩ := List.length_eq_one_iff.1 hlength
    simp [Bytes.value]
  · rintro rfl
    exact ⟨x.toNat, rest, ⟨[x], rfl, rfl, by simp [Bytes.value]⟩, by simp, rfl⟩

theorem u8_eq_error_iff {b : Bytes} {e : ε} :
    (u8 : Reader ε UInt8) b = .error e ↔ b = [] ∧ e = Truncated.truncated := by
  rw [u8, bind_eq_error_iff]
  simp only [number_eq_error_iff, pure_ne_error, and_false, exists_false, or_false, Nat.lt_one_iff,
    List.length_eq_zero_iff]

theorem counted_eq_ok_iff {found b rest : Bytes} :
    (counted : Reader ε Bytes) b = .ok (found, rest) ↔
      found.length < 256 ∧ b = UInt8.ofNat found.length :: (found ++ rest) := by
  rw [counted, bind_eq_ok_iff]
  simp only [u8_eq_ok_iff, bytes_eq_ok_iff]
  constructor
  · rintro ⟨length, mid, rfl, rfl, hlength⟩
    rw [hlength, UInt8.ofNat_toNat]
    exact ⟨length.toNat_lt, rfl⟩
  · rintro ⟨hlt, rfl⟩
    exact ⟨_, _, rfl, rfl, (UInt8.toNat_ofNat_of_lt' hlt).symm⟩

end Reader
end ClassicIcons
