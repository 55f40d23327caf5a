import ClassicIcons.Proofs.Zlib.Room

/-! Streams of a single stored block.

Bytes need not be compressed to stand in a stream: up to 65535 of them fit into one
block that stores them as they are (`stored`). Such a stream is complete
(`completes_stored`), so there is one for every content of that length. -/
namespace ClassicIcons.Zlib

namespace BitReader

theorem bind_of_ok {α β : Type} {m : BitReader α} {f : α → BitReader β} {s mid : Source} {x : α}
    (h : m s = .ok (x, mid)) : (m >>= f) s = f x mid := by
  show (m s >>= fun (x, mid) => f x mid) = _
  rw [h]
  rfl

theorem require_of {c : Prop} [Decidable c] (h : c) (s : Source) : require c s = .ok ((), s) := by
  rw [require, if_pos h]
  rfl

theorem bind_of_error {α β : Type} {m : BitReader α} {f : α → BitReader β} {s : Source} {fault : Fault}
    (h : m s = .error fault) : (m >>= f) s = .error fault := by
  show (m s >>= fun (x, mid) => f x mid) = _
  rw [h]
  rfl

/-- The number that bits spell, the lowest first. -/
def number : List Bool → Nat
  | [] => 0
  | x :: bits => x.toNat + 2 * number bits

theorem field_bits (bits rest : List Bool) (bytes : Bytes) :
    field bits.length ⟨bits ++ rest, bytes⟩ = .ok (number bits, ⟨rest, bytes⟩) := by
  induction bits with
  | nil => rfl
  | cons x bits ih =>
    have hbit : bit ⟨x :: (bits ++ rest), bytes⟩ = .ok (x, ⟨bits ++ rest, bytes⟩) := rfl
    rw [List.length_cons, field, List.cons_append, bind_of_ok hbit, bind_of_ok ih]
    rfl

theorem number_bitsOf (byte : UInt8) : number (bitsOf byte) = byte.toNat := by
  have hbits (i : Nat) := Nat.toNat_testBit byte.toNat i
  have hlt := byte.toNat_lt
  show (byte.toNat.testBit 0).toNat + 2 * ((byte.toNat.testBit 1).toNat + 2 *
    ((byte.toNat.testBit 2).toNat + 2 * ((byte.toNat.testBit 3).toNat + 2 *
    ((byte.toNat.testBit 4).toNat + 2 * ((byte.toNat.testBit 5).toNat + 2 *
    ((byte.toNat.testBit 6).toNat + 2 * ((byte.toNat.testBit 7).toNat + 2 * 0))))))) = _
  simp only [hbits]
  omega

/-- Eight bits from where a byte starts are that byte. -/
theorem field_byte (byte : UInt8) (rest : Bytes) :
    field 8 ⟨[], byte :: rest⟩ = .ok (byte.toNat, ⟨[], rest⟩) := by
  have hbits := field_bits (bitsOf byte) [] rest
  rw [List.append_nil, number_bitsOf] at hbits
  have hlength : (bitsOf byte).length = 8 := rfl
  rw [hlength] at hbits
  -- The first bit puts the others at hand.
  have hfirst : field 8 ⟨[], byte :: rest⟩ = field 8 ⟨bitsOf byte, rest⟩ := rfl
  rw [hfirst, hbits]

/-- A field is two shorter ones, the low bits first. -/
theorem field_add {m n low high : Nat} {s mid rest : Source} (hlow : field m s = .ok (low, mid))
    (hhigh : field n mid = .ok (high, rest)) : field (m + n) s = .ok (low + Nat.pow 2 m * high, rest) := by
  induction m generalizing s low with
  | zero =>
    cases hlow
    rw [Nat.zero_add, hhigh, Nat.zero_add]
    show _ = Except.ok (1 * high, rest)
    rw [Nat.one_mul]
  | succ m ih =>
    rw [Nat.succ_add]
    cases hbit : bit s with
    | error fault =>
      rw [field, bind_of_error hbit] at hlow
      cases hlow
    | ok result =>
      obtain ⟨x, after⟩ := result
      rw [field, bind_of_ok hbit] at hlow
      cases hmore : field m after with
      | error fault =>
        rw [bind_of_error hmore] at hlow
        cases hlow
      | ok result =>
        obtain ⟨more, after'⟩ := result
        rw [bind_of_ok hmore] at hlow
        cases hlow
        rw [field, bind_of_ok hbit, bind_of_ok (ih hmore)]
        show Except.ok (x.toNat + 2 * (more + Nat.pow 2 m * high), rest) =
          Except.ok (x.toNat + 2 * more + Nat.pow 2 m * 2 * high, rest)
        rw [Nat.mul_add, Nat.add_assoc, ← Nat.mul_assoc, Nat.mul_comm 2 (Nat.pow 2 m)]

/-- Sixteen bits are two bytes, the low one first. -/
theorem field_two_bytes (low high : UInt8) (rest : Bytes) :
    field 16 ⟨[], low :: high :: rest⟩ = .ok (low.toNat + 256 * high.toNat, ⟨[], rest⟩) :=
  field_add (field_byte low (high :: rest)) (field_byte high rest)

end BitReader

open BitReader (bind_of_ok field_byte field_two_bytes require_of)

/-! ### The checksum -/

/-- Two sums that stay below the modulus of the checksum. -/
theorem sums_lt (sums : Nat × Nat) (h : sums.1 < 65521 ∧ sums.2 < 65521) :
    (match sums with | (a, b) => b * 65536 + a) < UInt32.size := by
  obtain ⟨a, b⟩ := sums
  show b * 65536 + a < 4294967296
  simp only at h
  omega

theorem adler32_lt (out : Array UInt8) : adler32 out < UInt32.size := by
  apply sums_lt
  apply Array.foldl_induction fun _ (sums : Nat × Nat) => sums.1 < 65521 ∧ sums.2 < 65521
  · exact ⟨by decide, by decide⟩
  · intro i sums _
    exact ⟨Nat.mod_lt _ (by decide), Nat.mod_lt _ (by decide)⟩

/-- As many bytes as wanted, from where one starts. -/
theorem mapM_field_byte (bytes rest : Bytes) :
    ((List.replicate bytes.length 8).mapM BitReader.field) ⟨[], bytes ++ rest⟩ =
      .ok (bytes.map UInt8.toNat, ⟨[], rest⟩) := by
  induction bytes with
  | nil => rfl
  | cons byte bytes ih =>
    rw [List.length_cons, List.replicate_succ, List.mapM_cons, List.cons_append,
      bind_of_ok (field_byte byte _), bind_of_ok ih]
    rfl

/-- A checksum that was written is accepted. -/
theorem checksum_ofNat (out : Array UInt8) :
    checksum out ⟨[], Bytes.ofNat 4 (adler32 out)⟩ = .ok ((), ⟨[], []⟩) := by
  have hbytes := mapM_field_byte (Bytes.ofNat 4 (adler32 out)) []
  have hvalue : ((Bytes.ofNat 4 (adler32 out)).map UInt8.toNat).foldl (fun n byte => n * 256 + byte) 0 =
      adler32 out := by
    rw [List.foldl_map]
    show (Bytes.ofNat 4 (adler32 out)).value = _
    rw [Bytes.value_ofNat]
    exact Nat.mod_eq_of_lt (adler32_lt out)
  rw [Bytes.length_ofNat, List.append_nil] at hbytes
  have halign : BitReader.align ⟨[], Bytes.ofNat 4 (adler32 out)⟩ = .ok ((), ⟨[], Bytes.ofNat 4 (adler32 out)⟩) := rfl
  rw [checksum, bind_of_ok halign]
  exact (bind_of_ok hbytes).trans (require_of hvalue _)

/-! ### The block -/

/-- What is still to come of a last block that stores bytes. -/
def storing (left : Nat) : Option Phase := if left = 0 then none else some (.stored left true)

/-- From any point of a stored block: its bytes come out as they are. -/
theorem run_storing (data rest : Bytes) (out : Array UInt8) {room : Nat}
    (hroom : out.size + data.length ≤ room) :
    run room (storing data.length) out ⟨[], data ++ rest⟩ = run room none (out ++ data.toArray) ⟨[], rest⟩ := by
  induction data generalizing out with
  | nil => simp [storing]
  | cons byte data ih =>
    rw [List.length_cons] at hroom
    have hstep : step (.stored (data.length + 1) true) ⟨[], byte :: (data ++ rest)⟩ =
        .ok ((storing data.length, .byte byte), ⟨[], data ++ rest⟩) := by
      have hafter : (if data.length + 1 ≤ 1 then Phase.after true
          else some (.stored (data.length + 1 - 1) true)) = storing data.length := by
        by_cases h : data.length = 0
        · rw [storing, if_pos h, if_pos (by omega)]
          rfl
        · rw [storing, if_neg h, if_neg (by omega), Nat.add_sub_cancel]
      rw [step, bind_of_ok (field_byte byte _), hafter, UInt8.ofNat_toNat]
      rfl
    have hphase : storing (byte :: data).length = some (.stored (data.length + 1) true) := rfl
    have hroom' : (out.push byte).size + data.length ≤ room := by
      rw [Array.size_push]
      omega
    rw [hphase, List.cons_append, run_of_step (by omega) hstep, Addition.onto, ih _ hroom']
    congr 1
    simp

/-- The stream that stores some bytes. -/
def stored (data : Bytes) : Bytes :=
  0x78 :: 0x01 :: 0x01 :: UInt8.ofNat data.length :: UInt8.ofNat (data.length / 256) ::
    UInt8.ofNat (0xffff - data.length) :: UInt8.ofNat ((0xffff - data.length) / 256) ::
    (data ++ Bytes.ofNat 4 (adler32 data.toArray))

theorem length_stored (data : Bytes) : (stored data).length = data.length + 11 := by
  simp only [stored, List.length_cons, List.length_append, Bytes.length_ofNat]

theorem blockHeader_stored {length : Nat} (h : length < 65536) (rest : Bytes) :
    blockHeader ⟨[], 0x01 :: UInt8.ofNat length :: UInt8.ofNat (length / 256) ::
      UInt8.ofNat (0xffff - length) :: UInt8.ofNat ((0xffff - length) / 256) :: rest⟩ =
      .ok (storing length, ⟨[], rest⟩) := by
  have hlength : (UInt8.ofNat length).toNat + 256 * (UInt8.ofNat (length / 256)).toNat = length := by
    rw [UInt8.toNat_ofNat', UInt8.toNat_ofNat']
    omega
  have hcomplement : (UInt8.ofNat (0xffff - length)).toNat +
      256 * (UInt8.ofNat ((0xffff - length) / 256)).toNat = 0xffff - length := by
    rw [UInt8.toNat_ofNat', UInt8.toNat_ofNat']
    omega
  have hsum : length + (0xffff - length) = 0xffff := by omega
  -- The last bits of the first byte are left out.
  have hfront (bytes : Bytes) : blockHeader ⟨[], 0x01 :: bytes⟩ = (do
      let length ← BitReader.field 16
      let complement ← BitReader.field 16
      BitReader.require (length + complement = 0xffff)
      return if length = 0 then Phase.after true else some (.stored length true)) ⟨[], bytes⟩ := rfl
  rw [hfront, bind_of_ok (field_two_bytes _ _ _), bind_of_ok (field_two_bytes _ _ _), hlength,
    hcomplement, bind_of_ok (require_of hsum _)]
  rfl

theorem header_stored (rest : Bytes) : header ⟨[], 0x78 :: 0x01 :: rest⟩ = .ok ((), ⟨[], rest⟩) := by
  rw [header, bind_of_ok (field_byte _ _), bind_of_ok (field_byte _ _), bind_of_ok (require_of (by decide) _)]
  exact require_of (by decide) _

attribute [local instance] inflater

/-- **Any bytes up to 65535 can be stored in a stream.** -/
theorem completes_stored {data : Bytes} (h : data.length < 65536) : Completes (stored data) data := by
  have hblock : step .block ⟨[], (stored data).drop 2⟩ =
      .ok ((storing data.length, .nothing), ⟨[], data ++ Bytes.ofNat 4 (adler32 data.toArray)⟩) :=
    bind_of_ok (blockHeader_stored h _)
  have hroom : (#[] : Array UInt8).size + data.length ≤ data.length := by simp
  refine completes_of_outcome data.length ?_
  simp only [outcome, stored, header_stored]
  refine (run_of_step (Nat.zero_le _) hblock).trans ?_
  rw [Addition.onto, run_storing data _ #[] hroom, Array.empty_append, run_none (by simp), checksum_ofNat]

end ClassicIcons.Zlib
