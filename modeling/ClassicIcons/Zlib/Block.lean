import ClassicIcons.Zlib.Huffman

/-! Blocks of a compressed stream.

A block is stored, or coded with a fixed pair of codes, or with a pair of its
own. One code has the literal bytes, the end of the block and the lengths of
repetitions, the other their distances. `step` reads the next thing of a block:
its header, one stored byte, or one symbol with what belongs to it. -/
namespace ClassicIcons.Zlib
open BitReader (field require)

/-- A code for literals and lengths, and one for distances. -/
structure Codes where
  literals : Code
  distances : Code

/-! ### Lengths and distances -/

/-- The shortest length of each length symbol, and the number of extra bits that
are added to it. -/
def lengthSymbols : List (Nat × Nat) := [
  (3, 0), (4, 0), (5, 0), (6, 0), (7, 0), (8, 0), (9, 0), (10, 0), (11, 1), (13, 1),
  (15, 1), (17, 1), (19, 2), (23, 2), (27, 2), (31, 2), (35, 3), (43, 3), (51, 3), (59, 3),
  (67, 4), (83, 4), (99, 4), (115, 4), (131, 5), (163, 5), (195, 5), (227, 5), (258, 0)]

/-- The same for distances. -/
def distanceSymbols : List (Nat × Nat) := [
  (1, 0), (2, 0), (3, 0), (4, 0), (5, 1), (7, 1), (9, 2), (13, 2), (17, 3), (25, 3),
  (33, 4), (49, 4), (65, 5), (97, 5), (129, 6), (193, 6), (257, 7), (385, 7), (513, 8), (769, 8),
  (1025, 9), (1537, 9), (2049, 10), (3073, 10), (4097, 11), (6145, 11), (8193, 12), (12289, 12),
  (16385, 13), (24577, 13)]

/-- The number that a symbol and its extra bits stand for. -/
def extended (table : List (Nat × Nat)) (symbol : Nat) : BitReader Nat :=
  match table[symbol]? with
  | some (base, bits) => return base + (← field bits)
  | none => BitReader.fail .corrupt

/-- The byte that lies `distance` bytes before the end. Before the first byte there
are zeros. -/
def byteBack (distance : Nat) (out : Array UInt8) : UInt8 :=
  if distance ≤ out.size then out.getD (out.size - distance) 0 else 0

/-- Repeats `count` bytes from `distance` bytes before the end; they may be ones
that were only just repeated. -/
def repeated (distance : Nat) : (count : Nat) → Array UInt8 → Array UInt8
  | 0, out => out
  | count + 1, out => repeated distance count (out.push (byteBack distance out))

/-! ### Codes -/

/-- The codes of a block that does not bring its own. -/
def fixedCodes : Option Codes := do
  let literals ← Code.ofLengths? (List.replicate 144 8 ++ List.replicate 112 9 ++
    List.replicate 24 7 ++ List.replicate 8 8)
  let distances ← Code.ofLengths? (List.replicate 32 5)
  return ⟨literals, distances⟩

/-- The order in which the lengths of the code for lengths are stored. -/
def lengthOrder : List Nat := [16, 17, 18, 0, 8, 7, 9, 6, 10, 5, 11, 4, 12, 3, 13, 2, 14, 1, 15]

/-- Stored lengths by symbol; those that are not stored are zero. -/
def inOrder (stored : List Nat) : List Nat :=
  (List.range lengthOrder.length).map fun symbol =>
    ((lengthOrder.zip stored).lookup symbol).getD 0

/-- The code for word lengths, which must leave no gaps. -/
def lengthCode (stored : List Nat) : BitReader Code :=
  match Code.ofLengths? (inOrder stored) with
  | some code => if code.complete then pure code else BitReader.fail .corrupt
  | none => BitReader.fail .corrupt

/-- Reads word lengths until there are `count`. The symbols from 16 on repeat the
last length, or zero; where there is no last length, its symbol alone is a fault. -/
def wordLengths (code : Code) (count : Nat) (lengths : Array Nat) : BitReader (List Nat) := do
  if lengths.size < count then
    let symbol ← code.decode
    match symbol with
    | 16 =>
      match lengths.back? with
      | some last => do wordLengths code count (lengths ++ Array.replicate ((← field 2) + 3) last)
      | none => BitReader.fail .corrupt
    | 17 => do wordLengths code count (lengths ++ Array.replicate ((← field 3) + 3) 0)
    | 18 => do wordLengths code count (lengths ++ Array.replicate ((← field 7) + 11) 0)
    | length => wordLengths code count (lengths.push length)
  else
    require (lengths.size = count)
    return lengths.toList
termination_by count - lengths.size
decreasing_by all_goals simp only [Array.size_append, Array.size_replicate, Array.size_push]; omega

/-- A code of a block. One that leaves gaps is refused, unless no word is longer
than one bit: it may have a single word, or none at all. Other decoders take a single
word of any length. -/
def blockCode (lengths : List Nat) : BitReader Code :=
  match Code.ofLengths? lengths with
  | some code =>
    if code.complete ∨ lengths.all (· ≤ 1) then pure code else BitReader.fail .corrupt
  | none => BitReader.fail .corrupt

/-- The symbol that ends a block. -/
def endOfBlock : Nat := 256

/-- The codes that a block brings with it. There may be no word for its end. -/
def ownCodes : BitReader Codes := do
  let literalCount := (← field 5) + 257
  let distanceCount := (← field 5) + 1
  let lengthCount := (← field 4) + 4
  require (literalCount ≤ 286 ∧ distanceCount ≤ 30)
  let stored ← (List.replicate lengthCount 3).mapM field
  let code ← lengthCode stored
  let lengths ← wordLengths code (literalCount + distanceCount) #[]
  let literals ← blockCode (lengths.take literalCount)
  let distances ← blockCode (lengths.drop literalCount)
  return ⟨literals, distances⟩

/-! ### Steps -/

/-- Where reading stands. -/
inductive Phase where
  /-- In front of a block. -/
  | block
  /-- Inside a stored block with `left` bytes to come. -/
  | stored (left : Nat) (last : Bool)
  | coded (codes : Codes) (last : Bool)

/-- What follows a block; nothing follows the last one. -/
def Phase.after (last : Bool) : Option Phase := if last then none else some block

/-- Reads the header of a block. -/
def blockHeader : BitReader (Option Phase) := do
  let last ← BitReader.bit
  match ← field 2 with
  | 0 =>
    BitReader.align
    let length ← field 16
    let complement ← field 16
    require (length + complement = 0xffff)
    return if length = 0 then Phase.after last else some (.stored length last)
  | 1 =>
    match fixedCodes with
    | some codes => return some (.coded codes last)
    | none => BitReader.fail .corrupt
  | 2 => return some (.coded (← ownCodes) last)
  | _ => BitReader.fail .corrupt

/-- What a step adds to what has come out. -/
inductive Addition where
  | nothing
  | byte (byte : UInt8)
  | repetition (distance count : Nat)

def Addition.onto : Addition → Array UInt8 → Array UInt8
  | nothing, out => out
  | byte b, out => out.push b
  | repetition distance count, out => repeated distance count out

/-- Reads one symbol of a block, with what belongs to it. -/
def codedStep (codes : Codes) (last : Bool) : BitReader (Option Phase × Addition) := do
  let symbol ← codes.literals.decode
  if symbol < endOfBlock then return (some (.coded codes last), .byte (UInt8.ofNat symbol))
  else if symbol = endOfBlock then return (Phase.after last, .nothing)
  else
    let count ← extended lengthSymbols (symbol - endOfBlock - 1)
    let distance ← extended distanceSymbols (← codes.distances.decode)
    return (some (.coded codes last), .repetition distance count)

/-- Reads the next thing. -/
def step : Phase → BitReader (Option Phase × Addition)
  | .block => return (← blockHeader, .nothing)
  | .stored left last => do
    let byte ← field 8
    return (if left ≤ 1 then Phase.after last else some (.stored (left - 1) last),
      .byte (UInt8.ofNat byte))
  | .coded codes last => codedStep codes last

/-! ### Every step takes a bit at least -/

theorem takes_extended (table : List (Nat × Nat)) (symbol : Nat) :
    BitReader.Takes 0 (extended table symbol) := by
  unfold extended
  split
  · exact ((BitReader.takes_field _).bind fun _ => BitReader.Takes.pure _).mono (Nat.zero_le _)
  · exact BitReader.Takes.fail _ _

theorem takes_wordLengths (code : Code) (count : Nat) (lengths : Array Nat) :
    BitReader.Takes 0 (wordLengths code count lengths) := by
  induction h : count - lengths.size using Nat.strongRecOn generalizing lengths with
  | ind left ih =>
    have again (longer : Array Nat) (hl : lengths.size < count) (hs : lengths.size < longer.size) :
        BitReader.Takes 0 (wordLengths code count longer) := ih _ (by omega) longer rfl
    rw [wordLengths]
    split
    · rename_i hl
      refine code.takes_decode.zero.seq fun symbol => ?_
      split
      · split
        · exact (BitReader.takes_field 2).zero.seq fun more => again _ hl (by simp)
        · exact BitReader.Takes.fail _ _
      · exact (BitReader.takes_field 3).zero.seq fun more => again _ hl (by simp)
      · exact (BitReader.takes_field 7).zero.seq fun more => again _ hl (by simp)
      · exact again _ hl (by simp)
    · exact (BitReader.takes_require _).seq fun _ => BitReader.Takes.pure _

theorem takes_blockCode (lengths : List Nat) : BitReader.Takes 0 (blockCode lengths) := by
  unfold blockCode
  split
  · split
    · exact BitReader.Takes.pure _
    · exact BitReader.Takes.fail _ _
  · exact BitReader.Takes.fail _ _

theorem takes_lengthCode (stored : List Nat) : BitReader.Takes 0 (lengthCode stored) := by
  unfold lengthCode
  split
  · split
    · exact BitReader.Takes.pure _
    · exact BitReader.Takes.fail _ _
  · exact BitReader.Takes.fail _ _

theorem takes_ownCodes : BitReader.Takes 0 ownCodes := by
  unfold ownCodes
  refine (BitReader.takes_field 5).zero.seq fun _ => ?_
  refine (BitReader.takes_field 5).zero.seq fun _ => ?_
  refine (BitReader.takes_field 4).zero.seq fun _ => ?_
  refine (BitReader.takes_require _).seq fun _ => ?_
  refine (BitReader.Takes.mapM (fun n => (BitReader.takes_field n).zero) _).seq fun _ => ?_
  refine (takes_lengthCode _).seq fun _ => ?_
  refine (takes_wordLengths _ _ _).seq fun _ => ?_
  refine (takes_blockCode _).seq fun _ => ?_
  exact (takes_blockCode _).seq fun _ => BitReader.Takes.pure _

theorem takes_blockHeader : BitReader.Takes 1 blockHeader := by
  unfold blockHeader
  refine BitReader.takes_bit.seq fun last => ?_
  refine (BitReader.takes_field 2).zero.seq fun type => ?_
  split
  · refine BitReader.takes_align.seq fun _ => ?_
    refine (BitReader.takes_field 16).zero.seq fun _ => ?_
    refine (BitReader.takes_field 16).zero.seq fun _ => ?_
    exact (BitReader.takes_require _).seq fun _ => BitReader.Takes.pure _
  · split
    · exact BitReader.Takes.pure _
    · exact BitReader.Takes.fail _ _
  · exact takes_ownCodes.seq fun _ => BitReader.Takes.pure _
  · exact BitReader.Takes.fail _ _

theorem takes_codedStep (codes : Codes) (last : Bool) : BitReader.Takes 1 (codedStep codes last) := by
  unfold codedStep
  refine codes.literals.takes_decode.seq fun symbol => ?_
  split
  · exact BitReader.Takes.pure _
  · split
    · exact BitReader.Takes.pure _
    · refine (takes_extended _ _).seq fun count => ?_
      refine codes.distances.takes_decode.zero.seq fun _ => ?_
      exact (takes_extended _ _).seq fun distance => BitReader.Takes.pure _

theorem takes_step (phase : Phase) : BitReader.Takes 1 (step phase) := by
  cases phase with
  | block => exact takes_blockHeader.seq fun _ => BitReader.Takes.pure _
  | stored left last =>
    exact ((BitReader.takes_field 8).mono (by decide)).seq fun _ => BitReader.Takes.pure _
  | coded codes last => exact takes_codedStep codes last

end ClassicIcons.Zlib
