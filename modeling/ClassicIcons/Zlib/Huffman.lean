import ClassicIcons.Zlib.Source

/-! Huffman codes, given by the lengths of their words.

Words of one length follow each other in the order of their symbols, shorter
words before longer ones, so in the tree of a code the leaves stand from left to
right in that order. `Code.ofLengths?` fills a tree from the left. Bits that lead to no word are
a fault. -/
namespace ClassicIcons.Zlib

/-- A code as a tree: bit 0 leads to the left, bit 1 to the right. -/
inductive Tree where
  | leaf (symbol : Nat)
  | node (zero one : Tree)
  /-- No word goes on here. -/
  | gap
  deriving DecidableEq, Repr

namespace Tree

/-- Whether every sequence of bits leads to a symbol. -/
def complete : Tree → Bool
  | leaf _ => true
  | node zero one => zero.complete && one.complete
  | gap => false

/-- Reads one symbol. -/
def decode : Tree → BitReader Nat
  | leaf symbol => pure symbol
  | gap => BitReader.fail .corrupt
  | node zero one => do if ← BitReader.bit then one.decode else zero.decode

/-- The longest word of a code. -/
def maxLength : Nat := 15

/-- Fills the subtree under a word of `depth` bits with the symbols in front of a
queue, and returns those that find no place in it. -/
def fill : (room depth : Nat) → List (Nat × Nat) → Tree × List (Nat × Nat)
  | _, _, [] => (gap, [])
  | room, depth, (length, symbol) :: queue =>
    if length ≤ depth then (leaf symbol, queue)
    else match room with
      | 0 => (gap, (length, symbol) :: queue)
      | room + 1 =>
        let (zero, rest) := fill room (depth + 1) ((length, symbol) :: queue)
        let (one, rest) := fill room (depth + 1) rest
        (node zero one, rest)

/-- The symbols that have a word, with its length, in the order of their words. -/
def queue (lengths : List Nat) : List (Nat × Nat) :=
  (List.range maxLength).flatMap fun n =>
    lengths.zipIdx.filter fun (length, _) => length = n + 1

theorem takes_decode (t : Tree) : BitReader.Takes 0 t.decode := by
  induction t with
  | leaf symbol => exact BitReader.Takes.pure symbol
  | gap => exact BitReader.Takes.fail _ _
  | node zero one ihz iho =>
    refine (BitReader.takes_bit.bind (k := 0) fun x => ?_).mono (Nat.zero_le _)
    cases x
    · exact ihz
    · exact iho

end Tree

/-- A code: the words that start with 0, and those that start with 1. -/
structure Code where
  zero : Tree
  one : Tree
  deriving DecidableEq, Repr

namespace Code

/-- The code whose words have the given lengths, 0 for a symbol without a word;
there is none if the words would not all fit. -/
def ofLengths? (lengths : List Nat) : Option Code :=
  let (zero, rest) := Tree.fill (Tree.maxLength - 1) 1 (Tree.queue lengths)
  let (one, rest) := Tree.fill (Tree.maxLength - 1) 1 rest
  if rest = [] then some ⟨zero, one⟩ else none

def complete (c : Code) : Bool := c.zero.complete && c.one.complete

/-- Reads one symbol. -/
def decode (c : Code) : BitReader Nat := do
  if ← BitReader.bit then c.one.decode else c.zero.decode

/-- A symbol has one bit at least. -/
theorem takes_decode (c : Code) : BitReader.Takes 1 c.decode := by
  refine BitReader.takes_bit.bind (k := 0) fun x => ?_
  cases x
  · exact c.zero.takes_decode
  · exact c.one.takes_decode

end Code
end ClassicIcons.Zlib
