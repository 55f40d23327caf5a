import ClassicIcons.Bytes

/-! UTF-8, with a replacement character for what is malformed.

Each longest part of a character that is cut short becomes one U+FFFD, and the
byte that cuts it short starts afresh. -/
namespace ClassicIcons.Text

/-- Stands for what cannot be decoded. -/
def replacement : Char := '\ufffd'

namespace Utf8

/-- Where decoding stands between two bytes. -/
inductive State where
  /-- Between characters. -/
  | start
  /-- Inside a character: `more` bytes must follow, the next of them from `low` to
  `high`, and `value` is what the bytes so far spell. -/
  | inside (more low high value : Nat)
  deriving DecidableEq, Repr

/-- What the first byte of a character yields, and where it leads. The bounds on
the second byte keep out surrogates, forms that are longer than needed, and
numbers past the last character. -/
def first (b : Nat) : List Char × State :=
  if b < 0x80 then ([Char.ofNat b], .start)
  else if 0xc2 ≤ b ∧ b ≤ 0xdf then ([], .inside 1 0x80 0xbf (b - 0xc0))
  else if 0xe0 ≤ b ∧ b ≤ 0xef then
    ([], .inside 2 (if b = 0xe0 then 0xa0 else 0x80) (if b = 0xed then 0x9f else 0xbf) (b - 0xe0))
  else if 0xf0 ≤ b ∧ b ≤ 0xf4 then
    ([], .inside 3 (if b = 0xf0 then 0x90 else 0x80) (if b = 0xf4 then 0x8f else 0xbf) (b - 0xf0))
  else ([replacement], .start)

/-- What one more byte yields, and where it leads. -/
def next : State → Nat → List Char × State
  | .start, b => first b
  | .inside more low high value, b =>
    if low ≤ b ∧ b ≤ high then
      let value := value * 64 + b % 64
      if more ≤ 1 then ([Char.ofNat value], .start) else ([], .inside (more - 1) 0x80 0xbf value)
    else
      let (chars, state) := first b
      (replacement :: chars, state)

def decodeFrom : State → Bytes → List Char
  | .start, [] => []
  | .inside .., [] => [replacement]
  | state, b :: rest => (next state b.toNat).1 ++ decodeFrom (next state b.toNat).2 rest

def decode (b : Bytes) : List Char := decodeFrom .start b

end Utf8
end ClassicIcons.Text
