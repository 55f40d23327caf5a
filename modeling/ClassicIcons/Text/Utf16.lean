import ClassicIcons.Text.Utf8

/-! UTF-16, with a replacement character for what is malformed.

A surrogate without its partner becomes one U+FFFD. So does an odd last byte,
together with a lead surrogate that waits in front of it. -/
namespace ClassicIcons.Text.Utf16

inductive Order where
  | little
  | big
  deriving DecidableEq, Repr

/-- A unit of two bytes, or the odd byte at the end. -/
inductive Unit16 where
  | unit (n : Nat)
  | odd
  deriving DecidableEq, Repr

def units (order : Order) : Bytes → List Unit16
  | a :: b :: rest =>
    let n := match order with
      | .little => b.toNat * 256 + a.toNat
      | .big => a.toNat * 256 + b.toNat
    .unit n :: units order rest
  | [_] => [.odd]
  | [] => []

def isLead (n : Nat) : Bool := 0xd800 ≤ n && n < 0xdc00

def isTrail (n : Nat) : Bool := 0xdc00 ≤ n && n < 0xe000

/-- What a unit yields that completes nothing, and the lead surrogate that waits
after it. -/
def first (n : Nat) : List Char × Option Nat :=
  if isLead n then ([], some n)
  else if isTrail n then ([replacement], none)
  else ([Char.ofNat n], none)

/-- What one more unit yields, and the lead surrogate that waits after it. -/
def next : Option Nat → Nat → List Char × Option Nat
  | none, n => first n
  | some lead, n =>
    if isTrail n then ([Char.ofNat (0x10000 + (lead - 0xd800) * 1024 + (n - 0xdc00))], none)
    else
      let (chars, waiting) := first n
      (replacement :: chars, waiting)

def decodeFrom : Option Nat → List Unit16 → List Char
  | none, [] => []
  | some _, [] => [replacement]
  | _, .odd :: _ => [replacement]
  | waiting, .unit n :: rest => (next waiting n).1 ++ decodeFrom (next waiting n).2 rest

def decode (order : Order) (b : Bytes) : List Char := decodeFrom none (units order b)

end ClassicIcons.Text.Utf16
