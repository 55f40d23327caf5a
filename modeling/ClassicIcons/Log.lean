/-! The log: what a program tells about its work. -/
namespace ClassicIcons.Log

inductive Level where
  | error
  | warn
  | info
  | debug
  deriving DecidableEq, Repr

/-- Which part of the program speaks. -/
inductive Source where
  | archive
  | extract
  | command
  deriving DecidableEq, Repr

structure Entry where
  level : Level
  source : Source
  message : String
  deriving DecidableEq, Repr

def Level.name : Level → String
  | error => "ERROR"
  | warn => "WARN"
  | info => "INFO"
  | debug => "DEBUG"

def Source.name : Source → String
  | archive => "icon_dearchiver::archive"
  | extract => "icon_dearchiver::extract"
  | command => "icon_dearchiver"

/-- How much a level tells: each level includes those below it. -/
def Level.detail : Level → Nat
  | error => 1
  | warn => 2
  | info => 3
  | debug => 4

/-! ### What is shown -/

/-- How detailed an entry may be to be shown: 0 shows nothing. -/
structure Threshold where
  detail : Nat
  deriving DecidableEq, Repr

namespace Threshold

def default : Threshold := ⟨Level.info.detail⟩

/-- The threshold of a given name; the default for any other text. -/
def ofName (name : String) : Threshold :=
  match name.toLower with
  | "off" => ⟨0⟩
  | "error" => ⟨1⟩
  | "warn" => ⟨2⟩
  | "info" => ⟨3⟩
  | "debug" => ⟨4⟩
  | "trace" => ⟨5⟩
  | _ => default

def shows (t : Threshold) (e : Entry) : Bool := e.level.detail ≤ t.detail

end Threshold

/-- A number in hexadecimal, without leading zeros. -/
private def hexDigits (n : Nat) : String := String.ofList (Nat.toDigits 16 n)

/-- How a character of a message is shown. Characters that could steer a terminal
are written as numbers. -/
def shownChar (c : Char) : String :=
  match c with
  | '\x1b' => "\\x1b"
  | '\x07' => "\\x07"
  | '\x08' => "\\x08"
  | '\x0c' => "\\x0c"
  | '\x7f' => "\\x7f"
  | c =>
    if 0x80 ≤ c.toNat ∧ c.toNat ≤ 0x9f then "\\u\x7b" ++ hexDigits c.toNat ++ "\x7d"
    else c.toString

/-- An entry as shown. -/
def Entry.line (e : Entry) : String :=
  e.level.name ++ " " ++ e.source.name ++ ": " ++
    String.join (e.message.toList.map shownChar)

end ClassicIcons.Log
