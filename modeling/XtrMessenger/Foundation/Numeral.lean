import XtrMessenger.Foundation.Points

/-! Integers as Python's `int` reads them off a text. -/
namespace XtrMessenger.Foundation

/-- What `int` reads off the Unicode database. -/
class Numerals where
  isSpace : Char → Bool
  /-- The digit a decimal character stands for. -/
  decimal : Char → Option Nat

/-- No digits but the ASCII ones, and no space beyond ASCII. -/
abbrev Numerals.ascii : Numerals where
  isSpace _ := false
  decimal _ := none

namespace Numeral

def isBlank (c : Char) : Bool := c ∈ [' ', '\t', '\n', '\x0b', '\x0c', '\r']

/-- Spaces and decimal digits beyond ASCII as ASCII ones, anything else as no digit. -/
def toAscii [Numerals] : Point → Char
  | .char c =>
    if c.toNat < 127 then c
    else if Numerals.isSpace c then ' '
    else match Numerals.decimal c with
      | some d => Nat.digitChar d
      | none => '?'
  | .surrogate _ => '?'

/-- `sys.get_int_max_str_digits()`, unless it was set. -/
def maxDigits : Nat := 4300

/-- Digits, single underscores between them. -/
def natOf (s : List Char) : Option Nat :=
  let groups := s.splitOn '_'
  let digits := groups.flatten
  if groups.all (fun g => g ≠ [] && g.all Char.isDigit) ∧ digits.length ≤ maxDigits then
    some (digits.foldl (fun n c => 10 * n + (c.toNat - '0'.toNat)) 0)
  else none

/-- `int(s)`: nothing where it raises. -/
def intOf [Numerals] (s : PyStr) : Option Int :=
  let start := (s.map toAscii).dropWhile isBlank
  match (start.reverse.dropWhile isBlank).reverse with
  | '-' :: digits => (natOf digits).map fun n => -n
  | '+' :: digits => (natOf digits).map Int.ofNat
  | digits => (natOf digits).map Int.ofNat

section
attribute [local instance] Numerals.ascii

example : intOf (points " +1_000\n") = some 1000 := by decide
example : intOf (points "1__0") = none := by decide

end

end Numeral
end XtrMessenger.Foundation
