import Mathlib.Data.List.Basic

/-! Text as Python reads it: lists of characters, and what it asks the Unicode database. -/
namespace XtrMessenger.Foundation

instance lawfulBEqText : LawfulBEq (List Char) := inferInstance

/-- What Python reads off the Unicode database. -/
class Unicode where
  isPrintable : Char → Bool
  isDigit : Char → Bool
  /-- `str.lower`. -/
  lower : List Char → List Char
  /-- `unicodedata.normalize("NFKC", s)`. -/
  nfkc : List Char → List Char

/-- The database as far as ASCII text needs it. -/
abbrev Unicode.ascii : Unicode where
  isPrintable c := ' ' ≤ c && c ≤ '~'
  isDigit := Char.isDigit
  lower := List.map Char.toLower
  nfkc s := s

/-- Of ASCII text `str.lower` makes the capitals small. -/
def Unicode.LowersAscii [Unicode] : Prop :=
  ∀ s : List Char, (∀ c ∈ s, c.toNat < 0x80) → Unicode.lower s = s.map Char.toLower

namespace Text

/-- The last `width` hexadecimal digits of `n`. -/
def hex (width n : Nat) : List Char :=
  ((List.range width).map fun i => Nat.digitChar (n >>> (4 * i) % 16)).reverse

/-- How `repr` writes a character between quotes. -/
def reprChar [Unicode] (quote c : Char) : List Char :=
  if c = quote ∨ c = '\\' then ['\\', c]
  else if c = '\t' then ['\\', 't']
  else if c = '\n' then ['\\', 'n']
  else if c = '\r' then ['\\', 'r']
  else if c.toNat < 0x20 ∨ c.toNat = 0x7f then ['\\', 'x'] ++ hex 2 c.toNat
  else if c.toNat < 0x7f ∨ Unicode.isPrintable c then [c]
  else if c.toNat ≤ 0xff then ['\\', 'x'] ++ hex 2 c.toNat
  else if c.toNat ≤ 0xffff then ['\\', 'u'] ++ hex 4 c.toNat
  else ['\\', 'U'] ++ hex 8 c.toNat

/-- `repr` of a string: in single quotes, unless it holds one and no double quote. -/
def repr [Unicode] (s : List Char) : List Char :=
  let quote := if '\'' ∈ s ∧ '"' ∉ s then '"' else '\''
  quote :: s.flatMap (reprChar quote) ++ [quote]

/-- What follows `start` in a text that begins with it. -/
def afterStart (start s : String) : Option String :=
  if start.toList.isPrefixOf s.toList then some (String.ofList (s.toList.drop start.toList.length))
  else none

theorem afterStart_append (start s : String) : afterStart start (start ++ s) = some s := by
  simp [afterStart, List.isPrefixOf_iff_prefix]

theorem toString_injective : Function.Injective (toString : Nat → String) := by
  intro m n h
  have hdigits := congrArg String.toList h
  simp only [Nat.toString_eq_repr, Nat.toList_repr] at hdigits
  have hvalues := congrArg (fun digits => Nat.ofDigitChars 10 digits 0) hdigits
  simpa only [Nat.ofDigitChars_ten_toDigits] using hvalues

theorem isDigit_of_mem_toString {n : Nat} {c : Char} (h : c ∈ (toString n).toList) :
    c.isDigit = true := by
  rw [Nat.toString_eq_repr, Nat.toList_repr] at h
  exact Nat.isDigit_of_mem_toDigits (by omega) (by omega) h

end Text

/-- `f"{s!r}"`. -/
def pyRepr [Unicode] (s : String) : String := String.ofList (Text.repr s.toList)

end XtrMessenger.Foundation
