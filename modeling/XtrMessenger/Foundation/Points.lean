import Mathlib.Data.List.Basic

/-! Python's strings: lists of code points, surrogates that stand alone among them. -/
namespace XtrMessenger.Foundation

inductive Point
  | char (c : Char)
  /-- The surrogate `0xd800 + n`. -/
  | surrogate (n : Fin 0x800)
  deriving DecidableEq

abbrev PyStr := List Point

namespace Point

/-- The code point `n`, at most `0xffff`. -/
def ofNat (n : Nat) : Point :=
  if h : 0xd800 ≤ n ∧ n < 0xe000 then .surrogate ⟨n - 0xd800, by omega⟩ else .char (Char.ofNat n)

def char? : Point → Option Char
  | .char c => some c
  | .surrogate _ => none

/-- Whether a test of characters holds; of a surrogate none does. -/
def satisfies (p : Char → Bool) : Point → Bool
  | .char c => p c
  | .surrogate _ => false

theorem ofNat_char (c : Char) : ofNat c.toNat = .char c := by
  have hnot : ¬(0xd800 ≤ c.toNat ∧ c.toNat < 0xe000) := by
    rcases c.valid with h | ⟨h, -⟩
    · exact fun hs => absurd h (Nat.not_lt.mpr hs.1)
    · exact fun hs => absurd hs.2 (Nat.not_lt.mpr h)
  rw [ofNat, dif_neg hnot, Char.ofNat_toNat]

end Point

/-- A text as Python holds it. -/
def points (s : String) : PyStr := s.toList.map .char

namespace PyStr

/-- The text, where no surrogate stands alone. -/
def string? (s : PyStr) : Option String := (s.mapM Point.char?).map String.ofList

theorem mapM_char? (s : List Char) : (s.map Point.char).mapM Point.char? = some s := by
  induction s with
  | nil => rfl
  | cons c s ih => simp [List.mapM_cons, Point.char?, ih]

@[simp]
theorem string?_points (s : String) : string? (points s) = some s := by
  rw [string?, points, mapM_char?, Option.map_some, String.ofList_toList]

end PyStr

theorem points_injective : Function.Injective points := by
  intro s t h
  have hread := congrArg PyStr.string? h
  simpa using hread

end XtrMessenger.Foundation
