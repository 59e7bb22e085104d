import Mathlib.Data.List.SplitBy
import XtrMessenger.Url.Split

/-! CPython 3.11.10's `parse_qsl`: the fields of a query string, percent-decoded. -/
namespace XtrMessenger.Url
open Foundation

def hexValue (c : Char) : Nat :=
  if c.isDigit then c.toNat - '0'.toNat
  else if 'a' ≤ c then c.toNat - 'a'.toNat + 10
  else c.toNat - 'A'.toNat + 10

/-- `unquote_to_bytes`, of ASCII text: a `%` that two hexadecimal digits do not follow stays. -/
def unquoteToBytes : List Char → List Nat
  | '%' :: a :: b :: rest =>
    if isHexDigit a && isHexDigit b then (16 * hexValue a + hexValue b) :: unquoteToBytes rest
    else '%'.toNat :: unquoteToBytes (a :: b :: rest)
  | c :: rest => c.toNat :: unquoteToBytes rest
  | [] => []

def isContinuation (b : Nat) : Bool := 0x80 ≤ b && b ≤ 0xbf

/-- The second bytes that may follow a first one: no overlong form, no surrogate, nothing beyond
U+10FFFF. -/
def maySecond (first b : Nat) : Bool :=
  isContinuation b && (first ≠ 0xe0 || 0xa0 ≤ b) && (first ≠ 0xed || b ≤ 0x9f) &&
    (first ≠ 0xf0 || 0x90 ≤ b) && (first ≠ 0xf4 || b ≤ 0x8f)

def replacement : Char := '\uFFFD'

/-- The character a byte begins and how many of those that follow belong to it. As much of an
ill-formed sequence as could begin a character is replaced at once. -/
def leading (b : Nat) (rest : List Nat) : Char × Nat :=
  if b < 0x80 then (Char.ofNat b, 0)
  else if b < 0xc2 || 0xf4 < b then (replacement, 0)
  else match rest with
  | [] => (replacement, 0)
  | b₁ :: rest =>
    if !maySecond b b₁ then (replacement, 0)
    else if b < 0xe0 then (Char.ofNat (64 * (b - 0xc0) + (b₁ - 0x80)), 1)
    else match rest with
    | [] => (replacement, 1)
    | b₂ :: rest =>
      if !isContinuation b₂ then (replacement, 1)
      else if b < 0xf0 then
        (Char.ofNat (4096 * (b - 0xe0) + 64 * (b₁ - 0x80) + (b₂ - 0x80)), 2)
      else match rest with
      | [] => (replacement, 2)
      | b₃ :: _ =>
        if !isContinuation b₃ then (replacement, 2)
        else (Char.ofNat (262144 * (b - 0xf0) + 4096 * (b₁ - 0x80) + 64 * (b₂ - 0x80) +
          (b₃ - 0x80)), 3)

/-- What is decoded once the next `n` bytes are passed over. -/
def decodeAfter : Nat → List Nat → List Char
  | _, [] => []
  | n + 1, _ :: rest => decodeAfter n rest
  | 0, b :: rest => (leading b rest).1 :: decodeAfter (leading b rest).2 rest

/-- `bytes.decode("utf-8", "replace")`. -/
def decodeUtf8 (bytes : List Nat) : List Char := decodeAfter 0 bytes

def isAscii (c : Char) : Bool := c.toNat < 0x80

/-- `unquote`: each run of ASCII text is decoded on its own, other text stays. -/
def unquote (s : List Char) : List Char :=
  if '%' ∉ s then s
  else (s.splitBy fun a b => isAscii a == isAscii b).flatMap fun run =>
    if run.head?.any isAscii then decodeUtf8 (unquoteToBytes run) else run

example : unquote "caf%C3%A9%2f%".toList = "café/%".toList := by decide
example : unquote "%e2%82x%ff".toList = "\uFFFDx\uFFFD".toList := by decide

/-- `name=value`, as it is written: what stands before the first `=` and after it. A field without
`=` has no value. -/
structure Field where
  name : List Char
  value : List Char
  deriving DecidableEq, Repr

/-- `replace("+", " ")`. -/
def plusToSpace (s : List Char) : List Char := s.map fun c => if c = '+' then ' ' else c

/-- How a name or a value is read. -/
def readForm (s : List Char) : List Char := unquote (plusToSpace s)

/-- The fields written in a query string. -/
def fieldsOf (query : List Char) : List Field :=
  ((query.splitOn '&').filter fun written => written ≠ []).map fun written =>
    { name := (cut '=' written).1, value := (cut '=' written).2 }

/-- `parse_qsl(query, keep_blank_values)`: by default a field without a value is left out. -/
def parseQsl (query : List Char) (keepBlankValues : Bool) : List (List Char × List Char) :=
  ((fieldsOf query).filter fun field => keepBlankValues || field.value ≠ []).map fun field =>
    (readForm field.name, readForm field.value)

example : parseQsl "a=1&&b=x%20y+z&c=&d&a==2".toList false =
    [("a".toList, "1".toList), ("b".toList, "x y z".toList), ("a".toList, "=2".toList)] := by decide

theorem unquoteToBytes_ne_nil {s : List Char} (h : s ≠ []) : unquoteToBytes s ≠ [] := by
  unfold unquoteToBytes
  split
  · split_ifs <;> simp
  · simp
  · exact absurd rfl h

theorem decodeUtf8_ne_nil {bytes : List Nat} (h : bytes ≠ []) : decodeUtf8 bytes ≠ [] := by
  cases bytes with
  | nil => exact absurd rfl h
  | cons b rest => simp [decodeUtf8, decodeAfter]

theorem unquote_ne_nil {s : List Char} (h : s ≠ []) : unquote s ≠ [] := by
  by_cases hpercent : '%' ∈ s
  · rw [unquote, if_neg (not_not.mpr hpercent)]
    intro hnil
    rw [List.flatMap_eq_nil_iff] at hnil
    obtain ⟨run, hrun⟩ := List.exists_mem_of_ne_nil _ (List.splitBy_ne_nil.mpr h)
    have hread := hnil run hrun
    have hne := List.ne_nil_of_mem_splitBy hrun
    split_ifs at hread
    · exact decodeUtf8_ne_nil (unquoteToBytes_ne_nil hne) hread
    · exact hne hread
  · rw [unquote, if_pos hpercent]
    exact h

/-- A value that is written is read as one. -/
theorem readForm_eq_nil_iff {s : List Char} : readForm s = [] ↔ s = [] := by
  constructor
  · intro h
    by_contra hne
    have hplus : plusToSpace s ≠ [] := by simpa [plusToSpace] using hne
    exact unquote_ne_nil hplus h
  · intro h
    rw [h]
    rfl

end XtrMessenger.Url
