import XtrMessenger.Foundation.Points
import XtrMessenger.Foundation.Text

/-! JSON text as Python's `json` reads it, and an object of strings as it writes one. -/
namespace XtrMessenger.Foundation

inductive Json
  | null
  | bool (value : Bool)
  /-- A number, as it was written. -/
  | number (text : PyStr)
  | string (value : PyStr)
  | array (items : List Json)
  /-- The members as they were written: of two with one name, Python keeps the last. -/
  | object (members : List (PyStr × Json))

namespace Json

section Writing

/-- `\uXXXX`. -/
def writeUnit (n : Nat) : List Char := '\\' :: 'u' :: Text.hex 4 n

/-- A character between the quotes; what is not printable ASCII is escaped. -/
def writeChar (c : Char) : List Char :=
  if c = '"' then ['\\', '"']
  else if c = '\\' then ['\\', '\\']
  else if c = '\n' then ['\\', 'n']
  else if c = '\r' then ['\\', 'r']
  else if c = '\t' then ['\\', 't']
  else if c = '\x0c' then ['\\', 'f']
  else if c = '\x08' then ['\\', 'b']
  else if ' ' ≤ c ∧ c ≤ '~' then [c]
  else if c.toNat < 0x10000 then writeUnit c.toNat
  else writeUnit (0xd800 + (c.toNat - 0x10000) / 0x400) ++
    writeUnit (0xdc00 + (c.toNat - 0x10000) % 0x400)

def writeString (s : String) : List Char := '"' :: s.toList.flatMap writeChar ++ ['"']

def writeMember (member : String × String) : List Char :=
  writeString member.1 ++ ':' :: ' ' :: writeString member.2

def writeMembers : List (String × String) → List Char
  | [] => []
  | [member] => writeMember member
  | member :: next :: members => writeMember member ++ ',' :: ' ' :: writeMembers (next :: members)

/-- `json.dumps` of a dictionary of strings. -/
def dumps (members : List (String × String)) : String :=
  String.ofList ('{' :: writeMembers members ++ ['}'])

end Writing

section Reading

def isBlank (c : Char) : Bool := c = ' ' || c = '\t' || c = '\n' || c = '\r'

/-- The text after its whitespace. -/
def skip (s : PyStr) : PyStr := s.dropWhile (Point.satisfies isBlank)

def hexValue (c : Char) : Option Nat :=
  if '0' ≤ c ∧ c ≤ '9' then some (c.toNat - 0x30)
  else if 'a' ≤ c ∧ c ≤ 'f' then some (c.toNat - 0x57)
  else if 'A' ≤ c ∧ c ≤ 'F' then some (c.toNat - 0x37)
  else none

/-- The number four hexadecimal digits stand for, and what follows them. -/
def hex4 : PyStr → Option (Nat × PyStr)
  | .char a :: .char b :: .char c :: .char d :: rest => do
    let a ← hexValue a
    let b ← hexValue b
    let c ← hexValue c
    let d ← hexValue d
    return (a * 0x1000 + b * 0x100 + c * 0x10 + d, rest)
  | _ => none

/-- The low surrogate a second escape stands for, and what follows it. -/
def lowUnit : PyStr → Option (Nat × PyStr)
  | .char '\\' :: .char 'u' :: rest => do
    let (low, rest) ← hex4 rest
    if 0xdc00 ≤ low ∧ low < 0xe000 then some (low, rest) else none
  | _ => none

/-- The code point `\u` escapes stand for: a high surrogate is joined with the low one that follows
it, and stands alone before anything else. -/
def unit (s : PyStr) : Option (Point × PyStr) := do
  let (high, rest) ← hex4 s
  if 0xd800 ≤ high ∧ high < 0xdc00 then
    match lowUnit rest with
    | some (low, rest) =>
      return (.char (Char.ofNat (0x10000 + (high - 0xd800) * 0x400 + (low - 0xdc00))), rest)
    | none => return (.ofNat high, rest)
  else return (.ofNat high, rest)

/-- What follows a backslash. -/
def escape : PyStr → Option (Point × PyStr)
  | .char '"' :: rest => some (.char '"', rest)
  | .char '\\' :: rest => some (.char '\\', rest)
  | .char '/' :: rest => some (.char '/', rest)
  | .char 'b' :: rest => some (.char '\x08', rest)
  | .char 'f' :: rest => some (.char '\x0c', rest)
  | .char 'n' :: rest => some (.char '\n', rest)
  | .char 'r' :: rest => some (.char '\r', rest)
  | .char 't' :: rest => some (.char '\t', rest)
  | .char 'u' :: rest => unit rest
  | _ => none

/-- The code points up to a closing quote, in at most so many steps. -/
def chars : Nat → PyStr → Option (PyStr × PyStr)
  | 0, _ => none
  | _, [] => none
  | _ + 1, .char '"' :: rest => some ([], rest)
  | n + 1, .char '\\' :: rest => do
    let (c, rest) ← escape rest
    let (cs, rest) ← chars n rest
    return (c :: cs, rest)
  | n + 1, .char c :: rest =>
    if ' ' ≤ c then do
      let (cs, rest) ← chars n rest
      return (.char c :: cs, rest)
    else none
  | n + 1, .surrogate c :: rest => do
    let (cs, rest) ← chars n rest
    return (.surrogate c :: cs, rest)

/-- What follows an opening quote: every step takes a code point. -/
def text (s : PyStr) : Option (PyStr × PyStr) := chars s.length s

def isDigit : Point → Bool := Point.satisfies Char.isDigit

/-- Digits, one at least, after what is already read. -/
def digits (before s : PyStr) : Option (PyStr × PyStr) :=
  if s.takeWhile isDigit = [] then none
  else some (before ++ s.takeWhile isDigit, s.dropWhile isDigit)

def integer : PyStr → Option (PyStr × PyStr)
  | .char '-' :: .char '0' :: rest => some ([.char '-', .char '0'], rest)
  | .char '-' :: rest => digits [.char '-'] rest
  | .char '0' :: rest => some ([.char '0'], rest)
  | s => digits [] s

def fraction : PyStr → PyStr × PyStr
  | .char '.' :: rest => (digits [.char '.'] rest).getD ([], .char '.' :: rest)
  | s => ([], s)

def exponent : PyStr → PyStr × PyStr
  | e :: sign :: rest =>
    if e = .char 'e' ∨ e = .char 'E' then
      if sign = .char '+' ∨ sign = .char '-' then
        (digits [e, sign] rest).getD ([], e :: sign :: rest)
      else (digits [e] (sign :: rest)).getD ([], e :: sign :: rest)
    else ([], e :: sign :: rest)
  | s => ([], s)

def readNumber (s : PyStr) : Option (Json × PyStr) := do
  let (whole, rest) ← integer s
  let (part, rest) := fraction rest
  let (power, rest) := exponent rest
  return (number (whole ++ part ++ power), rest)

/-- The names a value may be, and the numbers JSON has none for. -/
def literals : List (PyStr × Json) :=
  [(points "null", null), (points "true", bool true), (points "false", bool false),
    (points "NaN", number (points "NaN")), (points "Infinity", number (points "Infinity")),
    (points "-Infinity", number (points "-Infinity"))]

def literal (s : PyStr) : Option (Json × PyStr) :=
  literals.findSome? fun (name, value) =>
    if name.isPrefixOf s then some (value, s.drop name.length) else none

mutual

/-- A value, in at most so many steps. -/
def value : Nat → PyStr → Option (Json × PyStr)
  | 0, _ => none
  | _ + 1, .char '"' :: rest => (text rest).map fun (s, rest) => (string s, rest)
  | n + 1, .char '{' :: rest =>
    match skip rest with
    | .char '}' :: rest => some (object [], rest)
    | rest => (readMembers n rest).map fun (members, rest) => (object members, rest)
  | n + 1, .char '[' :: rest =>
    match skip rest with
    | .char ']' :: rest => some (array [], rest)
    | rest => (readItems n rest).map fun (items, rest) => (array items, rest)
  | _ + 1, s => (literal s).or (readNumber s)

/-- The members of an object, one at least, up to its closing brace. -/
def readMembers : Nat → PyStr → Option (List (PyStr × Json) × PyStr)
  | n + 1, .char '"' :: rest => do
    let (name, rest) ← text rest
    match skip rest with
    | .char ':' :: rest => do
      let (first, rest) ← value n (skip rest)
      match skip rest with
      | .char ',' :: rest => do
        let (others, rest) ← readMembers n (skip rest)
        return ((name, first) :: others, rest)
      | .char '}' :: rest => some ([(name, first)], rest)
      | _ => none
    | _ => none
  | _, _ => none

def readItems : Nat → PyStr → Option (List Json × PyStr)
  | 0, _ => none
  | n + 1, s => do
    let (first, rest) ← value n s
    match skip rest with
    | .char ',' :: rest => do
      let (others, rest) ← readItems n (skip rest)
      return (first :: others, rest)
    | .char ']' :: rest => some ([first], rest)
    | _ => none

end

/-- `json.loads`: nothing where it raises. Every step of a value takes a code point. -/
def loads (s : PyStr) : Option Json :=
  if s.head? = some (.char '\ufeff') then none
  else do
    let (read, rest) ← value s.length (skip s)
    if skip rest = [] then return read else none

end Reading

section RoundTrip
variable {rest : PyStr}

/-- What was written, as it is read. -/
def read (s : List Char) : PyStr := s.map .char

@[simp]
theorem read_cons (c : Char) (s : List Char) : read (c :: s) = .char c :: read s := rfl

@[simp]
theorem read_append (s t : List Char) : read (s ++ t) = read s ++ read t := List.map_append

@[simp]
theorem read_nil : read [] = [] := rfl

theorem hexValue_digitChar : ∀ d < 16, hexValue (Nat.digitChar d) = some d := by decide

theorem hex4_hex {n : Nat} (hn : n < 0x10000) (rest : PyStr) :
    hex4 (read (Text.hex 4 n) ++ rest) = some (n, rest) := by
  have hex : Text.hex 4 n = [Nat.digitChar (n >>> 12 % 16), Nat.digitChar (n >>> 8 % 16),
      Nat.digitChar (n >>> 4 % 16), Nat.digitChar (n % 16)] := rfl
  have digit : ∀ k, hexValue (Nat.digitChar (n >>> k % 16)) = some (n >>> k % 16) := fun k =>
    hexValue_digitChar _ (Nat.mod_lt _ (by decide))
  have hsum : n >>> 12 % 16 * 0x1000 + n >>> 8 % 16 * 0x100 + n >>> 4 % 16 * 0x10 +
      n % 16 = n := by
    simp only [Nat.shiftRight_eq_div_pow]
    omega
  simp [hex, hex4, digit, hexValue_digitChar (n % 16) (Nat.mod_lt _ (by decide)), hsum]

theorem unit_writeUnit (c : Char) (hc : c.toNat < 0x10000) (rest : PyStr) :
    escape (read ('u' :: Text.hex 4 c.toNat) ++ rest) = some (.char c, rest) := by
  have hnot : ¬(0xd800 ≤ c.toNat ∧ c.toNat < 0xdc00) := by
    rcases c.valid with h | ⟨h, -⟩
    · exact fun hs => absurd h (Nat.not_lt.mpr hs.1)
    · exact fun hs => absurd (Nat.lt_trans hs.2 (by decide)) (Nat.not_lt.mpr (Nat.le_of_lt h))
  rw [read_cons, List.cons_append, escape, unit]
  simp only [hex4_hex hc, Option.bind_eq_bind, Option.bind_some, if_neg hnot, Point.ofNat_char]
  rfl

theorem lowUnit_writeUnit {r : Nat} (hr : r < 0x400) (rest : PyStr) :
    lowUnit (read (writeUnit (0xdc00 + r)) ++ rest) = some (0xdc00 + r, rest) := by
  have hlow := hex4_hex (show 0xdc00 + r < 0x10000 by omega) rest
  have hrange : 0xdc00 ≤ 0xdc00 + r ∧ 0xdc00 + r < 0xe000 := by omega
  simp only [writeUnit, read_cons, List.cons_append, lowUnit, hlow, Option.bind_eq_bind,
    Option.bind_some, if_pos hrange]

/-- A surrogate pair. -/
theorem unit_writeUnits {q r : Nat} (hq : q < 0x400) (hr : r < 0x400) (rest : PyStr) :
    escape (read ('u' :: Text.hex 4 (0xd800 + q)) ++ (read (writeUnit (0xdc00 + r)) ++ rest)) =
      some (.char (Char.ofNat (0x10000 + q * 0x400 + r)), rest) := by
  have hhigh := hex4_hex (show 0xd800 + q < 0x10000 by omega)
    (read (writeUnit (0xdc00 + r)) ++ rest)
  have hrange : 0xd800 ≤ 0xd800 + q ∧ 0xd800 + q < 0xdc00 := by omega
  rw [read_cons, List.cons_append, escape, unit]
  simp only [hhigh, Option.bind_eq_bind, Option.bind_some, if_pos hrange, lowUnit_writeUnit hr,
    Nat.add_sub_cancel_left]
  rfl

theorem chars_escape {n : Nat} {c : Point} {s : PyStr} (h : escape s = some (c, rest)) :
    chars (n + 1) (.char '\\' :: s) = (chars n rest).map fun (cs, rest) => (c :: cs, rest) := by
  simp only [chars, h, Option.bind_eq_bind, Option.bind_some]
  cases chars n rest <;> rfl

theorem chars_plain {n : Nat} {c : Char} (hq : c ≠ '"') (hb : c ≠ '\\') (hc : ' ' ≤ c) :
    chars (n + 1) (.char c :: rest) =
      (chars n rest).map fun (cs, rest) => (.char c :: cs, rest) := by
  rw [chars.eq_5 _ _ _ (by simpa using hq) (by simpa using hb), if_pos hc]
  cases chars n rest <;> rfl

/-- A character is read back from how it is written, in one step. -/
theorem chars_writeChar (n : Nat) (c : Char) : chars (n + 1) (read (writeChar c) ++ rest) =
    (chars n rest).map fun (cs, rest) => (.char c :: cs, rest) := by
  have hvalid : c.toNat < 0x110000 := by
    rcases c.valid with h | ⟨-, h⟩
    · exact Nat.lt_trans h (by decide)
    · exact h
  have hself : Char.ofNat c.toNat = c := Char.ofNat_toNat c
  unfold writeChar
  split_ifs with hquote hback hn hr ht hf hbs hprint hunit
  · subst hquote
    exact chars_escape rfl
  · subst hback
    exact chars_escape rfl
  · subst hn
    exact chars_escape rfl
  · subst hr
    exact chars_escape rfl
  · subst ht
    exact chars_escape rfl
  · subst hf
    exact chars_escape rfl
  · subst hbs
    exact chars_escape rfl
  · exact chars_plain hquote hback hprint.1
  · exact chars_escape (unit_writeUnit c hunit rest)
  · have hread := unit_writeUnits (q := (c.toNat - 0x10000) / 0x400)
      (r := (c.toNat - 0x10000) % 0x400) (by omega) (by omega) rest
    have hsum : 0x10000 + (c.toNat - 0x10000) / 0x400 * 0x400 + (c.toNat - 0x10000) % 0x400 =
        c.toNat := by omega
    rw [hsum, hself] at hread
    rw [read_append, List.append_assoc]
    exact chars_escape hread

theorem chars_written {s : List Char} {n : Nat} (hn : s.length < n) :
    chars n (read (s.flatMap writeChar) ++ .char '"' :: rest) = some (read s, rest) := by
  induction s generalizing n with
  | nil =>
    obtain ⟨m, rfl⟩ := Nat.exists_eq_succ_of_ne_zero (Nat.ne_of_gt hn)
    rfl
  | cons c cs ih =>
    obtain ⟨m, rfl⟩ := Nat.exists_eq_succ_of_ne_zero (Nat.ne_of_gt (Nat.zero_lt_of_lt hn))
    have hm : cs.length < m := by simpa using hn
    rw [List.flatMap_cons, read_append, List.append_assoc, chars_writeChar, ih hm]
    rfl

theorem writeChar_ne_nil (c : Char) : writeChar c ≠ [] := by
  unfold writeChar writeUnit
  split_ifs <;> simp

theorem length_le_written (s : List Char) : s.length ≤ (s.flatMap writeChar).length := by
  induction s with
  | nil => exact Nat.le_refl _
  | cons c cs ih =>
    have hpos := List.length_pos_iff.mpr (writeChar_ne_nil c)
    rw [List.flatMap_cons, List.length_append, List.length_cons]
    omega

theorem text_written (s : String) :
    text (read (s.toList.flatMap writeChar) ++ .char '"' :: rest) = some (points s, rest) := by
  have hlen := length_le_written s.toList
  have hfuel : s.toList.length <
      (read (s.toList.flatMap writeChar) ++ .char '"' :: rest).length := by
    rw [List.length_append, List.length_cons, read, List.length_map]
    omega
  exact chars_written hfuel

theorem value_written (n : Nat) (s : String) :
    value (n + 1) (read (writeString s) ++ rest) = some (string (points s), rest) := by
  have hstart : read (writeString s) ++ rest =
      .char '"' :: (read (s.toList.flatMap writeChar) ++ .char '"' :: rest) := by
    simp [writeString]
  rw [hstart, value, text_written]
  rfl

theorem readMembers_member (n : Nat) (member : String × String) (s : PyStr) :
    readMembers (n + 2) (read (writeMember member) ++ s) = match skip s with
      | .char ',' :: rest => do
        let (others, rest) ← readMembers (n + 1) (skip rest)
        return ((points member.1, string (points member.2)) :: others, rest)
      | .char '}' :: rest => some ([(points member.1, string (points member.2))], rest)
      | _ => none := by
  have hstart : read (writeMember member) ++ s =
      .char '"' :: (read (member.1.toList.flatMap writeChar) ++
        .char '"' :: .char ':' :: .char ' ' :: (read (writeString member.2) ++ s)) := by
    simp [writeMember, writeString]
  have hcolon : skip (.char ':' :: .char ' ' :: (read (writeString member.2) ++ s)) =
      .char ':' :: .char ' ' :: (read (writeString member.2) ++ s) := rfl
  have hvalue : skip (.char ' ' :: (read (writeString member.2) ++ s)) =
      read (writeString member.2) ++ s := rfl
  rw [hstart, readMembers, text_written]
  simp only [Option.bind_eq_bind, Option.bind_some, hcolon, hvalue, value_written]

/-- A member as it is read. -/
def readMember (member : String × String) : PyStr × Json :=
  (points member.1, string (points member.2))

theorem readMembers_written {members : List (String × String)} (hne : members ≠ []) {n : Nat}
    (hn : members.length < n) (rest : PyStr) :
    readMembers n (read (writeMembers members) ++ .char '}' :: rest) =
      some (members.map readMember, rest) := by
  induction members generalizing n with
  | nil => exact absurd rfl hne
  | cons member members ih =>
    obtain ⟨m, rfl⟩ : ∃ m, n = m + 2 := ⟨n - 2, by rw [List.length_cons] at hn; omega⟩
    cases members with
    | nil =>
      have hend : skip (.char '}' :: rest) = .char '}' :: rest := rfl
      rw [writeMembers, readMembers_member, hend]
      rfl
    | cons next members =>
      have hstart : read (writeMembers (next :: members)) ++ .char '}' :: rest =
          skip (.char ' ' :: (read (writeMembers (next :: members)) ++ .char '}' :: rest)) := by
        cases members <;> rfl
      have hsep : skip (.char ',' :: .char ' ' ::
            (read (writeMembers (next :: members)) ++ .char '}' :: rest)) =
          .char ',' :: .char ' ' ::
            (read (writeMembers (next :: members)) ++ .char '}' :: rest) := rfl
      have hlen : (next :: members).length < m + 1 := by
        rw [List.length_cons] at hn
        omega
      rw [writeMembers, read_append, List.append_assoc, readMembers_member, read_cons, read_cons,
        List.cons_append, List.cons_append, hsep]
      simp only [← hstart, ih (by simp) hlen]
      rfl

theorem length_le_members (members : List (String × String)) :
    members.length ≤ (writeMembers members).length := by
  induction members with
  | nil => exact Nat.le_refl _
  | cons member members ih =>
    have hpos : 0 < (writeMember member).length := by simp [writeMember, writeString]
    cases members with
    | nil => exact hpos
    | cons next members =>
      simp only [writeMembers, List.length_append, List.length_cons] at ih ⊢
      omega

theorem value_object {members : List (String × String)} :
    value (writeMembers members ++ ['}']).length.succ
        (.char '{' :: read (writeMembers members ++ ['}'])) =
      some (object (members.map readMember), []) := by
  have hlen := length_le_members members
  have hfuel : members.length < (writeMembers members ++ ['}']).length := by
    rw [List.length_append, List.length_singleton]
    omega
  cases members with
  | nil => rfl
  | cons member members =>
    have hstart : ∃ s, skip (read (writeMembers (member :: members) ++ ['}'])) = .char '"' :: s ∧
        read (writeMembers (member :: members) ++ ['}']) = .char '"' :: s := by
      cases members <;> exact ⟨_, rfl, rfl⟩
    obtain ⟨s, hskip, hs⟩ := hstart
    have hread : readMembers (writeMembers (member :: members) ++ ['}']).length
        (read (writeMembers (member :: members) ++ ['}'])) =
          some ((member :: members).map readMember, []) := by
      rw [read_append]
      exact readMembers_written (List.cons_ne_nil _ _) hfuel []
    rw [hs] at hread
    rw [value, hskip]
    change (readMembers _ (.char '"' :: s)).map _ = _
    rw [hread]
    rfl

/-- What `json.dumps` writes of a dictionary of strings, `json.loads` reads back. -/
theorem loads_dumps (members : List (String × String)) :
    loads (points (dumps members)) = some (object (members.map readMember)) := by
  have htext : points (dumps members) = .char '{' :: read (writeMembers members ++ ['}']) := by
    simp [dumps, points, read]
  have hlen : (read (writeMembers members ++ ['}'])).length =
      (writeMembers members ++ ['}']).length := List.length_map _
  have hstart : (.char '{' :: read (writeMembers members ++ ['}'])).head? ≠
      some (.char '\ufeff') := by simp
  have hskip : skip (.char '{' :: read (writeMembers members ++ ['}'])) =
      .char '{' :: read (writeMembers members ++ ['}']) := rfl
  rw [loads, htext, if_neg hstart, hskip, List.length_cons, hlen, value_object]
  rfl

end RoundTrip

section Surrogates

/-- A surrogate that is escaped alone is read, and goes on standing alone. -/
theorem unit_alone {n : Nat} (hn : n < 0x800) {rest : PyStr} (halone : lowUnit rest = none) :
    escape (read ('u' :: Text.hex 4 (0xd800 + n)) ++ rest) =
      some (.surrogate ⟨n, hn⟩, rest) := by
  have hpoint : Point.ofNat (0xd800 + n) = .surrogate ⟨n, hn⟩ := by
    simp [Point.ofNat, show 0xd800 + n < 0xe000 by omega]
  rw [read_cons, List.cons_append, escape, unit]
  simp only [hex4_hex (show 0xd800 + n < 0x10000 by omega), Option.bind_eq_bind, Option.bind_some,
    halone, hpoint]
  split_ifs <;> rfl

example : text (points "\\ud800\"") = some ([.surrogate 0], []) := by decide

end Surrogates

end Json
end XtrMessenger.Foundation
