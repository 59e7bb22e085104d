import XtrMessenger.Url.Split

/-! Hiding the credentials of a DSN before it reaches a log line or an error. -/
namespace XtrMessenger.Dsn
open Foundation Url

section Model
variable [Unicode]

def masked : List Char := "<redacted dsn>".toList

/-- `str.isdigit`. -/
def isDigits (s : List Char) : Bool := s ≠ [] && s.all Unicode.isDigit

/-- The end of what `_SCHEME_PREFIX` matches at the start of `dsn`. -/
def schemePrefix (dsn : List Char) : Option Nat :=
  let scheme := (cut ':' dsn).1
  if isScheme scheme ∧ (dsn.drop scheme.length).take 3 = [':', '/', '/'] then
    some (scheme.length + 3)
  else none

/-- `_is_userinfo_shaped`: what follows the last colon is no port. -/
def isUserinfoShaped (netloc : List Char) : Bool :=
  ':' ∈ netloc && !isDigits (afterLast ':' netloc)

/-- `_is_user_like_pair`: digits behind a token that reads as a username. -/
def isUserLikePair (pair : List Char) : Bool :=
  let before := beforeLast ':' pair
  ':' ∈ pair && isDigits (afterLast ':' pair) && before ≠ [] && '.' ∉ before && '[' ∉ before &&
    Unicode.lower before ≠ "localhost".toList

def isNumericPasswordPair (split : SplitResult) : Bool :=
  split.path = [] && split.query = [] && split.fragment = [] && isUserLikePair split.netloc

def isBareUserinfoTail (tail : List Char) : Bool :=
  '/' ∉ tail && '?' ∉ tail && '#' ∉ tail && isUserinfoShaped tail

/-- `_is_bare_userinfo`: the scheme and the path `urlsplit` read are a user and a password. -/
def isBareUserinfo (split : SplitResult) : Bool :=
  let pair := split.scheme ++ ':' :: split.path
  split.netloc = [] && split.scheme ≠ [] && split.path ≠ [] && '/' ∉ split.path &&
    (isUserinfoShaped pair || isUserLikePair pair)

/-- `_textually_without_credentials`: everything up to the last `@` goes, but for `scheme://`. -/
def textuallyWithoutCredentials (dsn : List Char) : List Char :=
  let start := (schemePrefix dsn).getD 0
  let tail := afterLast '@' (dsn.drop start)
  if schemePrefix dsn = none ∧ isBareUserinfoTail tail then masked else dsn.take start ++ tail

/-- `_without_credentials`: nothing where `urlsplit` raises. -/
def withoutCredentials (dsn : List Char) : Option (List Char) := do
  let split ← urlsplit dsn
  if '@' ∈ split.netloc then
    return urlunsplit { split with netloc := afterLast '@' split.netloc }
  else if '@' ∈ dsn then return textuallyWithoutCredentials dsn
  else if split.netloc ≠ [] ∧ isUserinfoShaped split.netloc then
    return urlunsplit { split with netloc := [] }
  else if split.netloc ≠ [] ∧ isNumericPasswordPair split then
    return urlunsplit { split with netloc := [] }
  else if isBareUserinfo split then return masked
  else return dsn

def redacted (dsn : List Char) : List Char := (withoutCredentials dsn).getD masked

end Model

section Lemmas
variable {s r c h : List Char}

theorem schemePrefix_withScheme (hs : isScheme s) :
    schemePrefix (withScheme s r) = some (s.length + 3) := by
  have hcolon : ':' ∉ s := notMem_scheme hs (by decide)
  simp [schemePrefix, withScheme, cut_append_cons hcolon, hs]

variable [Unicode]

/-- The textual pass keeps a `scheme://` and what stands behind the last `@`. -/
theorem textuallyWithoutCredentials_withScheme (hs : isScheme s) (hh : '@' ∉ h) :
    textuallyWithoutCredentials (withScheme s (c ++ '@' :: h)) = withScheme s h := by
  have hdrop : (withScheme s (c ++ '@' :: h)).drop (s.length + 3) = c ++ '@' :: h := by
    simp [withScheme]
  have htake : (withScheme s (c ++ '@' :: h)).take (s.length + 3) = withScheme s [] := by
    simp [withScheme, List.take_append, List.take_of_length_le]
  simp only [textuallyWithoutCredentials, schemePrefix_withScheme hs, Option.getD_some, hdrop,
    htake, afterLast_append_cons hh, reduceCtorEq, false_and, if_false]
  simp [withScheme]

theorem urlsplit_eq_some {dsn : List Char} (h : urlsplit dsn ≠ none) :
    urlsplit dsn = some (divided dsn) := by
  simp only [urlsplit] at h ⊢
  split
  · rename_i hrefused
    simp [hrefused] at h
  · rfl

theorem redacted_of_refused {dsn : List Char} (hd : urlsplit dsn = none) :
    redacted dsn = masked := by
  simp [redacted, withoutCredentials, hd]

theorem redacted_of_mem_netloc {dsn : List Char} (hd : urlsplit dsn ≠ none)
    (hat : '@' ∈ (divided dsn).netloc) :
    redacted dsn =
      urlunsplit { divided dsn with netloc := afterLast '@' (divided dsn).netloc } := by
  simp [redacted, withoutCredentials, urlsplit_eq_some hd, hat]

theorem redacted_of_notMem_netloc {dsn : List Char} (hd : urlsplit dsn ≠ none)
    (hat : '@' ∉ (divided dsn).netloc) (hmem : '@' ∈ dsn) :
    redacted dsn = textuallyWithoutCredentials dsn := by
  simp [redacted, withoutCredentials, urlsplit_eq_some hd, hat, hmem]

end Lemmas

end XtrMessenger.Dsn
