import XtrMessenger.Foundation.Text
import XtrMessenger.Url.Address

/-! `urlsplit` and `urlunsplit` as CPython 3.11.10 has them. -/
namespace XtrMessenger.Url
open Foundation

structure SplitResult where
  scheme : List Char
  netloc : List Char
  path : List Char
  query : List Char
  fragment : List Char
  deriving DecidableEq, Repr

def isSchemeChar (c : Char) : Bool := c.isAlphanum || c = '+' || c = '-' || c = '.'

/-- `[A-Za-z][A-Za-z0-9+.-]*` matches all of `s`. -/
def isScheme (s : List Char) : Bool := s.head?.any Char.isAlpha && s.all isSchemeChar

/-- A tab or a line break, which `urlsplit` removes wherever it stands. -/
def isUnsafe (c : Char) : Bool := c = '\t' || c = '\r' || c = '\n'

/-- Neither `/`, `?` nor `#`, where `_splitnetloc` ends the authority. -/
def inAuthority (c : Char) : Bool := c ≠ '/' && c ≠ '?' && c ≠ '#'

/-- The text without its unsafe characters. -/
def safe (url : List Char) : List Char := url.filter fun c => !isUnsafe c

/-- What `urlsplit` reads: `url` without leading blanks and control characters, made safe. -/
def cleaned (url : List Char) : List Char := safe (url.dropWhile fun c => c.toNat ≤ 0x20)

/-- The scheme, lowercased, and what follows its colon. -/
def splitScheme (url : List Char) : List Char × List Char :=
  let (before, after) := cut ':' url
  if ':' ∈ url ∧ isScheme before then (before.map Char.toLower, after) else ([], url)

/-- The path, the query and the fragment of what follows the authority. -/
def splitPath (scheme netloc url : List Char) : SplitResult :=
  let (url, fragment) := cut '#' url
  let (path, query) := cut '?' url
  { scheme, netloc, path, query, fragment }

/-- How `urlsplit` divides a URL it does not refuse. -/
def divided (url : List Char) : SplitResult :=
  let (scheme, url) := splitScheme (cleaned url)
  if url.take 2 = ['/', '/'] then
    splitPath scheme ((url.drop 2).takeWhile inAuthority) ((url.drop 2).dropWhile inAuthority)
  else splitPath scheme [] url

/-- The brackets of an authority: both or none, around a host `ipaddress` reads. -/
def bracketsRefused (netloc : List Char) : Bool :=
  if '[' ∈ netloc ∧ ']' ∈ netloc then !isBracketedHost (cut ']' (cut '[' netloc).2).1
  else decide ('[' ∈ netloc ∨ ']' ∈ netloc)

/-- `_checknetloc`: NFKC makes a delimiter out of another character. -/
def delimiterUnderNfkc [Unicode] (netloc : List Char) : Bool :=
  let n := netloc.filter fun c => c ∉ ['@', ':', '#', '?']
  let n' := Unicode.nfkc n
  netloc.any (fun c => 0x80 ≤ c.toNat) && n ≠ n' && ['/', '?', '#', '@', ':'].any (· ∈ n')

/-- `urlsplit(url)`: nothing where it raises `ValueError`. -/
def urlsplit [Unicode] (url : List Char) : Option SplitResult :=
  let split := divided url
  if bracketsRefused split.netloc || delimiterUnderNfkc split.netloc then none else some split

/-- `urllib.parse.uses_netloc`, but for the empty scheme. -/
def usesNetloc : List (List Char) :=
  ["ftp", "http", "gopher", "nntp", "telnet", "imap", "wais", "file", "mms", "https", "shttp",
    "snews", "prospero", "rtsp", "rtsps", "rtspu", "rsync", "svn", "svn+ssh", "sftp", "nfs",
    "git", "git+ssh", "ws", "wss"].map String.toList

/-- The authority and the path as `urlunsplit` joins them. -/
def hierarchy (split : SplitResult) : List Char :=
  if split.netloc ≠ [] ∨ split.scheme ∈ usesNetloc ∨ split.path.take 2 = ['/', '/'] then
    let slash := if split.path ≠ [] ∧ split.path.head? ≠ some '/' then ['/'] else []
    ['/', '/'] ++ split.netloc ++ slash ++ split.path
  else split.path

/-- `urlunsplit(split)`. -/
def urlunsplit (split : SplitResult) : List Char :=
  (if split.scheme ≠ [] then split.scheme ++ [':'] else []) ++ hierarchy split ++
    (if split.query ≠ [] then '?' :: split.query else []) ++
    (if split.fragment ≠ [] then '#' :: split.fragment else [])

/-- `scheme://rest`. -/
def withScheme (scheme rest : List Char) : List Char := scheme ++ ':' :: '/' :: '/' :: rest

section WithScheme
variable {s r : List Char} {c : Char}

theorem isSchemeChar_of_mem (hs : isScheme s) (hc : c ∈ s) : isSchemeChar c := by
  simp only [isScheme, Bool.and_eq_true, List.all_eq_true] at hs
  exact hs.2 c hc

theorem notMem_scheme (hs : isScheme s) (hc : isSchemeChar c = false) : c ∉ s := fun hmem => by
  simp [isSchemeChar_of_mem hs hmem] at hc

theorem exists_alpha_of_isScheme (hs : isScheme s) : ∃ c rest, s = c :: rest ∧ c.isAlpha := by
  cases s with
  | nil => simp [isScheme] at hs
  | cons c rest =>
    simp only [isScheme, List.head?_cons, Option.any_some, Bool.and_eq_true] at hs
    exact ⟨c, rest, rfl, hs.1⟩

theorem blank_lt_of_isAlpha (hc : c.isAlpha) : 0x20 < c.toNat := by
  have hval : c.toNat = c.val.toNat := rfl
  rcases (Bool.or_eq_true _ _).mp hc with hupper | hlower
  · have hA : 'A'.val.toNat ≤ c.val.toNat := (of_decide_eq_true hupper).1
    have h65 : 'A'.val.toNat = 65 := rfl
    omega
  · have ha : 'a'.val.toNat ≤ c.val.toNat := of_decide_eq_true ((Bool.and_eq_true _ _).mp hlower).1
    have h97 : 'a'.val.toNat = 97 := rfl
    omega

@[simp] theorem safe_append (x y : List Char) : safe (x ++ y) = safe x ++ safe y :=
  List.filter_append x y

theorem safe_cons_of_safe (hc : isUnsafe c = false) : safe (c :: r) = c :: safe r :=
  List.filter_cons_of_pos (by simp [hc])

theorem mem_safe (hc : isUnsafe c = false) : c ∈ safe r ↔ c ∈ r := by
  simp [safe, hc]

theorem safe_scheme (hs : isScheme s) : safe s = s := by
  refine List.filter_eq_self.2 fun c hc => ?_
  have hchar := isSchemeChar_of_mem hs hc
  simp only [Bool.not_eq_true', Bool.eq_false_iff]
  intro hunsafe
  simp only [isUnsafe, Bool.or_eq_true, decide_eq_true_eq] at hunsafe
  rcases hunsafe with (rfl | rfl) | rfl <;> exact absurd hchar (by decide)

theorem cleaned_withScheme (hs : isScheme s) :
    cleaned (withScheme s r) = withScheme s (safe r) := by
  obtain ⟨c, rest, rfl, hc⟩ := exists_alpha_of_isScheme hs
  have hblank := blank_lt_of_isAlpha hc
  unfold cleaned withScheme
  rw [List.cons_append, List.dropWhile_cons_of_neg (by simpa using hblank), ← List.cons_append,
    safe_append, safe_scheme hs]
  rfl

theorem splitScheme_withScheme (hs : isScheme s) :
    splitScheme (withScheme s r) = (s.map Char.toLower, '/' :: '/' :: r) := by
  have hcolon : ':' ∉ s := notMem_scheme hs (by decide)
  simp [splitScheme, withScheme, cut_append_cons hcolon, hs]

/-- How `urlsplit` divides `scheme://rest`: the authority ends where `rest` has a delimiter. -/
theorem divided_withScheme (hs : isScheme s) :
    divided (withScheme s r) = splitPath (s.map Char.toLower)
      ((safe r).takeWhile inAuthority) ((safe r).dropWhile inAuthority) := by
  simp [divided, cleaned_withScheme hs, splitScheme_withScheme hs]

end WithScheme

section Unsplit
variable {c : Char} {split : SplitResult}

theorem mem_splitPath {scheme netloc url : List Char} (hf : c ≠ '#') (hq : c ≠ '?') :
    c ∈ url ↔ c ∈ (splitPath scheme netloc url).path ∨
      c ∈ (splitPath scheme netloc url).query ∨ c ∈ (splitPath scheme netloc url).fragment := by
  simp only [splitPath]
  rw [mem_cut hf, mem_cut hq, or_assoc]

theorem mem_hierarchy_of_mem_path (h : c ∈ split.path) : c ∈ hierarchy split := by
  unfold hierarchy
  split <;> simp [h]

theorem mem_urlunsplit_of_mem (h : c ∈ split.path ∨ c ∈ split.query ∨ c ∈ split.fragment) :
    c ∈ urlunsplit split := by
  rcases h with h | h | h
  · simp [urlunsplit, mem_hierarchy_of_mem_path h]
  · simp [urlunsplit, List.ne_nil_of_mem h, h]
  · simp [urlunsplit, List.ne_nil_of_mem h, h]

theorem mem_of_mem_hierarchy (hc : c ≠ '/') (h : c ∈ hierarchy split) :
    c ∈ split.netloc ∨ c ∈ split.path := by
  unfold hierarchy at h
  split at h
  · split at h <;> simpa [hc] using h
  · exact Or.inr h

theorem mem_of_mem_urlunsplit (hc : c ∉ [':', '/', '?', '#']) (h : c ∈ urlunsplit split) :
    c ∈ split.scheme ∨ c ∈ split.netloc ∨ c ∈ split.path ∨ c ∈ split.query ∨
      c ∈ split.fragment := by
  simp only [List.mem_cons, List.not_mem_nil, or_false, not_or] at hc
  obtain ⟨hcolon, hslash, hquestion, hhash⟩ := hc
  simp only [urlunsplit, List.mem_append] at h
  rcases h with ((h | h) | h) | h
  · split at h
    · exact Or.inl (by simpa [hcolon] using h)
    · simp at h
  · rcases mem_of_mem_hierarchy hslash h with h | h
    · exact Or.inr (Or.inl h)
    · exact Or.inr (Or.inr (Or.inl h))
  · split at h
    · exact Or.inr (Or.inr (Or.inr (Or.inl (by simpa [hquestion] using h))))
    · simp at h
  · split at h
    · exact Or.inr (Or.inr (Or.inr (Or.inr (by simpa [hhash] using h))))
    · simp at h

theorem colon_mem_urlunsplit (h : split.scheme ≠ []) : ':' ∈ urlunsplit split := by
  simp [urlunsplit, h]

end Unsplit

end XtrMessenger.Url
