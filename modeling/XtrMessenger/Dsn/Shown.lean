import XtrMessenger.Foundation.Dict
import XtrMessenger.Dsn.Redaction
import XtrMessenger.Url.Joining

/-! What errors and configurations show of a DSN, and when nothing of its credentials is in it. -/
namespace XtrMessenger.Dsn
open Foundation Url

section Model
variable [Unicode]

structure InvalidDsnError where
  dsn : List Char
  reason : List Char
  message : List Char

def noScheme : List Char := "has no scheme; expected something like 'amqp://host'".toList

/-- `f"dsn {shown!r} {reason}"`. -/
def messageOf (shown reason : List Char) : List Char :=
  "dsn ".toList ++ Text.repr shown ++ ' ' :: reason

/-- `InvalidDsnError(dsn, reason)`. -/
def invalidDsnError (dsn : List Char) (reason : Option (List Char)) : InvalidDsnError :=
  let reason := reason.getD noScheme
  { dsn, reason, message := messageOf (redacted dsn) reason }

/-- A mapping of texts: a `dict`, or the read-only view of one. -/
structure Options where
  entries : Dict (List Char) (List Char)
  readOnly : Bool

def Options.repr (options : Options) : List Char :=
  let items := options.entries.entries.map fun entry =>
    Text.repr entry.1 ++ ": ".toList ++ Text.repr entry.2
  let shown := '\x7b' :: (", ".toList.intercalate items) ++ ['\x7d']
  if options.readOnly then "mappingproxy(".toList ++ shown ++ [')'] else shown

structure TransportConfig where
  dsn : List Char
  queue : Option (List Char)
  options : Options

/-- `repr(config)`, with `shown` in the place of the DSN. -/
def TransportConfig.reprOf (shown : List Char) (config : TransportConfig) : List Char :=
  "TransportConfig(dsn=".toList ++ Text.repr shown ++ ", queue=".toList ++
    (config.queue.map Text.repr).getD "None".toList ++ ", options=".toList ++
    config.options.repr ++ [')']

def TransportConfig.repr (config : TransportConfig) : List Char :=
  config.reprOf (redacted config.dsn)

/-- The texts that say nothing of what stood before the last `@`: the mask, and `s://h` as it is
written or as CPython normalises it. -/
inductive Anonymous (s h : List Char) : List Char → Prop
  | mask : Anonymous s h masked
  | verbatim : Anonymous s h (withScheme s h)
  | normalised (split : SplitResult) :
    urlsplit (withScheme s h) = some split → Anonymous s h (urlunsplit split)

/-- Nothing of the credentials `c` is in what the code shows of `s://c@h`. -/
def Hidden (s c h : List Char) : Prop :=
  let dsn := withScheme s (c ++ '@' :: h)
  ∃ shown, Anonymous s h shown ∧ redacted dsn = shown ∧
    (∀ reason, (invalidDsnError dsn reason).message = messageOf shown (reason.getD noScheme)) ∧
    ∀ config : TransportConfig, config.dsn = dsn → config.repr = config.reprOf shown

end Model

section Hidden
variable {s c h : List Char}

theorem inAuthority_of_mem_safe_takeWhile :
    ∀ x ∈ safe (c.takeWhile inAuthority), inAuthority x := fun _ hx =>
  List.mem_takeWhile_imp (List.mem_filter.1 hx).1

theorem safe_at_cons : safe ('@' :: h) = '@' :: safe h := safe_cons_of_safe (by decide)

/-- Credentials without a delimiter stand in the authority, before the host. -/
theorem divided_of_inAuthority (hs : isScheme s) (hc : ∀ x ∈ c, inAuthority x) :
    divided (withScheme s (c ++ '@' :: h)) =
      { divided (withScheme s h) with
        netloc := safe c ++ '@' :: (divided (withScheme s h)).netloc } := by
  have hsafe : ∀ x ∈ safe c, inAuthority x := fun x hx => hc x (List.mem_filter.1 hx).1
  rw [divided_withScheme hs, divided_withScheme hs, safe_append, safe_at_cons,
    List.takeWhile_append_of_pos hsafe, List.dropWhile_append_of_pos hsafe,
    List.takeWhile_cons_of_pos (by decide), List.dropWhile_cons_of_pos (by decide)]
  rfl

/-- Credentials with a delimiter leave in the authority what stands before the first one, and
their `@` behind it. -/
theorem divided_of_delimiter (hs : isScheme s) (hc : ∃ x ∈ c, inAuthority x = false) :
    (divided (withScheme s (c ++ '@' :: h))).netloc = safe (c.takeWhile inAuthority) ∧
      ('@' ∈ (divided (withScheme s (c ++ '@' :: h))).path ∨
        '@' ∈ (divided (withScheme s (c ++ '@' :: h))).query ∨
        '@' ∈ (divided (withScheme s (c ++ '@' :: h))).fragment) := by
  obtain ⟨d, rest, hsplit, hd⟩ := exists_stop hc
  have hsafe : isUnsafe d = false := by
    simp only [inAuthority, Bool.and_eq_false_iff, decide_eq_false_iff_not, ne_eq, not_not] at hd
    rcases hd with (rfl | rfl) | rfl <;> decide
  have hread : safe (c ++ '@' :: h) =
      safe (c.takeWhile inAuthority) ++ d :: (safe rest ++ '@' :: safe h) := by
    conv_lhs => rw [hsplit]
    rw [safe_append, safe_append, safe_at_cons, safe_cons_of_safe hsafe, List.append_assoc,
      List.cons_append]
  rw [divided_withScheme hs, hread, takeWhile_append_stop inAuthority_of_mem_safe_takeWhile hd,
    dropWhile_append_stop inAuthority_of_mem_safe_takeWhile hd]
  refine ⟨rfl, (mem_splitPath (by decide) (by decide)).1 ?_⟩
  simp

theorem at_notMem_withScheme (hs : isScheme s) (hh : '@' ∉ h) : '@' ∉ withScheme s h := by
  have hscheme : '@' ∉ s := notMem_scheme hs (by decide)
  simp [withScheme, hscheme, hh]

theorem scheme_divided (hs : isScheme s) :
    (divided (withScheme s h)).scheme = s.map Char.toLower := by
  rw [divided_withScheme hs]
  rfl

theorem urlunsplit_ne_masked (hs : isScheme s) :
    urlunsplit (divided (withScheme s h)) ≠ masked := by
  have hne : (divided (withScheme s h)).scheme ≠ [] := by
    obtain ⟨a, rest, rfl, -⟩ := exists_alpha_of_isScheme hs
    simp [scheme_divided hs]
  intro hmasked
  have hcolon := colon_mem_urlunsplit hne
  rw [hmasked] at hcolon
  exact absurd hcolon (by decide)

theorem eq_at_of_toLower {a : Char} (h : a.toLower = '@') : a = '@' := by
  have hat : '@'.toNat = 64 := rfl
  obtain ⟨_, _, hlower⟩ | ⟨-, hsame⟩ := toLower_cases a
  · rw [h] at hlower
    omega
  · rw [← hsame, h]

theorem at_notMem_urlunsplit (hs : isScheme s) (hh : '@' ∉ h) :
    '@' ∉ urlunsplit (divided (withScheme s h)) := by
  have hsafe : '@' ∉ safe h := fun hmem => hh ((mem_safe (by decide)).1 hmem)
  intro hmem
  rcases mem_of_mem_urlunsplit (by decide) hmem with hmem | hmem | hmem
  · rw [scheme_divided hs] at hmem
    obtain ⟨a, ha, hlower⟩ := List.mem_map.1 hmem
    exact notMem_scheme hs (by decide) (eq_at_of_toLower hlower ▸ ha)
  · rw [divided_withScheme hs] at hmem
    exact hsafe ((List.takeWhile_sublist _).mem hmem)
  · rw [divided_withScheme hs] at hmem
    exact hsafe ((List.dropWhile_sublist _).mem
      ((mem_splitPath (by decide) (by decide)).2 hmem))

variable [Unicode]

theorem at_notMem_of_anonymous (hs : isScheme s) (hh : '@' ∉ h) {shown : List Char}
    (hshown : Anonymous s h shown) : '@' ∉ shown := by
  cases hshown with
  | mask => decide
  | verbatim => exact at_notMem_withScheme hs hh
  | normalised split hsplit =>
    have heq : split = divided (withScheme s h) := by
      have hread : urlsplit (withScheme s h) = some (divided (withScheme s h)) :=
        urlsplit_eq_some (by simp [hsplit])
      exact Option.some.inj (hsplit.symm.trans hread)
    rw [heq]
    exact at_notMem_urlunsplit hs hh

theorem hidden_iff_anonymous :
    Hidden s c h ↔ Anonymous s h (redacted (withScheme s (c ++ '@' :: h))) := by
  constructor
  · rintro ⟨shown, hshown, heq, -⟩
    rwa [heq]
  · intro hshown
    exact ⟨_, hshown, rfl, fun _ => rfl, fun config hdsn => by rw [TransportConfig.repr, hdsn]⟩

/-- Credentials without a delimiter go with the authority pass: `s://h` is left as CPython
writes it. -/
theorem redacted_of_inAuthority (hs : isScheme s) (hc : ∀ x ∈ c, inAuthority x) (hh : '@' ∉ h)
    (hread : urlsplit (withScheme s (c ++ '@' :: h)) ≠ none) :
    redacted (withScheme s (c ++ '@' :: h)) = urlunsplit (divided (withScheme s h)) := by
  have hhost : '@' ∉ (divided (withScheme s h)).netloc := by
    rw [divided_withScheme hs]
    exact fun hmem => hh ((mem_safe (by decide)).1 ((List.takeWhile_sublist _).mem hmem))
  have hdivided := divided_of_inAuthority (h := h) hs hc
  rw [redacted_of_mem_netloc hread (by rw [hdivided]; simp), hdivided]
  simp only [afterLast_append_cons hhost]

/-- Credentials whose first delimiter stands before any `@` go with the textual pass: `s://h` is
left as it is written. -/
theorem redacted_of_delimiter_first (hs : isScheme s) (hc : ∃ x ∈ c, inAuthority x = false)
    (hat : '@' ∉ c.takeWhile inAuthority) (hh : '@' ∉ h)
    (hread : urlsplit (withScheme s (c ++ '@' :: h)) ≠ none) :
    redacted (withScheme s (c ++ '@' :: h)) = withScheme s h := by
  have hnetloc : '@' ∉ (divided (withScheme s (c ++ '@' :: h))).netloc := by
    rw [(divided_of_delimiter hs hc).1]
    exact fun hmem => hat ((mem_safe (by decide)).1 hmem)
  rw [redacted_of_notMem_netloc hread hnetloc (by simp [withScheme]),
    textuallyWithoutCredentials_withScheme hs hh]

/-- Credentials with an `@` before their first delimiter: what follows that delimiter is shown,
down to the `@` that ends them. -/
theorem at_mem_redacted (hs : isScheme s) (hc : ∃ x ∈ c, inAuthority x = false)
    (hat : '@' ∈ c.takeWhile inAuthority)
    (hread : urlsplit (withScheme s (c ++ '@' :: h)) ≠ none) :
    '@' ∈ redacted (withScheme s (c ++ '@' :: h)) := by
  obtain ⟨hnetloc, hmem⟩ := divided_of_delimiter (h := h) hs hc
  have hat' : '@' ∈ (divided (withScheme s (c ++ '@' :: h))).netloc := by
    rw [hnetloc]
    exact (mem_safe (by decide)).2 hat
  rw [redacted_of_mem_netloc hread hat']
  exact mem_urlunsplit_of_mem hmem

/-- `s://h` read on its own, or written as CPython would write it. -/
def ReadAlone (s h : List Char) : Prop :=
  urlsplit (withScheme s h) ≠ none ∨ urlunsplit (divided (withScheme s h)) = withScheme s h

theorem anonymous_urlunsplit_iff (hs : isScheme s) :
    Anonymous s h (urlunsplit (divided (withScheme s h))) ↔ ReadAlone s h := by
  constructor
  · intro hshown
    generalize hwritten : urlunsplit (divided (withScheme s h)) = written at hshown
    cases hshown with
    | mask => exact absurd hwritten (urlunsplit_ne_masked hs)
    | verbatim => exact Or.inr hwritten
    | normalised split hsplit => exact Or.inl (by simp [hsplit])
  · rintro (hread | hwritten)
    · exact .normalised _ (urlsplit_eq_some hread)
    · rw [hwritten]
      exact .verbatim

/-- When the credentials `c` of `s://c@h` are hidden: where the mask is shown, where `c` has no
delimiter, and where its first delimiter stands before any `@`. -/
theorem hidden_iff (hs : isScheme s) (hh : '@' ∉ h) :
    Hidden s c h ↔
      urlsplit (withScheme s (c ++ '@' :: h)) = none ∨
        ((∀ x ∈ c, inAuthority x) ∧ ReadAlone s h) ∨
        ((∃ x ∈ c, inAuthority x = false) ∧ '@' ∉ c.takeWhile inAuthority) := by
  rw [hidden_iff_anonymous]
  by_cases hread : urlsplit (withScheme s (c ++ '@' :: h)) = none
  · simp only [redacted_of_refused hread, hread, true_or, iff_true]
    exact .mask
  by_cases hc : ∀ x ∈ c, inAuthority x
  · have hnone : ¬ ∃ x ∈ c, inAuthority x = false := fun ⟨x, hx, hfalse⟩ => by
      simp [hc x hx] at hfalse
    simp only [hread, hnone, false_and, or_false, false_or]
    rw [redacted_of_inAuthority hs hc hh hread, anonymous_urlunsplit_iff hs]
    exact ⟨fun halone => ⟨hc, halone⟩, And.right⟩
  · have hsome : ∃ x ∈ c, inAuthority x = false := by simpa using hc
    simp only [hread, hc, hsome, false_and, false_or, true_and]
    constructor
    · intro hshown hat
      exact at_notMem_of_anonymous hs hh hshown (at_mem_redacted hs hsome hat hread)
    · intro hat
      rw [redacted_of_delimiter_first hs hsome hat hh hread]
      exact .verbatim

end Hidden

section Sample
attribute [local instance] Unicode.ascii

theorem hidden_iff_slashInPassword :
    isScheme "amqp".toList ∧ '@' ∉ "host/vh".toList ∧
      Hidden "amqp".toList "user:s3/cret".toList "host/vh".toList := by
  have hs : isScheme "amqp".toList := by decide
  have hh : '@' ∉ "host/vh".toList := by decide
  have hslash : ∃ x ∈ "user:s3/cret".toList, inAuthority x = false := ⟨'/', by decide, by decide⟩
  exact ⟨hs, hh, (hidden_iff hs hh).2 (Or.inr (Or.inr ⟨hslash, by decide⟩))⟩

/-- An `@` before the first `/` of the password: the rest of the password is shown. -/
theorem at_before_slash_shown :
    redacted "amqp://user:p@x/secret@host".toList = "amqp://x/secret@host".toList ∧
      ¬ Hidden "amqp".toList "user:p@x/secret".toList "host".toList := by
  have hshown : redacted "amqp://user:p@x/secret@host".toList = "amqp://x/secret@host".toList := by
    decide
  refine ⟨hshown, ?_⟩
  rintro ⟨shown, hanonymous, heq, -⟩
  have hleak : shown = "amqp://x/secret@host".toList := heq.symm.trans hshown
  have hat : '@' ∈ shown := by rw [hleak]; decide
  exact at_notMem_of_anonymous (by decide) (by decide) hanonymous hat

end Sample

end XtrMessenger.Dsn
