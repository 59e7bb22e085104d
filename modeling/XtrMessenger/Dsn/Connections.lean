import Mathlib.Data.List.Infix
import XtrMessenger.Dsn.Settings

/-! The connection of a DSN as a DSN of its own, and as the key transports are grouped by. -/
namespace XtrMessenger.Dsn
open Foundation Url

/-- What a connection has behind its separator. -/
def address (split : SplitResult) : List Char := split.netloc ++ split.path

/-- Something stands behind the scheme's colon that is neither an authority nor begins with a
slash. -/
def Rootless (split : SplitResult) : Prop := split.path ≠ [] ∧ split.path.head? ≠ some '/'

instance (split : SplitResult) : Decidable (Rootless split) := by
  unfold Rootless
  infer_instance

section Address
variable {split split' : SplitResult}

theorem ascii_of_isSchemeChar {c : Char} (h : isSchemeChar c = true) : c.toNat < 0x80 := by
  simp only [isSchemeChar, Char.isAlphanum, Bool.or_eq_true, decide_eq_true_eq] at h
  obtain (((halpha | hdigit) | rfl) | rfl) | rfl := h
  · have hbounds := isAlpha_iff.mp halpha
    omega
  · have hval : c.toNat = c.val.toNat := rfl
    have h9 : '9'.val.toNat = 57 := rfl
    simp only [Char.isDigit, Bool.and_eq_true, decide_eq_true_eq, UInt32.le_iff_toNat_le] at hdigit
    omega
  all_goals decide

theorem netloc_of_rootless (hread : split.Read) (h : Rootless split) : split.netloc = [] := by
  by_contra hnetloc
  obtain hnil | hroot := hread.rooted hnetloc
  · exact h.1 hnil
  · exact h.2 hroot

theorem rooted_of_not_rootless (h : ¬Rootless split) :
    split.path = [] ∨ split.path.head? = some '/' := by
  by_cases hnil : split.path = []
  · exact .inl hnil
  · by_contra hnot
    exact h ⟨hnil, fun hroot => hnot (.inr hroot)⟩

/-- The authority of an address that is not rootless ends where its path begins. -/
theorem takeWhile_address (hread : split.Read) (h : ¬Rootless split) :
    (address split).takeWhile inAuthority = split.netloc ∧
      (address split).dropWhile inAuthority = split.path := by
  apply takeWhile_authority hread.netloc
  have hhead := @head?_rooted split.path [] [] (rooted_of_not_rootless h)
  simpa [extras] using hhead

/-- What is written behind `scheme://` is read as an authority up to the first delimiter. -/
theorem divided_connection (hread : split.Read) (hscheme : split.scheme ≠ []) :
    divided (withScheme split.scheme (address split)) =
      { scheme := split.scheme
        netloc := (address split).takeWhile inAuthority
        path := (address split).dropWhile inAuthority
        query := []
        fragment := [] } := by
  obtain ⟨hs, hlower⟩ := hread.scheme hscheme
  have hsafe : safe (address split) = address split := by
    apply List.filter_eq_self.mpr
    intro c hc
    simp [hread.safe c (by simp [address] at hc ⊢; tauto)]
  have hpath : '?' ∉ (address split).dropWhile inAuthority ∧
      '#' ∉ (address split).dropWhile inAuthority := by
    rw [address, List.dropWhile_append_of_pos hread.netloc]
    exact ⟨fun h => hread.path.1 ((List.dropWhile_sublist _).mem h),
      fun h => hread.path.2 ((List.dropWhile_sublist _).mem h)⟩
  rw [divided_withScheme hs, hsafe, hlower]
  have hsplit := @splitPath_extras split.scheme ((address split).takeWhile inAuthority)
    ((address split).dropWhile inAuthority) [] [] hpath (by simp)
  simpa [extras] using hsplit

theorem separated_withScheme {s rest : List Char} :
    (withScheme s rest).tails.any separator.isPrefixOf = true := by
  rw [List.any_eq_true]
  refine ⟨':' :: '/' :: '/' :: rest, ?_, ?_⟩
  · rw [List.mem_tails, withScheme]
    exact List.suffix_append s _
  · rfl

/-- Of the same address the same authority and path are read, where both or neither is
rootless. -/
theorem parts_of_address (hread : split.Read) (hread' : split'.Read)
    (haddress : address split = address split') (hrootless : Rootless split ↔ Rootless split') :
    split.netloc = split'.netloc ∧ split.path = split'.path := by
  by_cases h : Rootless split
  · have hnetloc := netloc_of_rootless hread h
    have hnetloc' := netloc_of_rootless hread' (hrootless.mp h)
    simpa [address, hnetloc, hnetloc'] using haddress
  · obtain ⟨hnetloc, hpath⟩ := takeWhile_address hread h
    obtain ⟨hnetloc', hpath'⟩ := takeWhile_address hread' (mt hrootless.mpr h)
    rw [← hnetloc, ← hnetloc', ← hpath, ← hpath', haddress]
    exact ⟨rfl, rfl⟩

end Address

section Accepted
variable [Unicode] {raw raw' : List Char} {dsn dsn' : Dsn}

/-- What `parse` accepts. -/
structure Accepted (raw : List Char) : Prop where
  separated : raw.tails.any separator.isPrefixOf = true
  read : ¬Refused (divided raw).netloc
  scheme : (divided raw).scheme ≠ []
  noAt : '@' ∉ (divided raw).path ++ '?' :: (divided raw).query ++ '#' :: (divided raw).fragment

theorem parse_eq_ok_iff : parse raw = .ok dsn ↔ Accepted raw ∧ dsn =
    { raw
      scheme := Unicode.lower (divided raw).scheme
      connection := Unicode.lower (divided raw).scheme ++ separator ++ (divided raw).netloc ++
        (divided raw).path } := by
  unfold parse
  by_cases hseparated : raw.tails.any separator.isPrefixOf = true
  swap
  · rw [if_pos (by simpa using hseparated)]
    simp only [reduceCtorEq, false_iff, not_and]
    intro h
    exact absurd h.separated hseparated
  rw [if_neg (by simpa using hseparated)]
  by_cases hread : urlsplit raw = none
  · rw [hread]
    simp only [reduceCtorEq, false_iff, not_and]
    intro h
    exact absurd hread (urlsplit_ne_none_iff.mpr h.read)
  rw [urlsplit_eq_some hread]
  dsimp only
  split_ifs with hscheme hat
  · simp only [false_iff, not_and]
    intro h
    exact absurd hscheme h.scheme
  · simp only [false_iff, not_and]
    intro h
    exact absurd hat h.noAt
  · have haccepted : Accepted raw :=
      ⟨hseparated, urlsplit_ne_none_iff.mp hread, hscheme, hat⟩
    simp only [Except.ok.injEq, haccepted, true_and]
    exact eq_comm

/-- The scheme that was read is lowered already. -/
theorem lower_scheme (hlower : Unicode.LowersAscii) {split : SplitResult} (hread : split.Read)
    (hscheme : split.scheme ≠ []) : Unicode.lower split.scheme = split.scheme := by
  obtain ⟨hs, hsmall⟩ := hread.scheme hscheme
  have hascii : ∀ c ∈ split.scheme, c.toNat < 0x80 := by
    intro c hc
    exact ascii_of_isSchemeChar (isSchemeChar_of_mem hs hc)
  rw [hlower split.scheme hascii, hsmall]

theorem scheme_of_parse (hlower : Unicode.LowersAscii) (h : parse raw = .ok dsn) :
    dsn.scheme = (divided raw).scheme := by
  obtain ⟨haccepted, rfl⟩ := parse_eq_ok_iff.mp h
  exact lower_scheme hlower (divided_read raw) haccepted.scheme

theorem connection_of_parse (hlower : Unicode.LowersAscii) (h : parse raw = .ok dsn) :
    dsn.connection = withScheme (divided raw).scheme (address (divided raw)) := by
  obtain ⟨haccepted, rfl⟩ := parse_eq_ok_iff.mp h
  dsimp only
  rw [lower_scheme hlower (divided_read raw) haccepted.scheme]
  simp [withScheme, separator, address]

/-- The connection parses again, to the same scheme and connection and without options. -/
def Reparsed (dsn : Dsn) : Prop :=
  ∃ again, parse dsn.connection = .ok again ∧ again.scheme = dsn.scheme ∧
    again.connection = dsn.connection ∧ again.options.entries = []

/-- `urlsplit` reads the same scheme, authority and path. -/
def SameServer (raw raw' : List Char) : Prop :=
  (urlsplit raw).map (fun split => (split.scheme, split.netloc, split.path)) =
    (urlsplit raw').map fun split => (split.scheme, split.netloc, split.path)

/-- What becomes the authority of the connection is one `urlsplit` reads. -/
def Readable (raw : List Char) : Prop :=
  Rootless (divided raw) → ¬Refused ((divided raw).path.takeWhile inAuthority)

theorem readable_iff (haccepted : Accepted raw) :
    Readable raw ↔ ¬Refused ((address (divided raw)).takeWhile inAuthority) := by
  by_cases hrootless : Rootless (divided raw)
  · simp [Readable, hrootless, address, netloc_of_rootless (divided_read raw) hrootless]
  · have hnetloc := (takeWhile_address (divided_read raw) hrootless).1
    simp [Readable, hrootless, hnetloc, haccepted.read]

theorem reparsed_iff (hlower : Unicode.LowersAscii) (h : parse raw = .ok dsn) :
    Reparsed dsn ↔ Readable raw := by
  obtain ⟨haccepted, -⟩ := parse_eq_ok_iff.mp h
  have hread := divided_read raw
  have hconnection := connection_of_parse hlower h
  have hdivided := divided_connection hread haccepted.scheme
  rw [← hconnection] at hdivided
  rw [readable_iff haccepted]
  constructor
  · intro hreparsed
    obtain ⟨again, hagain, -⟩ := hreparsed
    have hagain := (parse_eq_ok_iff.mp hagain).1.read
    rwa [hdivided] at hagain
  · intro hread'
    have hnoAt : '@' ∉ (address (divided raw)).dropWhile inAuthority := by
      rw [address, List.dropWhile_append_of_pos hread.netloc]
      intro hat
      apply haccepted.noAt
      simp [(List.dropWhile_sublist _).mem hat]
    have hagain : Accepted dsn.connection := by
      constructor
      · rw [hconnection]
        exact separated_withScheme
      · rw [hdivided]
        exact hread'
      · rw [hdivided]
        exact haccepted.scheme
      · rw [hdivided]
        simpa using hnoAt
    have hparsed := parse_eq_ok_iff.mpr ⟨hagain, rfl⟩
    refine ⟨_, hparsed, ?_, ?_, ?_⟩
    · rw [scheme_of_parse hlower hparsed, scheme_of_parse hlower h, hdivided]
    · rw [connection_of_parse hlower hparsed, hdivided, hconnection]
      simp [address]
    · simp only [options, queryOf, hdivided]
      rfl

theorem sameServer_iff (h : Accepted raw) (h' : Accepted raw') : SameServer raw raw' ↔
    (divided raw).scheme = (divided raw').scheme ∧
      (divided raw).netloc = (divided raw').netloc ∧
      (divided raw).path = (divided raw').path := by
  rw [SameServer, urlsplit_eq_some (urlsplit_ne_none_iff.mpr h.read),
    urlsplit_eq_some (urlsplit_ne_none_iff.mpr h'.read)]
  simp

/-- Scheme and address can be told from a connection. -/
theorem connection_eq_iff (hlower : Unicode.LowersAscii) (h : parse raw = .ok dsn)
    (h' : parse raw' = .ok dsn') : dsn.connection = dsn'.connection ↔
      (divided raw).scheme = (divided raw').scheme ∧
        address (divided raw) = address (divided raw') := by
  have hscheme := ((divided_read raw).scheme (parse_eq_ok_iff.mp h).1.scheme).1
  have hscheme' := ((divided_read raw').scheme (parse_eq_ok_iff.mp h').1.scheme).1
  rw [connection_of_parse hlower h, connection_of_parse hlower h']
  constructor
  · intro heq
    have hcut := congrArg (cut ':') heq
    rw [withScheme, withScheme, cut_append_cons (notMem_scheme hscheme (by decide)),
      cut_append_cons (notMem_scheme hscheme' (by decide))] at hcut
    simpa using hcut
  · intro hsame
    rw [hsame.1, hsame.2]

/-- One connection for one server, and a usable one: what is exactly asked of two DSNs. -/
theorem shares_connection_iff (hlower : Unicode.LowersAscii) (h : parse raw = .ok dsn)
    (h' : parse raw' = .ok dsn') :
    (Reparsed dsn ∧ Reparsed dsn' ∧
        (dsn.connection = dsn'.connection ↔ SameServer raw raw')) ↔
      Readable raw ∧ Readable raw' ∧
        ((divided raw).scheme = (divided raw').scheme →
          address (divided raw) = address (divided raw') →
            (Rootless (divided raw) ↔ Rootless (divided raw'))) := by
  rw [reparsed_iff hlower h, reparsed_iff hlower h', connection_eq_iff hlower h h',
    sameServer_iff (parse_eq_ok_iff.mp h).1 (parse_eq_ok_iff.mp h').1]
  apply and_congr_right'
  apply and_congr_right'
  constructor
  · intro hiff hscheme haddress
    obtain ⟨-, -, hpath⟩ := hiff.mp ⟨hscheme, haddress⟩
    unfold Rootless
    rw [hpath]
  · intro hrootless
    constructor
    · intro hsame
      exact ⟨hsame.1, parts_of_address (divided_read raw) (divided_read raw') hsame.2
        (hrootless hsame.1 hsame.2)⟩
    · intro hsame
      obtain ⟨hscheme, hnetloc, hpath⟩ := hsame
      exact ⟨hscheme, by rw [address, address, hnetloc, hpath]⟩

end Accepted

section Sample
attribute [local instance] Unicode.ascii

theorem lowersAscii_ascii : Unicode.LowersAscii := fun _ _ => rfl

def queued : List Char := "amqp://rabbit:5672/%2f?queue=jobs_low".toList

def plain : List Char := "amqp://rabbit:5672/%2f".toList

/-- The DSN read of either. -/
def dsnOf (raw : List Char) : Dsn := { raw, scheme := "amqp".toList, connection := plain }

theorem shares_connection_iff_queued :
    Unicode.LowersAscii ∧ parse queued = .ok (dsnOf queued) ∧ parse plain = .ok (dsnOf plain) ∧
      Reparsed (dsnOf queued) ∧ Reparsed (dsnOf plain) ∧ SameServer queued plain := by
  have hqueued : parse queued = .ok (dsnOf queued) := rfl
  have hplain : parse plain = .ok (dsnOf plain) := rfl
  have hrooted : ¬Rootless (divided queued) ∧ ¬Rootless (divided plain) := by decide
  obtain ⟨hreparsed, hreparsed', hsame⟩ :=
    (shares_connection_iff lowersAscii_ascii hqueued hplain).mpr
      ⟨fun h => absurd h hrooted.1, fun h => absurd h hrooted.2,
        fun _ _ => iff_of_false hrooted.1 hrooted.2⟩
  have hconnection : ∀ raw, (dsnOf raw).connection = plain := fun _ => rfl
  exact ⟨lowersAscii_ascii, hqueued, hplain, hreparsed, hreparsed',
    hsame.mp ((hconnection queued).trans (hconnection plain).symm)⟩

/-- Where the separator stands in the query, a path becomes the authority of the connection: the
connection of another server, or one that is refused. -/
theorem separator_in_query_taken :
    (∃ dsn dsn', parse "foo:bar?x=://".toList = .ok dsn ∧ parse "foo://bar".toList = .ok dsn' ∧
      dsn.connection = dsn'.connection ∧
      ¬SameServer "foo:bar?x=://".toList "foo://bar".toList) ∧
    ∃ dsn, parse "foo:[?x=://".toList = .ok dsn ∧ ¬Reparsed dsn := by
  have hmerged : ¬SameServer "foo:bar?x=://".toList "foo://bar".toList := by
    unfold SameServer
    decide
  have hrefused : Refused (divided "foo://[".toList).netloc := by
    unfold Refused
    decide
  refine ⟨⟨_, _, rfl, rfl, rfl, hmerged⟩, _, rfl, ?_⟩
  intro h
  obtain ⟨again, hagain, -⟩ := h
  exact (parse_eq_ok_iff.mp hagain).1.read hrefused

end Sample

end XtrMessenger.Dsn
