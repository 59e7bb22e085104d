import XtrMessenger.Dsn.Shown

/-! What redaction makes of its own output. -/
namespace XtrMessenger.Dsn
open Foundation Url

section Model
variable [Unicode]

/-- What redaction does not leave as it is where no `@` stands: a text `urlsplit` refuses, and one
that reads as a user and a password. -/
def Credentials (split : SplitResult) : Prop :=
  Refused split.netloc ∨
    split.netloc ≠ [] ∧ (isUserinfoShaped split.netloc = true ∨
      isNumericPasswordPair split = true) ∨
    isBareUserinfo split = true

/-- A DSN with its last `@` and what stands before it left out, but for a `scheme://`. -/
def remainder (dsn : List Char) : SplitResult :=
  if '@' ∈ (divided dsn).netloc then
    { divided dsn with netloc := afterLast '@' (divided dsn).netloc }
  else
    let start := (schemePrefix dsn).getD 0
    divided (dsn.take start ++ afterLast '@' (dsn.drop start))

/-- An `@` is read, and what stands behind it is kept. -/
structure Hosted (dsn : List Char) : Prop where
  read : urlsplit dsn ≠ none
  mem : '@' ∈ dsn
  kept : '@' ∈ (divided dsn).netloc ∨
    ¬(schemePrefix dsn = none ∧ isBareUserinfoTail (afterLast '@' dsn) = true)

end Model

section Rooted
variable {split : SplitResult} {netloc : List Char}

/-- Another authority made of the same characters is read again. -/
theorem read_with_netloc (hread : split.Read) (h : split.netloc ≠ [])
    (hsub : ∀ c ∈ netloc, c ∈ split.netloc) : ({ split with netloc } : SplitResult).Read where
  scheme := hread.scheme
  netloc := fun c hc => hread.netloc c (hsub c hc)
  path := hread.path
  query := hread.query
  safe := by
    intro c hc
    apply hread.safe
    simp only [List.mem_append] at hc ⊢
    obtain ((hc | hc) | hc) | hc := hc
    · exact .inl (.inl (.inl (hsub c hc)))
    · exact .inl (.inl (.inr hc))
    · exact .inl (.inr hc)
    · exact .inr hc
  rooted := fun _ => hread.rooted h

theorem divided_with_netloc (hread : split.Read) (h : split.netloc ≠ [])
    (hsub : ∀ c ∈ netloc, c ∈ split.netloc) :
    divided (urlunsplit { split with netloc }) = { split with netloc } :=
  divided_urlunsplit (read_with_netloc hread h hsub) (hread.rooted h)

theorem at_notMem_with_netloc (hread : split.Read) (hnetloc : '@' ∉ netloc)
    (hrest : '@' ∉ split.path ++ split.query ++ split.fragment) :
    '@' ∉ urlunsplit { split with netloc } := by
  intro hat
  simp only [List.mem_append, not_or] at hrest
  obtain hmem | hmem | hmem | hmem | hmem := mem_of_mem_urlunsplit (by decide) hat
  · obtain ⟨hs, -⟩ := hread.scheme (List.ne_nil_of_mem hmem)
    exact notMem_scheme hs (by decide) hmem
  · exact hnetloc hmem
  · exact hrest.1.1 hmem
  · exact hrest.1.2 hmem
  · exact hrest.2 hmem

theorem exists_withScheme {dsn : List Char} {n : ℕ} (h : schemePrefix dsn = some n) :
    ∃ s r, isScheme s = true ∧ dsn = withScheme s r ∧ n = s.length + 3 := by
  unfold schemePrefix at h
  dsimp only at h
  split_ifs at h with hprefix
  obtain ⟨hs, hmarks⟩ := hprefix
  obtain ⟨rest, hrest⟩ : (cut ':' dsn).1 <+: dsn := List.takeWhile_prefix _
  generalize (cut ':' dsn).1 = s at *
  subst hrest
  rw [List.drop_left] at hmarks
  refine ⟨s, rest.drop 3, hs, ?_, (Option.some.inj h).symm⟩
  have hjoin := List.take_append_drop 3 rest
  rw [hmarks] at hjoin
  rw [withScheme, ← hjoin]
  rfl

/-- The text behind the last `@`, and a `scheme://` in front of it, have none. -/
theorem at_notMem_textual {dsn : List Char} :
    '@' ∉ dsn.take ((schemePrefix dsn).getD 0) ++
      afterLast '@' (dsn.drop ((schemePrefix dsn).getD 0)) := by
  rw [List.mem_append, not_or]
  refine ⟨?_, afterLast_notMem⟩
  cases hprefix : schemePrefix dsn with
  | none => simp
  | some n =>
    obtain ⟨s, r, hs, rfl, rfl⟩ := exists_withScheme hprefix
    have hscheme : '@' ∉ s := notMem_scheme hs (by decide)
    have htake : (withScheme s r).take (s.length + 3) = s ++ "://".toList := by
      simp [withScheme, List.take_append, List.take_of_length_le]
    rw [Option.getD_some, htake]
    simp [hscheme]

variable [Unicode]

/-- A path with a slash is no password. -/
theorem isBareUserinfo_rooted (hpath : split.path = [] ∨ split.path.head? = some '/') :
    isBareUserinfo split = false := by
  obtain hnil | hroot := hpath
  · simp [isBareUserinfo, hnil]
  · have hslash : '/' ∈ split.path := List.mem_of_mem_head? hroot
    simp [isBareUserinfo, hslash]

end Rooted

section Settled
variable [Unicode] {t dsn : List Char}

theorem redacted_of_notMem (hread : ¬Refused (divided t).netloc) (hat : '@' ∉ t) :
    redacted t = if (divided t).netloc ≠ [] ∧ isUserinfoShaped (divided t).netloc = true then
        urlunsplit { divided t with netloc := [] }
      else if (divided t).netloc ≠ [] ∧ isNumericPasswordPair (divided t) = true then
        urlunsplit { divided t with netloc := [] }
      else if isBareUserinfo (divided t) = true then masked
      else t := by
  have hnetloc : '@' ∉ (divided t).netloc := by
    intro hmem
    exact hat (mem_of_mem_divided (by simp [hmem]))
  unfold redacted withoutCredentials
  rw [urlsplit_eq_some (urlsplit_ne_none_iff.mpr hread)]
  dsimp only [Option.bind_eq_bind, Option.bind_some]
  rw [if_neg hnetloc, if_neg hat]
  split_ifs <;> rfl

theorem masked_settled : ¬Credentials (divided masked) := by
  have hscheme : (divided masked).scheme = [] := rfl
  have hnetloc : (divided masked).netloc = [] := rfl
  simp [Credentials, hnetloc, not_refused_nil, isBareUserinfo, hscheme]

/-- Without an `@`, what redaction leaves alone is what it does not read as credentials. -/
theorem redacted_eq_self_iff (hat : '@' ∉ t) : redacted t = t ↔ ¬Credentials (divided t) := by
  by_cases hread : Refused (divided t).netloc
  · have hcredentials : Credentials (divided t) := .inl hread
    have hrefused : urlsplit t = none := by
      by_contra hnone
      exact urlsplit_ne_none_iff.mp hnone hread
    rw [redacted_of_refused hrefused]
    simp only [hcredentials, not_true_eq_false, iff_false]
    intro hmasked
    exact masked_settled (hmasked ▸ hcredentials)
  have hdropped : (divided t).netloc ≠ [] → urlunsplit { divided t with netloc := [] } ≠ t := by
    intro hnetloc hsame
    have hnil : ∀ c ∈ ([] : List Char), c ∈ (divided t).netloc := by simp
    have hagain := divided_with_netloc (divided_read t) hnetloc hnil
    rw [hsame] at hagain
    exact hnetloc (congrArg SplitResult.netloc hagain)
  rw [redacted_of_notMem hread hat]
  split_ifs with huserinfo hnumeric hbare
  · exact iff_of_false (hdropped huserinfo.1)
      fun h => h (.inr (.inl ⟨huserinfo.1, .inl huserinfo.2⟩))
  · exact iff_of_false (hdropped hnumeric.1) fun h => h (.inr (.inl ⟨hnumeric.1, .inr hnumeric.2⟩))
  · refine iff_of_false ?_ fun h => h (.inr (.inr hbare))
    intro hmasked
    exact masked_settled (hmasked ▸ .inr (.inr hbare))
  · refine iff_of_true rfl ?_
    intro hcredentials
    obtain h | ⟨hnetloc, h | h⟩ | h := hcredentials
    · exact hread h
    · exact huserinfo ⟨hnetloc, h⟩
    · exact hnumeric ⟨hnetloc, h⟩
    · exact hbare h

theorem redacted_masked : redacted masked = masked :=
  (redacted_eq_self_iff (by decide)).mpr masked_settled

/-- What is left of an authority that was dropped. -/
theorem dropped_settled (hnetloc : (divided dsn).netloc ≠ []) (hat : '@' ∉ dsn) :
    redacted (urlunsplit { divided dsn with netloc := [] }) =
      urlunsplit { divided dsn with netloc := [] } := by
  have hread := divided_read dsn
  have hrest : '@' ∉ (divided dsn).path ++ (divided dsn).query ++ (divided dsn).fragment := by
    intro hmem
    refine hat (mem_of_mem_divided ?_)
    rw [List.append_assoc, List.append_assoc] at *
    exact List.mem_append_right _ hmem
  apply (redacted_eq_self_iff (at_notMem_with_netloc hread (by simp) hrest)).mpr
  rw [divided_with_netloc hread hnetloc (by simp)]
  have hbare : isBareUserinfo { divided dsn with netloc := [] } = false :=
    isBareUserinfo_rooted (hread.rooted hnetloc)
  simp [Credentials, not_refused_nil, hbare]

/-- Without an `@`, one pass is enough. -/
theorem redacted_redacted_of_notMem (hat : '@' ∉ dsn) :
    redacted (redacted dsn) = redacted dsn := by
  by_cases hread : Refused (divided dsn).netloc
  · rw [redacted_of_refused (by_contra fun hnone => urlsplit_ne_none_iff.mp hnone hread)]
    exact redacted_masked
  have hcases := redacted_of_notMem hread hat
  split_ifs at hcases with huserinfo hnumeric hbare
  · rw [hcases]
    exact dropped_settled huserinfo.1 hat
  · rw [hcases]
    exact dropped_settled hnumeric.1 hat
  · rw [hcases]
    exact redacted_masked
  · rw [hcases, hcases]

/-- Redacting again changes nothing unless what was kept behind an `@` would be credentials
without one. -/
theorem redacted_redacted_iff (hrest : '@' ∈ (divided dsn).netloc →
      '@' ∉ (divided dsn).path ++ (divided dsn).query ++ (divided dsn).fragment) :
    redacted (redacted dsn) = redacted dsn ↔ (Hosted dsn → ¬Credentials (remainder dsn)) := by
  by_cases hread : urlsplit dsn = none
  · rw [redacted_of_refused hread]
    exact iff_of_true redacted_masked fun h => absurd hread h.read
  by_cases hat : '@' ∈ dsn
  swap
  · exact iff_of_true (redacted_redacted_of_notMem hat) fun h => absurd h.mem hat
  by_cases hnetloc : '@' ∈ (divided dsn).netloc
  · -- the authority pass: what is written is divided as the DSN, with the host alone
    have hhosted : Hosted dsn := ⟨hread, hat, .inl hnetloc⟩
    have hsub : ∀ c ∈ afterLast '@' (divided dsn).netloc, c ∈ (divided dsn).netloc := by
      intro c hc
      exact (List.rtakeWhile_suffix _ _).sublist.mem hc
    have hagain := divided_with_netloc (divided_read dsn) (List.ne_nil_of_mem hnetloc) hsub
    have hnone := at_notMem_with_netloc (divided_read dsn)
      (afterLast_notMem (s := (divided dsn).netloc)) (hrest hnetloc)
    rw [redacted_of_mem_netloc hread hnetloc, redacted_eq_self_iff hnone, hagain]
    simp [hhosted, remainder, hnetloc]
  · rw [redacted_of_notMem_netloc hread hnetloc hat]
    by_cases htail : schemePrefix dsn = none ∧ isBareUserinfoTail (afterLast '@' dsn) = true
    · have hmasked : textuallyWithoutCredentials dsn = masked := by
        simp [textuallyWithoutCredentials, htail.1, htail.2]
      rw [hmasked]
      refine iff_of_true redacted_masked ?_
      intro h
      obtain hmem | hkept := h.kept
      · exact absurd hmem hnetloc
      · exact absurd htail hkept
    · have hhosted : Hosted dsn := ⟨hread, hat, .inr htail⟩
      have hkept : textuallyWithoutCredentials dsn =
          dsn.take ((schemePrefix dsn).getD 0) ++
            afterLast '@' (dsn.drop ((schemePrefix dsn).getD 0)) := by
        unfold textuallyWithoutCredentials
        apply if_neg
        intro h
        obtain ⟨hnone, hbare⟩ := h
        rw [hnone] at hbare
        exact htail ⟨hnone, hbare⟩
      rw [hkept, redacted_eq_self_iff at_notMem_textual]
      simp [hhosted, remainder, hnetloc]

end Settled

section Sample
attribute [local instance] Unicode.ascii

def dotted : List Char := "amqp://user:pw@mq.example.com:5672".toList

theorem redacted_redacted_iff_dotted :
    '@' ∈ (divided dotted).netloc ∧
      '@' ∉ (divided dotted).path ++ (divided dotted).query ++ (divided dotted).fragment ∧
      redacted (redacted dotted) = redacted dotted := by
  have hnetloc : '@' ∈ (divided dotted).netloc := by decide
  have hrest : '@' ∉ (divided dotted).path ++ (divided dotted).query ++
      (divided dotted).fragment := by decide
  have hhost : ¬Credentials (remainder dotted) := by
    unfold Credentials Refused
    decide
  exact ⟨hnetloc, hrest, (redacted_redacted_iff fun _ => hrest).mpr fun _ => hhost⟩

/-- Behind an `@` a name and digits are a host and its port, without one a user and a password. -/
theorem port_read_as_password :
    redacted "amqp://u:p@rabbit:5672".toList = "amqp://rabbit:5672".toList ∧
      redacted (redacted "amqp://u:p@rabbit:5672".toList) ≠
        redacted "amqp://u:p@rabbit:5672".toList := by
  decide

end Sample

end XtrMessenger.Dsn
