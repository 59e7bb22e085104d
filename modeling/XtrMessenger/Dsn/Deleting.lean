import XtrMessenger.Dsn.Settling

/-! Where redaction only deletes: what `urlunsplit` writes otherwise than it was read. -/
namespace XtrMessenger.Dsn
open Foundation Url

/-- What stands before the authority, in the authority up to its last `@`, and behind it. -/
structure Cuts (raw pre user post : List Char) : Prop where
  written : raw = pre ++ user ++ '@' :: post
  /-- A scheme and two slashes, or the slashes alone. -/
  marked : (splitScheme (cleaned pre)).2 = ['/', '/'] ∧ pre.getLast? = some '/'
  inside : ∀ c ∈ user, inAuthority c = true
  last : '@' ∉ post.takeWhile inAuthority

/-- The authority that is left, the scheme or the path has the two slashes written again. -/
def SlashesLeft (raw : List Char) : Prop :=
  afterLast '@' (divided raw).netloc ≠ [] ∨ (divided raw).scheme ∈ usesNetloc ∨
    (divided raw).path.take 2 = ['/', '/']

instance (raw : List Char) : Decidable (SlashesLeft raw) := by
  unfold SlashesLeft
  infer_instance

/-- What stands before and behind the credentials is what `urlunsplit` writes of it. -/
structure Kept (raw pre post : List Char) : Prop where
  clean : cleaned pre = pre ∧ safe post = post
  small : pre.map Char.toLower = pre
  query : (divided raw).query = [] → '?' ∉ (cut '#' post).1
  fragment : (divided raw).fragment = [] → '#' ∉ post
  slashes : SlashesLeft raw

section Cutting
variable {raw pre user post x y : List Char}

theorem cleaned_append (h : cleaned x ≠ []) : cleaned (x ++ y) = cleaned x ++ safe y := by
  unfold cleaned at h ⊢
  have hne : x.dropWhile (fun c => c.toNat ≤ 0x20) ≠ [] := by
    intro hnil
    rw [hnil] at h
    exact h rfl
  rw [List.dropWhile_append, if_neg (by simpa using hne), safe_append]

theorem cleaned_sublist : (cleaned x).Sublist x :=
  List.filter_sublist.trans (List.dropWhile_sublist _)

theorem inAuthority_of_isUnsafe {c : Char} (h : isUnsafe c = true) : inAuthority c = true := by
  simp only [isUnsafe, Bool.or_eq_true, decide_eq_true_eq] at h
  obtain (rfl | rfl) | rfl := h <;> decide

theorem safe_takeWhile : safe (x.takeWhile inAuthority) = (safe x).takeWhile inAuthority ∧
    safe (x.dropWhile inAuthority) = (safe x).dropWhile inAuthority := by
  apply filter_takeWhile
  intro c _ hc
  exact inAuthority_of_isUnsafe (by simpa using hc)

/-- What stands before the authority: the scheme as it is written, and the slashes. -/
structure Marks (pre before scheme : List Char) : Prop where
  cleaned : cleaned pre = before ++ ['/', '/']
  lower : (if scheme ≠ [] then scheme ++ [':'] else []) = before.map Char.toLower
  split : ∀ y, splitScheme (Url.cleaned pre ++ y) = (scheme, '/' :: '/' :: y)
  nonempty : Url.cleaned pre ≠ []

theorem exists_marks (h : (splitScheme (cleaned pre)).2 = ['/', '/']) :
    ∃ before scheme, Marks pre before scheme := by
  have hne : cleaned pre ≠ [] := by
    intro hnil
    rw [hnil] at h
    simp [splitScheme] at h
  obtain hsplit | ⟨s, rest, hs, heq, hsplit⟩ := splitScheme_cases (cleaned pre)
  · rw [hsplit] at h
    dsimp only at h
    refine ⟨[], [], h, rfl, fun y => ?_, hne⟩
    rw [h]
    exact splitScheme_of_delimiter (by simp [inAuthority])
  · rw [hsplit] at h
    dsimp only at h
    refine ⟨s ++ [':'], s.map Char.toLower, ?_, ?_, fun y => ?_, hne⟩
    · rw [heq, h]
      simp
    · obtain ⟨c, t, rfl, -⟩ := exists_alpha_of_isScheme hs
      simp
    · rw [heq, h, List.append_assoc]
      exact splitScheme_append hs

theorem Marks.divided {before scheme : List Char} (h : Marks pre before scheme) (y : List Char) :
    divided (pre ++ y) = splitPath scheme ((safe y).takeWhile inAuthority)
      ((safe y).dropWhile inAuthority) := by
  rw [Url.divided, cleaned_append h.nonempty, h.split]
  simp

/-- A part of the text that is kept when it is made safe. -/
theorem safe_eq_append {u a b : List Char} (h : safe u = a ++ b) :
    ∃ u₁ u₂, u = u₁ ++ u₂ ∧ safe u₁ = a ∧ safe u₂ = b := by
  obtain ⟨u₁, u₂, rfl, ha, hb⟩ := List.filter_eq_append_iff.mp h
  exact ⟨u₁, u₂, rfl, ha, hb⟩

/-- What stands up to the slashes of an authority. -/
theorem exists_marked (hnetloc : (divided raw).netloc ≠ []) : ∃ pre rest, raw = pre ++ rest ∧
    (splitScheme (cleaned pre)).2 = ['/', '/'] ∧ pre.getLast? = some '/' := by
  obtain ⟨before, scheme, r, hclean, hbefore, hdivided⟩ := divided_cases raw
  have hslashes : r.take 2 = ['/', '/'] := by
    by_contra hnot
    rw [if_neg hnot] at hdivided
    rw [hdivided] at hnetloc
    exact hnetloc rfl
  have hr : r = '/' :: '/' :: r.drop 2 := by
    conv_lhs => rw [← List.take_append_drop 2 r, hslashes]
    rfl
  set blank : Char → Bool := fun c => c.toNat ≤ 0x20 with hblank
  have hsafe : safe (raw.dropWhile blank) = (before ++ ['/']) ++ '/' :: r.drop 2 := by
    change cleaned raw = _
    rw [hclean, hr]
    simp
  obtain ⟨u₁, u₂, hu, hu₁, hu₂⟩ := safe_eq_append hsafe
  obtain ⟨v, w, rfl, hv, -, -⟩ := List.filter_eq_cons_iff.mp hu₂
  have hvsafe : safe v = [] := List.filter_eq_nil_iff.mpr hv
  have hblanks : ∀ c ∈ raw.takeWhile blank, blank c = true := by
    intro c hc
    exact List.mem_takeWhile_imp hc
  -- the text up to the second slash begins where the blanks end
  have hdrop : (raw.takeWhile blank ++ (u₁ ++ v ++ ['/'])).dropWhile blank = u₁ ++ v ++ ['/'] := by
    rw [List.dropWhile_append_of_pos hblanks]
    cases u₁ with
    | nil => simp [safe] at hu₁
    | cons c u₁ =>
      have hhead := List.head?_dropWhile_not blank raw
      rw [hu] at hhead
      have hc : blank c = false := by simpa using hhead
      simp [hc]
  have hpre : cleaned (raw.takeWhile blank ++ (u₁ ++ v ++ ['/'])) = before ++ ['/', '/'] := by
    have hlast : safe ['/'] = ['/'] := rfl
    rw [cleaned, hdrop, safe_append, safe_append, hu₁, hvsafe, hlast]
    simp
  refine ⟨raw.takeWhile blank ++ (u₁ ++ v ++ ['/']), w, ?_, ?_, ?_⟩
  · conv_lhs => rw [← List.takeWhile_append_dropWhile (p := blank) (l := raw), hu]
    simp
  · rw [hpre]
    obtain ⟨rfl, -⟩ | ⟨s, hs, rfl, -⟩ := hbefore
    · rfl
    · rw [List.append_assoc]
      exact congrArg Prod.snd (splitScheme_append hs)
  · simp

/-- Where the authority holds an `@`, the text has a place to be cut. -/
theorem exists_cuts (hat : '@' ∈ (divided raw).netloc) :
    ∃ pre user post, Cuts raw pre user post := by
  obtain ⟨pre, w, rfl, hmarked, hlast⟩ := exists_marked (List.ne_nil_of_mem hat)
  obtain ⟨before, scheme, hmarks⟩ := exists_marks hmarked
  rw [hmarks.divided] at hat
  have hmem : '@' ∈ w.takeWhile inAuthority := by
    change '@' ∈ (safe w).takeWhile inAuthority at hat
    rw [← safe_takeWhile.1] at hat
    exact (mem_safe (by decide)).mp hat
  obtain ⟨user, t, hw, ht⟩ := exists_last hmem
  have hinside : ∀ c ∈ user ++ '@' :: t, inAuthority c = true := by
    intro c hc
    rw [← hw] at hc
    exact List.mem_takeWhile_imp hc
  refine ⟨pre, user, t ++ w.dropWhile inAuthority, ?_, ⟨hmarked, hlast⟩, ?_, ?_⟩
  · have hjoin := List.takeWhile_append_dropWhile (p := inAuthority) (l := w)
    rw [hw] at hjoin
    conv_lhs => rw [← hjoin]
    simp
  · intro c hc
    exact hinside c (List.mem_append_left _ hc)
  · rw [(takeWhile_authority (fun c hc => hinside c (by simp [hc]))
      head?_dropWhile_inAuthority).1]
    exact ht

/-- The slashes before the authority stand in one place. -/
theorem eq_nil_of_marked (h : (splitScheme (cleaned x)).2 = ['/', '/'])
    (h' : (splitScheme (cleaned (x ++ y))).2 = ['/', '/'])
    (hlast : (x ++ y).getLast? = some '/') : y = [] := by
  obtain ⟨before, scheme, hmarks⟩ := exists_marks h
  rw [cleaned_append hmarks.nonempty, hmarks.split] at h'
  have hnone : safe y = [] := by simpa using h'
  by_contra hne
  rw [List.getLast?_append_of_ne_nil _ hne] at hlast
  have hslash : '/' ∈ safe y := (mem_safe (by decide)).mpr (List.mem_of_getLast? hlast)
  rw [hnone] at hslash
  simp at hslash

theorem takeWhile_of_cuts (h : Cuts raw pre user post) :
    (user ++ '@' :: post).takeWhile inAuthority = user ++ '@' :: post.takeWhile inAuthority := by
  rw [List.takeWhile_append_of_pos h.inside, List.takeWhile_cons_of_pos (by decide)]

theorem cuts_unique {pre' user' post' : List Char} (h : Cuts raw pre user post)
    (h' : Cuts raw pre' user' post') : pre = pre' ∧ user = user' ∧ post = post' := by
  have hsame : pre ++ (user ++ '@' :: post) = pre' ++ (user' ++ '@' :: post') := by
    rw [← List.append_assoc, ← List.append_assoc, ← h.written, ← h'.written]
  have hpre : pre = pre' := by
    obtain ⟨y, rfl⟩ | ⟨y, rfl⟩ :=
      List.prefix_or_prefix_of_prefix ⟨_, hsame⟩ (List.prefix_append pre' _)
    · simp [eq_nil_of_marked h.marked.1 h'.marked.1 h'.marked.2]
    · simp [eq_nil_of_marked h'.marked.1 h.marked.1 h.marked.2]
  rw [hpre] at hsame
  have hrest := List.append_cancel_left hsame
  have hauthority := congrArg (List.takeWhile inAuthority) hrest
  rw [takeWhile_of_cuts h, takeWhile_of_cuts h'] at hauthority
  have hafter := congrArg (afterLast '@') hauthority
  rw [afterLast_append_cons h.last, afterLast_append_cons h'.last] at hafter
  rw [hafter] at hauthority
  have huser := List.append_cancel_right hauthority
  rw [huser] at hrest
  exact ⟨hpre, huser, by simpa using hrest⟩

end Cutting

section Writing
variable {c : Char} {s rest : List Char}

/-- A query or a fragment is written as it was read, unless it is empty. -/
theorem cut_written (c : Char) (s : List Char) :
    (((cut c s).2 = [] → c ∉ s) ∧
      (if (cut c s).2 ≠ [] then c :: (cut c s).2 else []) =
        if c ∈ s then c :: (cut c s).2 else []) ∨
    (¬((cut c s).2 = [] → c ∉ s) ∧
      (if (cut c s).2 ≠ [] then c :: (cut c s).2 else []).length <
        (if c ∈ s then c :: (cut c s).2 else []).length) := by
  by_cases hmem : c ∈ s
  · by_cases hnil : (cut c s).2 = []
    · simp [hmem, hnil]
    · simp [hmem, hnil]
  · simp [hmem, cut_of_notMem hmem]

theorem cut_append_written (c : Char) (s : List Char) :
    (cut c s).1 ++ (if c ∈ s then c :: (cut c s).2 else []) = s := by
  by_cases hmem : c ∈ s
  · obtain ⟨before, after, rfl, hbefore⟩ := List.eq_append_cons_of_mem hmem
    simp [cut_append_cons hbefore]
  · simp [hmem, cut_of_notMem hmem]

/-- The query and the fragment as they are written behind a path. -/
def written (rest : List Char) : List Char :=
  (if '?' ∈ (cut '#' rest).1 then '?' :: (cut '?' (cut '#' rest).1).2 else []) ++
    if '#' ∈ rest then '#' :: (cut '#' rest).2 else []

theorem path_append_written (scheme netloc rest : List Char) :
    (splitPath scheme netloc rest).path ++ written rest = rest := by
  conv_rhs => rw [← cut_append_written '#' rest, ← cut_append_written '?' (cut '#' rest).1]
  simp [splitPath, written]

/-- Neither the query nor the fragment is empty where it is marked. -/
def Filled (rest : List Char) : Prop :=
  ((cut '?' (cut '#' rest).1).2 = [] → '?' ∉ (cut '#' rest).1) ∧
    ((cut '#' rest).2 = [] → '#' ∉ rest)

theorem extras_written (rest : List Char) :
    (Filled rest ∧
        extras (cut '?' (cut '#' rest).1).2 (cut '#' rest).2 = written rest) ∨
      (¬Filled rest ∧
        (extras (cut '?' (cut '#' rest).1).2 (cut '#' rest).2).length <
          (written rest).length) := by
  simp only [extras, written, Filled, List.length_append]
  obtain ⟨hquery, hq⟩ | ⟨hquery, hq⟩ := cut_written '?' (cut '#' rest).1 <;>
    obtain ⟨hfragment, hf⟩ | ⟨hfragment, hf⟩ := cut_written '#' rest
  · exact .inl ⟨⟨hquery, hfragment⟩, by rw [hq, hf]⟩
  · refine .inr ⟨fun h => hfragment h.2, ?_⟩
    rw [hq]
    omega
  · refine .inr ⟨fun h => hquery h.1, ?_⟩
    rw [hf]
    omega
  · refine .inr ⟨fun h => hquery h.1, ?_⟩
    omega

end Writing

section Deleted
variable {raw pre user post before scheme : List Char}

theorem at_notMem_host (h : Cuts raw pre user post) :
    '@' ∉ (safe post).takeWhile inAuthority := by
  rw [← safe_takeWhile.1, mem_safe (by decide)]
  exact h.last

/-- A DSN that is cut, divided. -/
theorem divided_of_cuts (h : Cuts raw pre user post) (hmarks : Marks pre before scheme) :
    divided raw = { splitPath scheme ((safe post).takeWhile inAuthority)
      ((safe post).dropWhile inAuthority) with
        netloc := safe user ++ '@' :: (safe post).takeWhile inAuthority } := by
  have hinside : ∀ c ∈ safe user, inAuthority c = true := by
    intro c hc
    exact h.inside c (List.mem_filter.mp hc).1
  have hat : inAuthority '@' = true := by decide
  rw [h.written, List.append_assoc, hmarks.divided, safe_append, safe_at_cons,
    List.takeWhile_append_of_pos hinside, List.dropWhile_append_of_pos hinside,
    List.takeWhile_cons_of_pos hat, List.dropWhile_cons_of_pos hat]
  rfl

theorem filled_iff (h : Cuts raw pre user post) (hmarks : Marks pre before scheme)
    (hpost : safe post = post) : Filled ((safe post).dropWhile inAuthority) ↔
      ((divided raw).query = [] → '?' ∉ (cut '#' post).1) ∧
        ((divided raw).fragment = [] → '#' ∉ post) := by
  have hdivided := divided_of_cuts h hmarks
  have hjoin := List.takeWhile_append_dropWhile (p := inAuthority) (l := post)
  have hinside : ∀ c ∈ post.takeWhile inAuthority, inAuthority c = true := by
    intro c hc
    exact List.mem_takeWhile_imp hc
  have hhash : '#' ∉ post.takeWhile inAuthority := fun hmem =>
    absurd (hinside _ hmem) (by decide)
  have hquestion : '?' ∉ post.takeWhile inAuthority := fun hmem =>
    absurd (hinside _ hmem) (by decide)
  have hcut : cut '#' post = (post.takeWhile inAuthority ++
      (cut '#' (post.dropWhile inAuthority)).1, (cut '#' (post.dropWhile inAuthority)).2) := by
    conv_lhs => rw [← hjoin]
    exact cut_append_of_notMem hhash
  have hmem : '#' ∈ post ↔ '#' ∈ post.dropWhile inAuthority := by
    conv_lhs => rw [← hjoin, List.mem_append]
    exact or_iff_right hhash
  rw [hdivided, hpost, hcut, hmem]
  simp [Filled, splitPath, hquestion]

theorem safe_eq_path_append (h : Cuts raw pre user post) (hmarks : Marks pre before scheme) :
    safe post = (safe post).takeWhile inAuthority ++ ((divided raw).path ++
      written ((safe post).dropWhile inAuthority)) := by
  rw [divided_of_cuts h hmarks]
  conv_lhs => rw [← List.takeWhile_append_dropWhile (p := inAuthority) (l := safe post)]
  congr 1
  exact (path_append_written _ _ _).symm

variable [Unicode]

/-- What is shown of a DSN that is cut. -/
theorem redacted_of_cuts (hread : urlsplit raw ≠ none) (h : Cuts raw pre user post)
    (hmarks : Marks pre before scheme) :
    redacted raw = before.map Char.toLower ++
      ((if SlashesLeft raw then ['/', '/'] else []) ++
        ((safe post).takeWhile inAuthority ++ ((divided raw).path ++
          extras (divided raw).query (divided raw).fragment))) := by
  have hdivided := divided_of_cuts h hmarks
  have hat : '@' ∈ (divided raw).netloc := by simp [hdivided]
  have hpath := (divided_read raw).rooted (List.ne_nil_of_mem hat)
  have hhost : afterLast '@' (divided raw).netloc = (safe post).takeWhile inAuthority := by
    rw [hdivided]
    exact afterLast_append_cons (at_notMem_host h)
  have hscheme : (divided raw).scheme = scheme := by rw [hdivided]; rfl
  have hjoined : hierarchy { divided raw with netloc := afterLast '@' (divided raw).netloc } =
      if SlashesLeft raw then
        ['/', '/'] ++ afterLast '@' (divided raw).netloc ++ (divided raw).path
      else (divided raw).path := hierarchy_rooted hpath
  rw [redacted_of_mem_netloc hread hat, urlunsplit_eq, hjoined, hscheme, hmarks.lower, ← hhost]
  split_ifs with hslashes
  · simp
  · have hnone : afterLast '@' (divided raw).netloc = [] := by
      by_contra hsome
      exact hslashes (.inl hsome)
    simp [hnone]

/-- Only the credentials go exactly where the rest is written as `urlunsplit` writes it. -/
theorem redacted_eq_append_iff (hread : urlsplit raw ≠ none) (h : Cuts raw pre user post) :
    redacted raw = pre ++ post ↔ Kept raw pre post := by
  obtain ⟨before, scheme, hmarks⟩ := exists_marks h.marked.1
  have hdivided := divided_of_cuts h hmarks
  have hshown := redacted_of_cuts hread h hmarks
  have hpost := safe_eq_path_append h hmarks
  have hextras := extras_written ((safe post).dropWhile inAuthority)
  have hparts : extras (divided raw).query (divided raw).fragment =
      extras (cut '?' (cut '#' ((safe post).dropWhile inAuthority)).1).2
        (cut '#' ((safe post).dropWhile inAuthority)).2 := by
    rw [hdivided]
    rfl
  rw [← hparts] at hextras
  constructor
  · intro heq
    have hlength := congrArg List.length heq
    have hpre : (cleaned pre).Sublist pre := cleaned_sublist
    have hsafe : (safe post).Sublist post := List.filter_sublist
    have hpre' := hpre.length_le
    have hsafe' := hsafe.length_le
    have hbefore := congrArg List.length hmarks.cleaned
    have hafter := congrArg List.length hpost
    rw [hshown] at hlength
    simp only [List.length_append, List.length_map, List.length_cons, List.length_nil]
      at hlength hbefore hafter
    -- nothing is written that was not read: were anything left out, the text would be shorter
    have hslashes : SlashesLeft raw := by
      by_contra hnone
      rw [if_neg hnone, List.length_nil] at hlength
      obtain ⟨-, hwritten⟩ | ⟨-, hless⟩ := hextras
      · rw [hwritten] at hlength
        omega
      · omega
    rw [if_pos hslashes] at hlength hshown
    simp only [List.length_cons, List.length_nil] at hlength
    obtain ⟨hfilled, hwritten⟩ | ⟨-, hless⟩ := hextras
    swap
    · omega
    rw [hwritten] at hlength hshown
    have hclean : cleaned pre = pre := hpre.eq_of_length (by omega)
    have hkept : safe post = post := hsafe.eq_of_length (by omega)
    obtain ⟨hquery, hfragment⟩ := (filled_iff h hmarks hkept).mp hfilled
    have hsmall : before.map Char.toLower = before := by
      rw [hshown, ← hclean, hmarks.cleaned, List.append_assoc] at heq
      exact (List.append_inj heq (by simp)).1
    refine ⟨⟨hclean, hkept⟩, ?_, hquery, hfragment, hslashes⟩
    rw [← hclean, hmarks.cleaned, List.map_append, hsmall]
    rfl
  · intro hkept
    obtain ⟨hfilled, hwritten⟩ | ⟨hnot, -⟩ := hextras
    swap
    · exact absurd ((filled_iff h hmarks hkept.clean.2).mpr ⟨hkept.query, hkept.fragment⟩) hnot
    have hsmall : before.map Char.toLower ++ ['/', '/'] = pre := by
      have hlower := hkept.small
      rw [← hkept.clean.1, hmarks.cleaned, List.map_append] at hlower
      rw [← hkept.clean.1, hmarks.cleaned]
      exact hlower
    rw [hshown, if_pos hkept.slashes, hwritten, ← hpost, hkept.clean.2, ← List.append_assoc, hsmall]

/-- Only the credentials are deleted, exactly where the rest is written as it was read. -/
theorem deletes_credentials_iff (hread : urlsplit raw ≠ none) (hat : '@' ∈ (divided raw).netloc) :
    ∃ pre user post, Cuts raw pre user post ∧
      (∀ pre' user' post', Cuts raw pre' user' post' → pre = pre' ∧ user = user' ∧ post = post') ∧
      (redacted raw = pre ++ post ↔ Kept raw pre post) := by
  obtain ⟨pre, user, post, hcuts⟩ := exists_cuts hat
  exact ⟨pre, user, post, hcuts, fun _ _ _ => cuts_unique hcuts,
    redacted_eq_append_iff hread hcuts⟩

end Deleted

section Sample
attribute [local instance] Unicode.ascii

theorem deletes_credentials_iff_vhost :
    urlsplit "amqp://user:pw@host/vh".toList ≠ none ∧
      '@' ∈ (divided "amqp://user:pw@host/vh".toList).netloc ∧
      ∃ pre user post, Cuts "amqp://user:pw@host/vh".toList pre user post ∧
        (∀ pre' user' post', Cuts "amqp://user:pw@host/vh".toList pre' user' post' →
          pre = pre' ∧ user = user' ∧ post = post') ∧
        (redacted "amqp://user:pw@host/vh".toList = pre ++ post ↔
          Kept "amqp://user:pw@host/vh".toList pre post) := by
  have hread : urlsplit "amqp://user:pw@host/vh".toList ≠ none := by decide
  have hat : '@' ∈ (divided "amqp://user:pw@host/vh".toList).netloc := by decide
  exact ⟨hread, hat, deletes_credentials_iff hread hat⟩

/-- Capitals of the scheme are shown small, and slashes before an empty host are left out. -/
theorem scheme_and_slashes_changed :
    redacted "AMQP://user:pw@host/vh".toList = "amqp://host/vh".toList ∧
      (∀ pre user post, Cuts "AMQP://user:pw@host/vh".toList pre user post →
        redacted "AMQP://user:pw@host/vh".toList ≠ pre ++ post) ∧
      redacted "amqp://user:pw@/vh".toList = "amqp:/vh".toList := by
  refine ⟨by decide, ?_, by decide⟩
  intro pre user post hcuts hsame
  have hinside : "user:pw".toList.all inAuthority = true := by decide
  have hcut : Cuts "AMQP://user:pw@host/vh".toList "AMQP://".toList "user:pw".toList
      "host/vh".toList := ⟨by decide, by decide, List.all_eq_true.mp hinside, by decide⟩
  obtain ⟨rfl, rfl, rfl⟩ := cuts_unique hcut hcuts
  exact absurd hsame (by decide)

end Sample

end XtrMessenger.Dsn
