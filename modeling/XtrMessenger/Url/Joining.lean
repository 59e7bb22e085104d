import XtrMessenger.Url.Split

/-! What `urlunsplit` writes of a URL, `urlsplit` reads again. -/
namespace XtrMessenger.Url
open Foundation

section Lower
variable {c : Char} {s : List Char}

theorem isAlpha_iff : c.isAlpha = true ↔
    (65 ≤ c.toNat ∧ c.toNat ≤ 90) ∨ (97 ≤ c.toNat ∧ c.toNat ≤ 122) := by
  have hval : c.toNat = c.val.toNat := rfl
  have hA : 'A'.val.toNat = 65 := rfl
  have hZ : 'Z'.val.toNat = 90 := rfl
  have ha : 'a'.val.toNat = 97 := rfl
  have hz : 'z'.val.toNat = 122 := rfl
  have halpha : c.isAlpha = (decide (c.val ≥ 'A'.val ∧ c.val ≤ 'Z'.val) ||
      (decide (c.val ≥ 'a'.val) && decide (c.val ≤ 'z'.val))) := rfl
  simp only [halpha, Bool.or_eq_true, Bool.and_eq_true, decide_eq_true_eq, ge_iff_le,
    UInt32.le_iff_toNat_le]
  omega

/-- A capital letter becomes the small one, anything else stays. -/
theorem toLower_cases (c : Char) :
    (65 ≤ c.toNat ∧ c.toNat ≤ 90 ∧ c.toLower.toNat = c.toNat + 32) ∨
      (¬(65 ≤ c.toNat ∧ c.toNat ≤ 90) ∧ c.toLower = c) := by
  have hval : c.toNat = c.val.toNat := rfl
  have hA : 'A'.val.toNat = 65 := rfl
  have hZ : 'Z'.val.toNat = 90 := rfl
  have hshift : ('a'.val - 'A'.val).toNat = 32 := rfl
  unfold Char.toLower
  split
  · rename_i hupper
    simp only [ge_iff_le, UInt32.le_iff_toNat_le] at hupper
    left
    refine ⟨by omega, by omega, ?_⟩
    change (c.val + ('a'.val - 'A'.val)).toNat = _
    rw [UInt32.toNat_add]
    omega
  · rename_i hupper
    simp only [ge_iff_le, UInt32.le_iff_toNat_le] at hupper
    exact .inr ⟨by omega, rfl⟩

theorem toLower_toLower (c : Char) : c.toLower.toLower = c.toLower := by
  obtain ⟨_, _, hlower⟩ | ⟨-, hsame⟩ := toLower_cases c
  · obtain ⟨_, _, _⟩ | ⟨-, hsame⟩ := toLower_cases c.toLower
    · omega
    · exact hsame
  · rw [hsame, hsame]

theorem isAlpha_toLower (h : c.isAlpha = true) : c.toLower.isAlpha = true := by
  obtain ⟨_, _, hlower⟩ | ⟨-, hsame⟩ := toLower_cases c
  · apply isAlpha_iff.mpr
    omega
  · rw [hsame, h]

theorem isSchemeChar_toLower (h : isSchemeChar c = true) : isSchemeChar c.toLower = true := by
  obtain ⟨_, _, -⟩ | ⟨-, hsame⟩ := toLower_cases c
  · have halpha : c.toLower.isAlpha = true := isAlpha_toLower (isAlpha_iff.mpr (by omega))
    simp [isSchemeChar, Char.isAlphanum, halpha]
  · rw [hsame, h]

theorem isScheme_toLower (h : isScheme s = true) : isScheme (s.map Char.toLower) = true := by
  obtain ⟨c, rest, rfl, hc⟩ := exists_alpha_of_isScheme h
  simp only [isScheme, List.map_cons, List.head?_cons, Option.any_some, isAlpha_toLower hc,
    Bool.true_and, List.all_eq_true, List.mem_cons, List.mem_map]
  intro x hx
  obtain rfl | ⟨y, hy, rfl⟩ := hx
  · exact isSchemeChar_toLower (isSchemeChar_of_mem h List.mem_cons_self)
  · exact isSchemeChar_toLower (isSchemeChar_of_mem h (List.mem_cons_of_mem _ hy))

theorem map_toLower_toLower (s : List Char) :
    (s.map Char.toLower).map Char.toLower = s.map Char.toLower := by
  rw [List.map_map]
  exact List.map_congr_left fun c _ => toLower_toLower c

end Lower

/-- What holds of the parts `urlsplit` reads. -/
structure SplitResult.Read (split : SplitResult) : Prop where
  scheme : split.scheme ≠ [] → isScheme split.scheme = true ∧
    split.scheme.map Char.toLower = split.scheme
  netloc : ∀ c ∈ split.netloc, inAuthority c = true
  path : '?' ∉ split.path ∧ '#' ∉ split.path
  query : '#' ∉ split.query
  safe : ∀ c ∈ split.netloc ++ split.path ++ split.query ++ split.fragment, isUnsafe c = false
  rooted : split.netloc ≠ [] → split.path = [] ∨ split.path.head? = some '/'

section Divided
variable {url : List Char} {c : Char}

theorem isUnsafe_of_mem_cleaned (h : c ∈ cleaned url) : isUnsafe c = false := by
  simpa using (List.mem_filter.mp h).2

theorem notMem_cut_fst {s : List Char} : c ∉ (cut c s).1 := by
  intro h
  simpa using List.mem_takeWhile_imp h

/-- The scheme that is read, and what it is read of. -/
theorem splitScheme_cases (url : List Char) :
    splitScheme url = ([], url) ∨ ∃ s rest, isScheme s = true ∧ url = s ++ ':' :: rest ∧
      splitScheme url = (s.map Char.toLower, rest) := by
  by_cases hcolon : ':' ∈ url
  · obtain ⟨s, rest, rfl, hs⟩ := List.eq_append_cons_of_mem hcolon
    have hcut : cut ':' (s ++ ':' :: rest) = (s, rest) := cut_append_cons hs
    by_cases hscheme : isScheme s = true
    · exact .inr ⟨s, rest, hscheme, rfl, by simp [splitScheme, hcut, hscheme]⟩
    · exact .inl (by simp [splitScheme, hcut, hscheme])
  · exact .inl (by simp [splitScheme, hcolon])

theorem mem_of_mem_cut_snd {d : Char} {s : List Char} (h : c ∈ (cut d s).2) : c ∈ s :=
  (List.dropWhile_sublist _).mem ((List.drop_sublist _ _).mem h)

theorem mem_of_mem_cut_fst {d : Char} {s : List Char} (h : c ∈ (cut d s).1) : c ∈ s :=
  (List.takeWhile_sublist _).mem h

/-- What follows an authority, up to its query and fragment, begins with a slash. -/
theorem rooted_cut {rest : List Char} (h : ∀ c ∈ rest.head?, inAuthority c = false) :
    (cut '?' (cut '#' rest).1).1 = [] ∨ (cut '?' (cut '#' rest).1).1.head? = some '/' := by
  cases rest with
  | nil => exact .inl rfl
  | cons c rest =>
    have hc : inAuthority c = false := h c rfl
    simp only [inAuthority, Bool.and_eq_false_iff, decide_eq_false_iff_not, ne_eq, not_not] at hc
    obtain (rfl | rfl) | rfl := hc
    · exact .inr (by simp [cut])
    · exact .inl (by simp [cut])
    · exact .inl (by simp [cut])

theorem mem_of_mem_splitPath {scheme netloc rest : List Char}
    (h : c ∈ (splitPath scheme netloc rest).netloc ++ (splitPath scheme netloc rest).path ++
      (splitPath scheme netloc rest).query ++ (splitPath scheme netloc rest).fragment) :
    c ∈ netloc ∨ c ∈ rest := by
  simp only [splitPath, List.mem_append] at h
  obtain ((h | h) | h) | h := h
  · exact .inl h
  · exact .inr (mem_of_mem_cut_fst (mem_of_mem_cut_fst h))
  · exact .inr (mem_of_mem_cut_fst (mem_of_mem_cut_snd h))
  · exact .inr (mem_of_mem_cut_snd h)

/-- The path, query and fragment of what follows an authority. -/
theorem splitPath_read {scheme netloc rest : List Char}
    (hscheme : scheme ≠ [] → isScheme scheme = true ∧ scheme.map Char.toLower = scheme)
    (hnetloc : ∀ c ∈ netloc, inAuthority c = true)
    (hsafe : ∀ c ∈ netloc ++ rest, isUnsafe c = false)
    (hrooted : netloc ≠ [] → ∀ c ∈ rest.head?, inAuthority c = false) :
    (splitPath scheme netloc rest).Read where
  scheme := hscheme
  netloc := hnetloc
  path := ⟨notMem_cut_fst, fun h => notMem_cut_fst (mem_of_mem_cut_fst h)⟩
  query := fun h => notMem_cut_fst (mem_of_mem_cut_snd h)
  safe := fun c hc => hsafe c (List.mem_append.mpr (mem_of_mem_splitPath hc))
  rooted := fun h => rooted_cut (hrooted h)

theorem head?_dropWhile_inAuthority {s : List Char} :
    ∀ c ∈ (s.dropWhile inAuthority).head?, inAuthority c = false := by
  intro c hc
  by_contra hnot
  have htrue : inAuthority c = true := by simpa using hnot
  have hhead := List.head?_dropWhile_not inAuthority s
  rw [Option.mem_def.mp hc] at hhead
  simp [htrue] at hhead

theorem splitScheme_append {s rest : List Char} (hs : isScheme s = true) :
    splitScheme (s ++ ':' :: rest) = (s.map Char.toLower, rest) := by
  have hcolon : ':' ∉ s := notMem_scheme hs (by decide)
  simp [splitScheme, cut_append_cons hcolon, hs]

/-- How a URL is divided: what its scheme is made of, and the rest. -/
theorem divided_cases (url : List Char) : ∃ before scheme rest, cleaned url = before ++ rest ∧
    (before = [] ∧ scheme = [] ∨
      ∃ s, isScheme s = true ∧ before = s ++ [':'] ∧ scheme = s.map Char.toLower) ∧
    divided url = if rest.take 2 = ['/', '/'] then
        splitPath scheme ((rest.drop 2).takeWhile inAuthority) ((rest.drop 2).dropWhile inAuthority)
      else splitPath scheme [] rest := by
  obtain hsplit | ⟨s, rest, hs, heq, hsplit⟩ := splitScheme_cases (cleaned url)
  · exact ⟨[], [], cleaned url, rfl, .inl ⟨rfl, rfl⟩, by rw [divided, hsplit]⟩
  · refine ⟨s ++ [':'], s.map Char.toLower, rest, by simp [heq], .inr ⟨s, hs, rfl, rfl⟩, ?_⟩
    rw [divided, hsplit]

theorem divided_read (url : List Char) : (divided url).Read := by
  obtain ⟨before, scheme, rest, hclean, hbefore, hdivided⟩ := divided_cases url
  have hsafe : ∀ c ∈ rest, isUnsafe c = false := by
    intro c hc
    apply isUnsafe_of_mem_cleaned
    rw [hclean]
    exact List.mem_append_right _ hc
  have hscheme : scheme ≠ [] → isScheme scheme = true ∧ scheme.map Char.toLower = scheme := by
    obtain ⟨-, rfl⟩ | ⟨s, hs, -, rfl⟩ := hbefore
    · simp
    · intro _
      exact ⟨isScheme_toLower hs, map_toLower_toLower s⟩
  rw [hdivided]
  split_ifs
  · apply splitPath_read hscheme
    · intro c hc
      exact List.mem_takeWhile_imp hc
    · intro c hc
      rw [List.takeWhile_append_dropWhile] at hc
      exact hsafe c ((List.drop_sublist _ _).mem hc)
    · intro _
      exact head?_dropWhile_inAuthority
  · apply splitPath_read hscheme
    · simp
    · simpa using hsafe
    · simp

/-- What is read behind the scheme stands in the URL. -/
theorem mem_of_mem_divided (h : c ∈ (divided url).netloc ++ (divided url).path ++
    (divided url).query ++ (divided url).fragment) : c ∈ url := by
  obtain ⟨before, scheme, rest, hclean, -, hdivided⟩ := divided_cases url
  have hcleaned : c ∈ cleaned url → c ∈ url := fun hc =>
    (List.dropWhile_sublist _).mem (List.mem_filter.mp hc).1
  apply hcleaned
  rw [hclean]
  apply List.mem_append_right
  rw [hdivided] at h
  split_ifs at h
  · apply (List.drop_sublist 2 rest).mem
    obtain hc | hc := mem_of_mem_splitPath h
    · exact (List.takeWhile_sublist _).mem hc
    · exact (List.dropWhile_sublist _).mem hc
  · obtain hc | hc := mem_of_mem_splitPath h
    · simp at hc
    · exact hc

end Divided

section Accepted
variable [Unicode] {url netloc : List Char}

/-- `urlsplit` raises over an authority. -/
def Refused (netloc : List Char) : Prop :=
  (bracketsRefused netloc || delimiterUnderNfkc netloc) = true

theorem urlsplit_ne_none_iff : urlsplit url ≠ none ↔ ¬Refused (divided url).netloc := by
  unfold urlsplit Refused
  dsimp only
  split_ifs with hrefused
  · simp [hrefused]
  · simp [hrefused]

theorem not_refused_nil : ¬Refused [] := by
  simp [Refused, bracketsRefused, delimiterUnderNfkc]

end Accepted

section Rejoined
variable {split : SplitResult} {scheme netloc path query fragment rest : List Char}

/-- The query and the fragment as `urlunsplit` writes them. -/
def extras (query fragment : List Char) : List Char :=
  (if query ≠ [] then '?' :: query else []) ++ (if fragment ≠ [] then '#' :: fragment else [])

theorem cut_hash_extras (hpath : '#' ∉ path) (hquery : '#' ∉ query) :
    cut '#' (path ++ extras query fragment) =
      (path ++ if query ≠ [] then '?' :: query else [], fragment) := by
  have hbefore : '#' ∉ path ++ if query ≠ [] then '?' :: query else [] := by
    split_ifs <;> simp [hpath, hquery]
  unfold extras
  rw [← List.append_assoc]
  by_cases hfragment : fragment = []
  · simp only [hfragment, ne_eq, not_true_eq_false, if_false, List.append_nil]
    exact cut_of_notMem hbefore
  · simp only [hfragment, ne_eq, not_false_eq_true, if_true]
    exact cut_append_cons hbefore

theorem splitPath_extras (hpath : '?' ∉ path ∧ '#' ∉ path) (hquery : '#' ∉ query) :
    splitPath scheme netloc (path ++ extras query fragment) =
      { scheme, netloc, path, query, fragment } := by
  unfold splitPath
  rw [cut_hash_extras hpath.2 hquery]
  by_cases hblank : query = []
  · simp [hblank, cut_of_notMem hpath.1]
  · simp [hblank, cut_append_cons hpath.1]

/-- An authority ends where its path begins, or the query or fragment. -/
theorem takeWhile_authority (hnetloc : ∀ c ∈ netloc, inAuthority c = true)
    (hrest : ∀ c ∈ rest.head?, inAuthority c = false) :
    (netloc ++ rest).takeWhile inAuthority = netloc ∧
      (netloc ++ rest).dropWhile inAuthority = rest := by
  rw [List.takeWhile_append_of_pos hnetloc, List.dropWhile_append_of_pos hnetloc]
  cases rest with
  | nil => simp
  | cons c rest =>
    have hc : inAuthority c = false := hrest c rfl
    simp [hc]

theorem head?_extras : ∀ c ∈ (extras query fragment).head?, c = '?' ∨ c = '#' := by
  unfold extras
  split_ifs <;> simp

theorem head?_rooted (hpath : path = [] ∨ path.head? = some '/') :
    ∀ c ∈ (path ++ extras query fragment).head?, inAuthority c = false := by
  intro c hc
  obtain rfl | hroot := hpath
  · obtain rfl | rfl := head?_extras c hc <;> decide
  · obtain ⟨path, rfl⟩ : ∃ p, path = '/' :: p := ⟨path.tail, (List.eq_cons_of_mem_head? hroot)⟩
    obtain rfl : '/' = c := by simpa using hc
    decide

theorem hierarchy_rooted (hpath : split.path = [] ∨ split.path.head? = some '/') :
    hierarchy split =
      if split.netloc ≠ [] ∨ split.scheme ∈ usesNetloc ∨ split.path.take 2 = ['/', '/'] then
        ['/', '/'] ++ split.netloc ++ split.path
      else split.path := by
  have hslash : ¬(split.path ≠ [] ∧ split.path.head? ≠ some '/') := by
    intro h
    obtain hnil | hroot := hpath
    · exact h.1 hnil
    · exact h.2 hroot
  unfold hierarchy
  simp only [hslash, if_false, List.append_nil]

theorem urlunsplit_eq : urlunsplit split =
    (if split.scheme ≠ [] then split.scheme ++ [':'] else []) ++
      (hierarchy split ++ extras split.query split.fragment) := by
  simp [urlunsplit, extras]

/-- A slash, a question mark and a hash are neither blank nor part of a scheme. -/
theorem delimiter_facts {c : Char} (h : inAuthority c = false) :
    0x20 < c.toNat ∧ c.isAlpha = false := by
  simp only [inAuthority, Bool.and_eq_false_iff, decide_eq_false_iff_not, ne_eq, not_not] at h
  obtain (rfl | rfl) | rfl := h <;> decide

theorem head?_hierarchy (hpath : split.path = [] ∨ split.path.head? = some '/') :
    ∀ c ∈ (hierarchy split ++ extras query fragment).head?, inAuthority c = false := by
  rw [hierarchy_rooted hpath]
  split_ifs
  · simp [inAuthority]
  · exact head?_rooted hpath

theorem splitScheme_of_delimiter (hrest : ∀ c ∈ rest.head?, inAuthority c = false) :
    splitScheme rest = ([], rest) := by
  obtain hsplit | ⟨s, after, hs, rfl, -⟩ := splitScheme_cases rest
  · exact hsplit
  · obtain ⟨c, s, rfl, hc⟩ := exists_alpha_of_isScheme hs
    have halpha : c.isAlpha = false := (delimiter_facts (hrest c rfl)).2
    simp [hc] at halpha

/-- A scheme that is written is read again. -/
theorem splitScheme_written
    (hscheme : scheme ≠ [] → isScheme scheme = true ∧ scheme.map Char.toLower = scheme)
    (hrest : ∀ c ∈ rest.head?, inAuthority c = false) :
    splitScheme ((if scheme ≠ [] then scheme ++ [':'] else []) ++ rest) = (scheme, rest) := by
  by_cases hnil : scheme = []
  · simp only [hnil, ne_eq, not_true_eq_false, if_false, List.nil_append]
    exact splitScheme_of_delimiter hrest
  · obtain ⟨hs, hlower⟩ := hscheme hnil
    have hcolon : ':' ∉ scheme := notMem_scheme hs (by decide)
    simp [splitScheme, cut_append_cons hcolon, hs, hlower, hnil]

theorem cleaned_eq_self (hsafe : ∀ c ∈ rest, isUnsafe c = false)
    (hhead : ∀ c ∈ rest.head?, 0x20 < c.toNat) : cleaned rest = rest := by
  have hdrop : rest.dropWhile (fun c => c.toNat ≤ 0x20) = rest := by
    cases rest with
    | nil => rfl
    | cons c rest =>
      have hc : 0x20 < c.toNat := hhead c rfl
      exact List.dropWhile_cons_of_neg (by simpa using hc)
  unfold cleaned
  rw [hdrop]
  exact List.filter_eq_self.mpr fun c hc => by simp [hsafe c hc]

theorem isUnsafe_of_isSchemeChar {c : Char} (h : isSchemeChar c = true) : isUnsafe c = false := by
  by_contra hnot
  simp only [isUnsafe, Bool.not_eq_false, Bool.or_eq_true, decide_eq_true_eq] at hnot
  obtain (rfl | rfl) | rfl := hnot <;> exact absurd h (by decide)

theorem isUnsafe_of_mem_urlunsplit (hread : split.Read) :
    ∀ c ∈ urlunsplit split, isUnsafe c = false := by
  intro c hc
  by_cases hmark : c ∈ [':', '/', '?', '#']
  · simp only [List.mem_cons, List.not_mem_nil, or_false] at hmark
    obtain rfl | rfl | rfl | rfl := hmark <;> decide
  · obtain h | h | h | h | h := mem_of_mem_urlunsplit hmark hc
    · obtain ⟨hs, -⟩ := hread.scheme (List.ne_nil_of_mem h)
      exact isUnsafe_of_isSchemeChar (isSchemeChar_of_mem hs h)
    all_goals exact hread.safe c (by simp [h])

theorem cleaned_urlunsplit (hread : split.Read)
    (hpath : split.path = [] ∨ split.path.head? = some '/') :
    cleaned (urlunsplit split) = urlunsplit split := by
  apply cleaned_eq_self (isUnsafe_of_mem_urlunsplit hread)
  intro c hc
  rw [urlunsplit_eq] at hc
  by_cases hnil : split.scheme = []
  · simp only [hnil, ne_eq, not_true_eq_false, if_false, List.nil_append] at hc
    exact (delimiter_facts (head?_hierarchy hpath c hc)).1
  · obtain ⟨d, s, hs, hd⟩ := exists_alpha_of_isScheme (hread.scheme hnil).1
    simp only [hs, ne_eq, reduceCtorEq, not_false_eq_true, if_true, List.cons_append,
      List.head?_cons, Option.mem_some_iff] at hc
    exact hc ▸ blank_lt_of_isAlpha hd

/-- No query and no fragment makes two slashes of one. -/
theorem take_two_extras (hslashes : path.take 2 ≠ ['/', '/']) :
    (path ++ extras query fragment).take 2 ≠ ['/', '/'] := by
  intro htake
  have hhead := @head?_extras query fragment
  cases hextras : extras query fragment with
  | nil => exact hslashes (by simpa [hextras] using htake)
  | cons d rest =>
    have hd : d ≠ '/' := by
      obtain rfl | rfl := hhead d (by simp [hextras]) <;> decide
    rw [hextras] at htake
    match path with
    | [] => simp [hd] at htake
    | [c] => simp [hd] at htake
    | c :: e :: path => exact hslashes (by simpa using htake)

/-- What `urlunsplit` writes of a URL whose path is rooted, `urlsplit` divides again. -/
theorem divided_urlunsplit (hread : split.Read)
    (hpath : split.path = [] ∨ split.path.head? = some '/') :
    divided (urlunsplit split) = split := by
  have hhead : ∀ c ∈ (split.path ++ extras split.query split.fragment).head?,
      inAuthority c = false := head?_rooted hpath
  have hscheme : splitScheme (urlunsplit split) =
      (split.scheme, hierarchy split ++ extras split.query split.fragment) := by
    rw [urlunsplit_eq]
    exact splitScheme_written hread.scheme (head?_hierarchy hpath)
  unfold divided
  rw [cleaned_urlunsplit hread hpath, hscheme]
  dsimp only
  rw [hierarchy_rooted hpath]
  by_cases hmarked : split.netloc ≠ [] ∨ split.scheme ∈ usesNetloc ∨
      split.path.take 2 = ['/', '/']
  · obtain ⟨hnetloc, hafter⟩ := takeWhile_authority hread.netloc hhead
    simp only [hmarked, if_true, List.append_assoc, List.cons_append, List.nil_append,
      List.take_succ_cons, List.take_zero, List.drop_succ_cons, List.drop_zero]
    rw [hnetloc, hafter]
    exact splitPath_extras hread.path hread.query
  · have hsplit := hmarked
    simp only [not_or, ne_eq, not_not] at hsplit
    obtain ⟨hnetloc, -, hslashes⟩ := hsplit
    rw [if_neg hmarked, if_neg (take_two_extras hslashes), ← hnetloc]
    exact splitPath_extras hread.path hread.query

end Rejoined

end XtrMessenger.Url
