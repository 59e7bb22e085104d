import XtrMessenger.Foundation.Cut
import XtrMessenger.Middleware.Named

/-! What the bundle makes of the chain entries that give middleware arguments: a service of its own
for each, prefetched for the chain. -/
namespace XtrMessenger.Bundle
open Foundation Middleware
variable {σ κ ω μ β : Type}

/-- What is asked of a service's definition. -/
structure Definition (ω : Type) where
  /-- The class that is built, none where a factory builds the service. -/
  provider : Option PyType
  arguments : Dict String ω

/-- The container builder in a state `κ`, asked about the services under `MiddlewareInterface`. -/
structure ContainerBuilder (κ ω : Type) where
  has : κ → String → Bool
  /-- The qualifiers of the aliases. -/
  known : κ → List String
  findDefinition : κ → String → Definition ω
  /-- `register(cls, qualifier=key).set_arguments(arguments)`. -/
  register : κ → PyType → String → Dict String ω → κ
  /-- `set_alias`, of a key to the class registered under it. -/
  setAlias : κ → PyType → String → κ

/-- What a class registered under a key, and aliased by it, keeps: `own` tells what such an alias
finds. -/
structure ContainerBuilder.Lawful (c : ContainerBuilder κ ω)
    (own : κ → String → Option (Definition ω)) : Prop where
  registered : ∀ b cls key arguments,
    own (c.setAlias (c.register b cls key arguments) cls key) key = some ⟨some cls, arguments⟩
  kept : ∀ b cls key arguments other, other ≠ key →
    own (c.setAlias (c.register b cls key arguments) cls key) other = own b other
  found : ∀ b key definition, own b key = some definition →
    c.has b key = true ∧ c.findDefinition b key = definition

/-- The services under `MiddlewareInterface` of a built container: none under a name it does not
carry, and what building one raises. -/
abbrev ServiceLocator (ω μ : Type) := String → Option (Except (Exc ω) μ)

section Model
variable [Unicode]

/-- One turn of the loop of `register_middleware_with_arguments`. -/
def registerEntry (c : ContainerBuilder κ ω) (b : κ) (x : Dict String (Given ω) × Nat) :
    Except (Exc ω) κ := do
  let (name, arguments) ← entryArguments x.1
  if c.has b name = false then .error (unknownMiddlewareError name (c.known b))
  else
    let named := c.findDefinition b name
    match named.provider with
    | none => .error (invalidMiddlewareArgumentsError name
        "it is built by a factory, which a configuration cannot give arguments")
    | some middlewareCls =>
      let key := entryKey name x.2
      let arguments := named.arguments.update arguments.entries
      .ok (c.setAlias (c.register b middlewareCls key arguments) middlewareCls key)

def registerMiddlewareWithArguments (c : ContainerBuilder κ ω) (b : κ)
    (configured : List (Entry ω μ)) : Except (Exc ω) κ :=
  (configured.filterMap Entry.mapping?).zipIdx.foldlM (registerEntry c) b

/-- One turn of the loop of `_middleware_keys`, with what it yielded and the next ordinal. -/
def yieldKey (so_far : List String × Nat) : Entry ω μ → Except (Exc ω) (List String × Nat)
  | .name name => .ok (so_far.1 ++ [name], so_far.2)
  | .arguments entry => do
    let (name, _) ← entryArguments entry
    return (so_far.1 ++ [entryKey name so_far.2], so_far.2 + 1)
  | .built _ => .ok so_far

def middlewareKeys (configured : List (Entry ω μ)) : Except (Exc ω) (List String) :=
  (configured.foldlM yieldKey ([], 0)).map Prod.fst

/-- The services of the names the container carries, beside what was built before. -/
def prefetch (locator : ServiceLocator ω μ) (built : Dict String μ) (keys : List String) :
    Except (Exc ω) (Dict String μ) :=
  keys.foldlM (fun built key => match locator key with
    | none => .ok built
    | some service => service.map fun middleware => built.set key middleware) built

/-- One turn of the loop of `_named_from_config`: what `_middleware_keys` yields is prefetched
before it goes on. -/
def prefetchNext (locator : ServiceLocator ω μ) (so_far : Dict String μ × Nat)
    (entry : Entry ω μ) : Except (Exc ω) (Dict String μ × Nat) := do
  let (keys, ordinal) ← yieldKey ([], so_far.2) entry
  return (← prefetch locator so_far.1 keys, ordinal)

/-- `_named_from_config`, up to each service being wrapped in a function that returns it. -/
def namedFromConfig (locator : ServiceLocator ω μ) (configured : List (Entry ω μ)) :
    Except (Exc ω) (Dict String μ) :=
  (configured.foldlM (prefetchNext locator) (.empty, 0)).map Prod.fst

/-- Builders beside functions that return what was built before. -/
def returning (calling : Calling σ ω μ β) : Calling σ ω μ (μ ⊕ β) where
  bind
    | .inl _, arguments => match arguments.entries with
      | [] => .ok ()
      | argument :: _ =>
        .error (.inl ("got an unexpected keyword argument " ++ pyRepr argument.1))
    | .inr builder, arguments => calling.bind builder arguments
  call
    | .inl middleware, _ => pure middleware
    | .inr builder, arguments => calling.call builder arguments

def inUnitsOfWork (unitOfWork : μ) (configured : List (Entry ω μ)) : List (Entry ω μ) :=
  .built unitOfWork :: configured

/-- The names of a chain the bundle builds: what was prefetched, the classes declared, and
`"logging"`. -/
def chainNames (built : Dict String μ) (registry : Dict String β) (logging : β) :
    Names (μ ⊕ β) :=
  namedMiddleware (.inr logging) (some (built.map .inl)) (registry.map .inr)

end Model

section Spec

/-- The key of an entry with arguments, by its place among those. -/
def argumentKey (x : Entry ω μ × Nat) : Option String :=
  x.1.given?.map fun given => entryKey given.1 x.2

/-- What a named entry is registered under. -/
def keyOf : Entry ω μ × Nat → Option String
  | (.name name, _) => some name
  | x => argumentKey x

/-- A container builder that writes down the qualifiers it registers under. -/
def recording (c : ContainerBuilder κ ω) : ContainerBuilder (κ × List String) ω where
  has b := c.has b.1
  known b := c.known b.1
  findDefinition b := c.findDefinition b.1
  register b cls key arguments := (c.register b.1 cls key arguments, b.2 ++ [key])
  setAlias b cls key := (c.setAlias b.1 cls key, b.2)

end Spec

section Keys

theorem entryKey_inj {name name' : String} {i j : Nat}
    (h : entryKey name i = entryKey name' j) : name = name' ∧ i = j := by
  have hash : ∀ n : Nat, '#' ∉ (toString n).toList := by
    intro n hn
    exact absurd (Text.isDigit_of_mem_toString hn) (by decide)
  have hlists : name.toList ++ '#' :: (toString i).toList =
      name'.toList ++ '#' :: (toString j).toList := by
    simpa [entryKey] using congrArg String.toList h
  have hdigits : (toString i).toList = (toString j).toList := by
    have hcut := congrArg (afterLast '#') hlists
    rwa [afterLast_append_cons (hash i), afterLast_append_cons (hash j)] at hcut
  rw [hdigits] at hlists
  exact ⟨String.toList_injective (List.append_cancel_right hlists),
    Text.toString_injective (String.toList_injective hdigits)⟩

theorem length_mappings (configured : List (Entry ω μ)) :
    (configured.filterMap Entry.mapping?).length = configured.countP Entry.isMapping := by
  induction configured with
  | nil => rfl
  | cons entry configured ih =>
    rw [List.countP_cons, ← ih]
    cases entry with
    | name name => rfl
    | arguments entry => rfl
    | built middleware => rfl

theorem ordinal_lt {configured : List (Entry ω μ)} {x : Entry ω μ × Nat}
    (hx : x ∈ numbered configured) (hmapping : x.1.isMapping = true) :
    x.2 < configured.countP Entry.isMapping := by
  induction configured using List.reverseRecOn with
  | nil => simp [numbered] at hx
  | append_singleton configured entry ih =>
    rw [numbered_concat, List.mem_append, List.mem_singleton] at hx
    rw [List.countP_append]
    rcases hx with hx | hx
    · have hlt := ih hx
      omega
    · subst hx
      have hone : [entry].countP Entry.isMapping = 1 := by simpa using hmapping
      omega

theorem isMapping_of_given {entry : Entry ω μ} {given : String × Dict String ω}
    (h : entry.given? = some given) : entry.isMapping = true := by
  cases entry with
  | name name => simp [Entry.given?] at h
  | arguments entry => rfl
  | built middleware => simp [Entry.given?] at h

theorem mapping_of_given {entry : Entry ω μ} {given : String × Dict String ω}
    (h : entry.given? = some given) : ∃ mapping, entry = .arguments mapping := by
  cases entry with
  | name name => simp [Entry.given?] at h
  | arguments mapping => exact ⟨mapping, rfl⟩
  | built middleware => simp [Entry.given?] at h

/-- An entry with arguments takes an ordinal no entry before it has. -/
theorem nodup_argumentKey (configured : List (Entry ω μ)) :
    ((numbered configured).filterMap argumentKey).Nodup := by
  induction configured using List.reverseRecOn with
  | nil => simp [numbered]
  | append_singleton configured entry ih =>
    rw [numbered_concat, List.filterMap_append]
    refine List.Nodup.append ih ?_ ?_
    · cases hkey : argumentKey (entry, configured.countP Entry.isMapping) <;> simp [hkey]
    · intro key hbefore hlast
      obtain ⟨x, hx, hkey⟩ := List.mem_filterMap.mp hbefore
      simp only [argumentKey, Option.map_eq_some_iff, List.filterMap_cons, List.filterMap_nil]
        at hkey hlast
      obtain ⟨given, hgiven, rfl⟩ := hkey
      cases hentry : entry.given? with
      | none => simp [hentry] at hlast
      | some given' =>
        simp only [hentry, Option.map_some, List.mem_singleton] at hlast
        have hlt := ordinal_lt hx (isMapping_of_given hgiven)
        have hsame := (entryKey_inj hlast).2
        omega

theorem mem_keys_of_given {configured : List (Entry ω μ)} {x : Entry ω μ × Nat}
    (hx : x ∈ numbered configured)
    {given : String × Dict String ω} (hgiven : x.1.given? = some given) :
    entryKey given.1 x.2 ∈ (numbered configured).filterMap keyOf := by
  refine List.mem_filterMap.mpr ⟨x, hx, ?_⟩
  obtain ⟨entry, ordinal⟩ := x
  obtain ⟨mapping, rfl⟩ := mapping_of_given hgiven
  simp only [keyOf, argumentKey, hgiven, Option.map_some]

theorem numbered_built (unitOfWork : μ) (configured : List (Entry ω μ)) :
    numbered (inUnitsOfWork unitOfWork configured) =
      (.built unitOfWork, 0) :: numbered configured := by
  simp [inUnitsOfWork, numbered, List.mapIdx_cons, Entry.isMapping]

end Keys

section Prefetch
variable {locator : ServiceLocator ω μ} {built : Dict String μ}

/-- A key the container carries is prefetched, under itself. -/
theorem get?_of_prefetch {start : Dict String μ} {keys : List String}
    (h : prefetch locator start keys = .ok built)
    {key : String} (hkey : key ∈ keys) {service : Except (Exc ω) μ}
    (hservice : locator key = some service) :
    ∃ middleware, service = .ok middleware ∧ built.get? key = some middleware := by
  unfold prefetch at h
  induction keys using List.reverseRecOn generalizing built with
  | nil => cases hkey
  | append_singleton keys last ih =>
    rw [List.foldlM_append] at h
    obtain ⟨before, hbefore, hlast⟩ := bind_eq_ok_iff.mp h
    simp only [List.foldlM_cons, List.foldlM_nil] at hlast
    cases hlocator : locator last with
    | none =>
      have hne : key ≠ last := by
        intro hsame
        rw [hsame, hlocator] at hservice
        cases hservice
      have hmem : key ∈ keys := by simpa [hne] using hkey
      have hsame : before = built := by
        simpa [hlocator, bind, Except.bind, pure, Except.pure] using hlast
      exact hsame ▸ ih hbefore hmem
    | some found =>
      simp only [hlocator] at hlast
      obtain ⟨after, hset, hpure⟩ := bind_eq_ok_iff.mp hlast
      obtain ⟨middleware, hfound, rfl⟩ := map_eq_ok_iff.mp hset
      have hsame : before.set last middleware = built := Except.ok.inj hpure
      rw [← hsame, Dict.get?_set]
      by_cases hlastKey : key = last
      · subst hlastKey
        rw [hlocator, Option.some.injEq] at hservice
        exact ⟨middleware, hservice ▸ hfound, by simp⟩
      · have hmem : key ∈ keys := by simpa [hlastKey] using hkey
        simpa [hlastKey] using ih hbefore hmem

/-- What is yielded after other keys is yielded without them. -/
theorem yieldKey_append [Unicode] {entry : Entry ω μ} {keys : List String} {n n' : Nat}
    (h : yieldKey ([], n) entry = (.ok (keys, n') : Except (Exc ω) _)) (before : List String) :
    yieldKey (before, n) entry = (.ok (before ++ keys, n') : Except (Exc ω) _) := by
  cases entry with
  | name name =>
    obtain ⟨rfl, rfl⟩ := Prod.mk.inj (Except.ok.inj h)
    rfl
  | built middleware =>
    obtain ⟨rfl, rfl⟩ := Prod.mk.inj (Except.ok.inj h)
    simp [yieldKey]
  | arguments entry =>
    obtain ⟨given, hgiven, hyields⟩ := bind_eq_ok_iff.mp h
    obtain ⟨rfl, rfl⟩ := Prod.mk.inj (Except.ok.inj hyields)
    exact bind_eq_ok_iff.mpr ⟨given, hgiven, rfl⟩

/-- What is prefetched between the keys is what is prefetched of them all. -/
theorem prefetch_of_foldlM [Unicode] {configured : List (Entry ω μ)}
    {start last : Dict String μ × Nat}
    (h : configured.foldlM (prefetchNext locator) start = .ok last) (before : List String) :
    ∃ keys, configured.foldlM yieldKey (before, start.2) =
        (.ok (before ++ keys, last.2) : Except (Exc ω) _) ∧
      prefetch locator start.1 keys = .ok last.1 := by
  induction configured generalizing start before with
  | nil =>
    obtain rfl := Except.ok.inj h
    exact ⟨[], by simp [pure, Except.pure], rfl⟩
  | cons entry configured ih =>
    obtain ⟨next, hnext, hrest⟩ := bind_eq_ok_iff.mp h
    obtain ⟨yielded, hyielded, hnext⟩ := bind_eq_ok_iff.mp hnext
    obtain ⟨built, hbuilt, hnext⟩ := bind_eq_ok_iff.mp hnext
    obtain rfl := Except.ok.inj hnext
    obtain ⟨keys, hkeys, hprefetch⟩ := ih hrest (before ++ yielded.1)
    refine ⟨yielded.1 ++ keys, ?_, ?_⟩
    · rw [List.foldlM_cons]
      refine bind_eq_ok_iff.mpr ⟨_, yieldKey_append hyielded before, ?_⟩
      rw [← List.append_assoc]
      exact hkeys
    · unfold prefetch at hbuilt hprefetch ⊢
      rw [List.foldlM_append]
      exact bind_eq_ok_iff.mpr ⟨built, hbuilt, hprefetch⟩

theorem prefetch_of_namedFromConfig [Unicode] {configured : List (Entry ω μ)}
    (h : namedFromConfig locator configured = .ok built) :
    ∃ keys, middlewareKeys configured = (.ok keys : Except (Exc ω) _) ∧
      prefetch locator .empty keys = .ok built := by
  obtain ⟨last, hlast, rfl⟩ := map_eq_ok_iff.mp h
  obtain ⟨keys, hkeys, hprefetch⟩ := prefetch_of_foldlM hlast []
  exact ⟨keys, map_eq_ok_iff.mpr ⟨_, hkeys, rfl⟩, hprefetch⟩

end Prefetch

section Traversals
variable [Unicode] {configured : List (Entry ω μ)}

theorem entryArguments_of_given {entry : Dict String (Given ω)} {given : String × Dict String ω}
    (h : (Entry.arguments (μ := μ) entry).given? = some given) :
    entryArguments entry = .ok given := by
  unfold entryArguments
  simp only [Entry.given?] at h
  split at h
  · rename_i hentries
    simpa [hentries] using h
  · cases h

/-- A loop that numbers the entries with arguments as it meets them, on well-formed ones. -/
theorem foldlM_yieldKey (h : ∀ entry ∈ configured, entry.WellFormed) :
    configured.foldlM yieldKey ([], 0) = (.ok ((numbered configured).filterMap keyOf,
      configured.countP Entry.isMapping) : Except (Exc ω) _) := by
  induction configured using List.reverseRecOn with
  | nil => rfl
  | append_singleton configured entry ih =>
    have hbefore := ih fun x hx => h x (List.mem_append_left _ hx)
    rw [List.foldlM_append, hbefore, numbered_concat, List.filterMap_append, List.countP_append]
    cases entry with
    | name name => rfl
    | built middleware =>
      simp [yieldKey, keyOf, argumentKey, Entry.given?, Entry.isMapping, pure, Except.pure, bind,
        Except.bind]
    | arguments entry =>
      obtain ⟨given, hgiven⟩ := h _ (List.mem_append_right _ (List.mem_singleton_self _)) rfl
      simp [yieldKey, keyOf, argumentKey, hgiven, entryArguments_of_given hgiven,
        Entry.isMapping, pure, Except.pure, bind, Except.bind]

theorem middlewareKeys_eq (h : ∀ entry ∈ configured, entry.WellFormed) :
    middlewareKeys configured = .ok ((numbered configured).filterMap keyOf) := by
  rw [middlewareKeys, foldlM_yieldKey h]
  rfl

variable {c : ContainerBuilder κ ω} {b b' : κ}

/-- An entry after others is registered after them, under the number of those with arguments. -/
theorem registerMiddlewareWithArguments_concat (entry : Entry ω μ) :
    registerMiddlewareWithArguments c b (configured ++ [entry]) =
      (registerMiddlewareWithArguments c b configured).bind fun b' => match entry.mapping? with
        | none => .ok b'
        | some mapping => registerEntry c b' (mapping, configured.countP Entry.isMapping) := by
  rw [registerMiddlewareWithArguments, List.filterMap_append, List.zipIdx_append,
    List.foldlM_append, Nat.zero_add, length_mappings]
  congr 1
  funext b'
  cases hmapping : entry.mapping? with
  | none => simp [hmapping, pure, Except.pure]
  | some mapping => simp [hmapping]

/-- What registering one entry does, where it does not refuse it. -/
theorem registerEntry_cases {entry : Dict String (Given ω)} {ordinal : Nat}
    {given : String × Dict String ω}
    (hgiven : (Entry.arguments (μ := μ) entry).given? = some given)
    (h : registerEntry c b (entry, ordinal) = .ok b') :
    ∃ cls, (c.findDefinition b given.1).provider = some cls ∧
      b' = c.setAlias (c.register b cls (entryKey given.1 ordinal)
        ((c.findDefinition b given.1).arguments.update given.2.entries)) cls
        (entryKey given.1 ordinal) := by
  simp only [registerEntry, entryArguments_of_given hgiven, bind, Except.bind] at h
  split at h
  · cases h
  · split at h
    · cases h
    · rename_i cls hprovider
      exact ⟨cls, hprovider, by simpa using h.symm⟩

/-- What holds before the first entry, and is kept by an entry without arguments and by
registering one that has them, holds of everything registered. -/
theorem registered_induction {motive : List (Entry ω μ) → κ → Prop}
    (h : ∀ entry ∈ configured, entry.WellFormed)
    (hregister : registerMiddlewareWithArguments c b configured = .ok b') (hnil : motive [] b)
    (hother : ∀ before entry between, entry.mapping? = none → motive before between →
      motive (before ++ [entry]) between)
    (hregistered : ∀ before entry given between after,
      (Entry.arguments (μ := μ) entry).given? = some given →
      registerEntry c between (entry, before.countP Entry.isMapping) = .ok after →
      motive before between → motive (before ++ [.arguments entry]) after) :
    motive configured b' := by
  induction configured using List.reverseRecOn generalizing b' with
  | nil => exact Except.ok.inj hregister ▸ hnil
  | append_singleton configured entry ih =>
    rw [registerMiddlewareWithArguments_concat, bind_eq_ok_iff] at hregister
    obtain ⟨between, hbetween, hlast⟩ := hregister
    have hbefore := ih (fun y hy => h y (List.mem_append_left _ hy)) hbetween
    have hformed := h entry (List.mem_append_right _ (List.mem_singleton_self _))
    cases entry with
    | name name => exact Except.ok.inj hlast ▸ hother configured _ between rfl hbefore
    | built middleware => exact Except.ok.inj hlast ▸ hother configured _ between rfl hbefore
    | arguments entry =>
      obtain ⟨given, hgiven⟩ := hformed rfl
      exact hregistered configured entry given between b' hgiven hlast hbefore

/-- Every entry with arguments keeps what it was registered with: the arguments of the definition
its name had, and its own over them. -/
theorem own_of_registered {own : κ → String → Option (Definition ω)} (hlawful : c.Lawful own)
    (h : ∀ entry ∈ configured, entry.WellFormed)
    (hregister : registerMiddlewareWithArguments c b configured = .ok b') :
    ∀ x ∈ numbered configured, ∀ given, x.1.given? = some given →
      ∃ cls base, own b' (entryKey given.1 x.2) =
        some ⟨some cls, Dict.update base given.2.entries⟩ := by
  apply registered_induction (motive := fun before between => ∀ x ∈ numbered before, ∀ given,
    x.1.given? = some given → ∃ cls base, own between (entryKey given.1 x.2) =
      some ⟨some cls, Dict.update base given.2.entries⟩) h hregister
  · simp [numbered]
  · intro before entry between hmapping ih x hx given hgiven
    rw [numbered_concat, List.mem_append, List.mem_singleton] at hx
    rcases hx with hx | rfl
    · exact ih x hx given hgiven
    · obtain ⟨mapping, rfl⟩ := mapping_of_given hgiven
      cases hmapping
  · intro before entry last between after hlast hentry ih x hx given hgiven
    obtain ⟨cls, -, rfl⟩ := registerEntry_cases hlast hentry
    rw [numbered_concat, List.mem_append, List.mem_singleton] at hx
    rcases hx with hx | rfl
    · have hother : entryKey given.1 x.2 ≠
          entryKey last.1 (before.countP Entry.isMapping) := by
        intro hsame
        have hlt := ordinal_lt hx (isMapping_of_given hgiven)
        have heq := (entryKey_inj hsame).2
        omega
      rw [hlawful.kept _ _ _ _ _ hother]
      exact ih x hx given hgiven
    · obtain rfl := Option.some.inj (hlast.symm.trans hgiven)
      exact ⟨cls, _, hlawful.registered _ _ _ _⟩

theorem registerEntry_recording {entry : Dict String (Given ω)} {ordinal : Nat}
    {given : String × Dict String ω}
    (hgiven : (Entry.arguments (μ := μ) entry).given? = some given)
    (h : registerEntry c b (entry, ordinal) = .ok b') (keys : List String) :
    registerEntry (recording c) (b, keys) (entry, ordinal) =
      .ok (b', keys ++ [entryKey given.1 ordinal]) := by
  have hread := entryArguments_of_given hgiven
  simp only [registerEntry, hread, bind, Except.bind] at h ⊢
  split at h
  · cases h
  · rename_i hhas
    split at h
    · cases h
    · rename_i cls hprovider
      simp only [recording, if_neg hhas, hprovider]
      rw [← Except.ok.inj h]

/-- The qualifiers written down are the keys of the entries with arguments, in order. -/
theorem register_recording (h : ∀ entry ∈ configured, entry.WellFormed)
    (hregister : registerMiddlewareWithArguments c b configured = .ok b') (keys : List String) :
    registerMiddlewareWithArguments (recording c) (b, keys) configured =
      .ok (b', keys ++ (numbered configured).filterMap argumentKey) := by
  apply registered_induction (motive := fun before between =>
    registerMiddlewareWithArguments (recording c) (b, keys) before =
      .ok (between, keys ++ (numbered before).filterMap argumentKey)) h hregister
  · simp [registerMiddlewareWithArguments, numbered, pure, Except.pure]
  · intro before entry between hmapping ih
    have hno : argumentKey (entry, before.countP Entry.isMapping) = none := by
      cases entry with
      | name name => rfl
      | arguments entry => cases hmapping
      | built middleware => rfl
    rw [registerMiddlewareWithArguments_concat, ih, numbered_concat, List.filterMap_append]
    simp [Except.bind, hmapping, hno]
  · intro before entry given between after hgiven hentry ih
    have hrecorded := registerEntry_recording hgiven hentry
      (keys ++ (numbered before).filterMap argumentKey)
    rw [registerMiddlewareWithArguments_concat, ih, numbered_concat, List.filterMap_append]
    simpa [Except.bind, Entry.mapping?, argumentKey, hgiven] using hrecorded

/-- An entry with arguments whose key was prefetched is what was prefetched. -/
theorem made_of_built {built : Dict String μ} {calling : Calling σ ω μ β}
    {registry : Dict String β} {logging : β}
    {x : Entry ω μ × Nat} {given : String × Dict String ω} (hgiven : x.1.given? = some given)
    {middleware : μ} (h : built.get? (entryKey given.1 x.2) = some middleware) :
    made (returning calling) (chainNames built registry logging) x = pure middleware := by
  obtain ⟨entry, ordinal⟩ := x
  obtain ⟨mapping, rfl⟩ := mapping_of_given hgiven
  have hname : (chainNames built registry logging).get? (entryKey given.1 ordinal) =
      some (.inl middleware) := by
    simp [chainNames, namedMiddleware, Names.get?, Dict.get?_map, h]
  have hprepared : prepared (chainNames built registry logging)
      (Entry.arguments (μ := μ) mapping, ordinal) = some (.inl middleware) := by
    simp only [prepared, entryArguments_of_given hgiven, hname]
  rw [made, hprepared]
  rfl

theorem prepared_eq {named : Names β} {x : Entry ω μ × Nat} {key : String}
    (h : argumentKey x = some key) : prepared named x = named.get? key := by
  obtain ⟨given, hgiven, rfl⟩ := Option.map_eq_some_iff.mp h
  obtain ⟨entry, ordinal⟩ := x
  obtain ⟨mapping, rfl⟩ := mapping_of_given hgiven
  simp only [prepared, entryArguments_of_given hgiven]

theorem resolve_inUnitsOfWork {calling : Calling σ ω μ β} {named : Names β} (unitOfWork : μ) :
    resolve calling named (inUnitsOfWork unitOfWork configured) = do
      let built ← (numbered configured).mapM (made calling named)
      return unitOfWork :: built := by
  rw [resolve_eq_mapM, numbered_built, List.mapM_cons]
  have hunit : made calling named (.built unitOfWork, 0) = pure unitOfWork := rfl
  rw [hunit, pure_bind]

/-- Registering, prefetching and resolving give each entry with arguments one key, a key of its
own, behind a unit of work in front of the chain too; what is prefetched under it and put in the
chain is what a definition with the entry's arguments builds. -/
theorem entry_keys_agree {own : κ → String → Option (Definition ω)} (hlawful : c.Lawful own)
    (h : ∀ entry ∈ configured, entry.WellFormed) (calling : Calling σ ω μ β) (unitOfWork : μ)
    (registry : Dict String β) (logging : β)
    (build : String → Definition ω → Except (Exc ω) μ) :
    ((numbered configured).filterMap argumentKey).Nodup ∧
      middlewareKeys configured = .ok ((numbered configured).filterMap keyOf) ∧
      (∀ named : Names (μ ⊕ β),
        resolve (returning calling) named (inUnitsOfWork unitOfWork configured) = (do
          let built ← (numbered configured).mapM (made (returning calling) named)
          return unitOfWork :: built) ∧
        ∀ x ∈ numbered configured, ∀ key, argumentKey x = some key →
          prepared named x = named.get? key) ∧
      ∀ b b', registerMiddlewareWithArguments c b configured = .ok b' →
        registerMiddlewareWithArguments (recording c) (b, []) configured =
          .ok (b', (numbered configured).filterMap argumentKey) ∧
        ∀ locator built, (∀ key, c.has b' key = true →
            locator key = some (build key (c.findDefinition b' key))) →
          namedFromConfig locator configured = .ok built →
          ∀ x ∈ numbered configured, ∀ name arguments, x.1.given? = some (name, arguments) →
            ∃ cls base middleware,
              c.findDefinition b' (entryKey name x.2) =
                ⟨some cls, Dict.update base arguments.entries⟩ ∧
              build (entryKey name x.2) ⟨some cls, base.update arguments.entries⟩ =
                .ok middleware ∧
              made (returning calling) (chainNames built registry logging) x =
                pure middleware := by
  refine ⟨nodup_argumentKey configured, middlewareKeys_eq h, ?_, ?_⟩
  · intro named
    exact ⟨resolve_inUnitsOfWork unitOfWork, fun x _ key hkey => prepared_eq hkey⟩
  intro b b' hregister
  refine ⟨by simpa using register_recording h hregister [], ?_⟩
  intro locator built hlocator hbuilt x hx name arguments hgiven
  obtain ⟨cls, base, hown⟩ := own_of_registered hlawful h hregister x hx _ hgiven
  obtain ⟨hhas, hdefinition⟩ := hlawful.found _ _ _ hown
  obtain ⟨keys, hkeys, hprefetch⟩ := prefetch_of_namedFromConfig hbuilt
  obtain rfl := Except.ok.inj ((middlewareKeys_eq h).symm.trans hkeys)
  have hservice := hlocator _ hhas
  rw [hdefinition] at hservice
  obtain ⟨middleware, hmiddleware, hget⟩ :=
    get?_of_prefetch hprefetch (mem_keys_of_given hx hgiven) hservice
  exact ⟨cls, base, middleware, hdefinition, hmiddleware, made_of_built hgiven hget⟩

end Traversals

section Sample
attribute [local instance] Unicode.ascii

/-- The classes registered under a qualifier, and what the aliases under it find. -/
abbrev Container :=
  Dict (PyType × String) (Definition Int) × Dict String (Definition Int)

def aliasing : ContainerBuilder Container Int where
  has b name := (b.2.get? name).isSome
  known b := b.2.keys
  findDefinition b name := (b.2.get? name).getD ⟨none, .empty⟩
  register b cls key arguments := (b.1.set (cls, key) ⟨some cls, arguments⟩, b.2)
  setAlias b cls key := (b.1, b.2.set key ((b.1.get? (cls, key)).getD ⟨none, .empty⟩))

theorem aliasing_lawful : aliasing.Lawful fun b key => b.2.get? key where
  registered b cls key arguments := by simp [aliasing, Dict.get?_set]
  kept b cls key arguments other hne := by simp [aliasing, Dict.get?_set, hne]
  found b key definition h := by simp [aliasing, h]

def sampledEntry (sampled : Int) : Entry Int (String × List (String × Int)) :=
  .arguments (Dict.update .empty
    [("audit", .arguments (Dict.update .empty [("sampled", sampled)]))])

def audits : List (Entry Int (String × List (String × Int))) :=
  [.name "audit", sampledEntry 10, sampledEntry 20]

/-- A container with one audit middleware. -/
def audited : Container :=
  (.empty, Dict.empty.set "audit" ⟨some ⟨4, "app.middleware", "Audit"⟩,
    Dict.update .empty [("sampled", 1), ("level", 3)]⟩)

/-- Services that tell their key and their arguments. -/
def tellingKey (key : String) (definition : Definition Int) :
    Except (Exc Int) (String × List (String × Int)) := .ok (key, definition.arguments.entries)

def located (b : Container) : ServiceLocator Int (String × List (String × Int)) := fun key =>
  if aliasing.has b key then some (tellingKey key (aliasing.findDefinition b key)) else none

theorem audits_wellFormed : ∀ entry ∈ audits, entry.WellFormed := by
  intro entry hentry
  simp only [audits, List.mem_cons, List.not_mem_nil, or_false] at hentry
  rcases hentry with rfl | rfl | rfl
  · intro hmapping
    cases hmapping
  · exact fun _ => ⟨("audit", Dict.update .empty [("sampled", 10)]), rfl⟩
  · exact fun _ => ⟨("audit", Dict.update .empty [("sampled", 20)]), rfl⟩

theorem entry_keys_agree_audits : ∃ b' built cls base middleware,
    registerMiddlewareWithArguments (recording aliasing) (audited, []) audits =
      .ok (b', ["audit#0", "audit#1"]) ∧
    middlewareKeys audits = .ok ["audit", "audit#0", "audit#1"] ∧
    namedFromConfig (located b') audits = .ok built ∧
    aliasing.findDefinition b' "audit#1" = ⟨some cls, Dict.update base [("sampled", 20)]⟩ ∧
    made (returning telling) (chainNames built .empty "logging") (sampledEntry 20, 1) =
      pure middleware := by
  have hregister : ∃ b', registerMiddlewareWithArguments aliasing audited audits = .ok b' ∧
      ∃ built, namedFromConfig (located b') audits = .ok built :=
    ⟨_, rfl, _, rfl⟩
  obtain ⟨b', hb', built, hbuilt⟩ := hregister
  obtain ⟨-, hkeys, -, hmade⟩ := entry_keys_agree aliasing_lawful audits_wellFormed telling
    ("unit of work", []) .empty "logging" tellingKey
  obtain ⟨hrecorded, hservices⟩ := hmade audited b' hb'
  have hlocated : ∀ key, aliasing.has b' key = true →
      located b' key = some (tellingKey key (aliasing.findDefinition b' key)) := by
    intro key hkey
    simp [located, hkey]
  obtain ⟨cls, base, middleware, hdefinition, -, hmiddleware⟩ := hservices (located b') built
    hlocated hbuilt (sampledEntry 20, 1) (List.mem_of_getElem? (i := 2) rfl) "audit"
    (Dict.update .empty [("sampled", 20)]) rfl
  exact ⟨b', built, cls, base, middleware, hrecorded, hkeys, hbuilt, hdefinition, hmiddleware⟩

end Sample

end XtrMessenger.Bundle
