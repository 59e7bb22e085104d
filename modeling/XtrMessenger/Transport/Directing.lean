import XtrMessenger.Transport.Workers

/-! Whether a selection reaches the adapters its transports resolve to. -/
namespace XtrMessenger.Transport
open Foundation Dsn Factory
variable {ω ρ υ : Type}

section Consumer
variable {s : Selection ω ρ υ}

theorem mem_namesServed {brings : Bool} {name : String} : name ∈ s.namesServed brings ↔
    ∃ x ∈ s.served, x.1.worker.isSome = brings ∧ name ∈ x.2.members.map Prod.fst := by
  simp only [Selection.namesServed, List.mem_flatMap, List.mem_filter, decide_eq_true_eq]
  constructor
  · rintro ⟨x, ⟨hx, hb⟩, hn⟩
    exact ⟨x, hx, hb, hn⟩
  · rintro ⟨x, hx, hb, hn⟩
    exact ⟨x, ⟨hx, hb⟩, hn⟩

theorem namesServed_eq_nil {brings : Bool} :
    s.namesServed brings = [] ↔ ∀ x ∈ s.served, x.1.worker.isSome ≠ brings := by
  rw [List.eq_nil_iff_forall_not_mem]
  constructor
  · intro h x hx hb
    exact h x.2.1.1 (mem_namesServed.mpr ⟨x, hx, hb, by simp [Part.members]⟩)
  · intro h name hn
    obtain ⟨x, hx, hb, -⟩ := mem_namesServed.mp hn
    exact h x hx hb

theorem consumer_cases (s : Selection ω ρ υ) :
    (s.consumer = .ok .library ∧ ∀ x ∈ s.served, x.1.worker.isSome = false) ∨
    (s.consumer = .error (incompatibleReceiversError (s.namesServed true)
        (s.namesServed false ++ s.registered.keys)) ∧
      (∃ x ∈ s.served, x.1.worker.isSome = true) ∧
        ((∃ x ∈ s.served, x.1.worker.isSome = false) ∨ s.registered.entries ≠ [])) ∨
    ∃ x ∈ s.served, ∃ build, s.consumer = .ok (.provided x.1 build) ∧
      (∀ x ∈ s.served, x.1.worker.isSome = true) ∧ s.registered.entries = [] := by
  unfold Selection.consumer
  cases hproviding : s.providing with
  | nil =>
    left
    refine ⟨rfl, fun x hx => ?_⟩
    have hnone := List.filterMap_eq_nil_iff.mp hproviding x hx
    cases hw : x.1.worker with
    | none => rfl
    | some build => simp [hw] at hnone
  | cons provided rest =>
    right
    obtain ⟨factory, build⟩ := provided
    have hfirst : (factory, build) ∈ s.providing := hproviding ▸ List.mem_cons_self
    obtain ⟨x, hx, hbuild⟩ := List.mem_filterMap.mp hfirst
    obtain ⟨build', hw, hpair⟩ := Option.map_eq_some_iff.mp hbuild
    simp only [Prod.mk.injEq] at hpair
    obtain ⟨rfl, rfl⟩ := hpair
    by_cases hothers : s.namesServed false ++ s.registered.keys = []
    · right
      obtain ⟨hnames, hkeys⟩ := List.append_eq_nil_iff.mp hothers
      refine ⟨x, hx, build', ?_, fun y hy => ?_, List.map_eq_nil_iff.mp hkeys⟩
      · simp [hothers]
      · exact eq_true_of_ne_false (namesServed_eq_nil.mp hnames y hy)
    · left
      refine ⟨by simp only [ne_eq, hothers, not_false_eq_true, if_true], ⟨x, hx, by simp [hw]⟩, ?_⟩
      by_contra hnot
      simp only [not_or, not_exists, not_and, not_not] at hnot
      apply hothers
      apply List.append_eq_nil_iff.mpr
      constructor
      · exact namesServed_eq_nil.mpr hnot.1
      · simp [Dict.keys, hnot.2]

end Consumer

section Directing
variable [Unicode] [Installed ω ρ υ]

namespace WorkerFactory

/-- What serves a transport, asked about alone. -/
def resolves (f : WorkerFactory ω ρ υ) (d : Discovered ω ρ υ) (entry : String × TransportConfig) :
    Except (Exc ω) (Factory ω ρ υ) := (serving f.factories (entry, []) d).1

/-- A transport resolves to an adapter that brings its own worker. -/
def Brings (f : WorkerFactory ω ρ υ) (d : Discovered ω ρ υ) (entry : String × TransportConfig) :
    Prop := ∃ factory, f.resolves d entry = .ok factory ∧ factory.worker.isSome = true

/-- An adapter that is handed the group covers all that was named and serves each transport of it;
the library's own worker is built over no transport of an adapter that brings one; any other mix is
refused. -/
structure Directs (f : WorkerFactory ω ρ υ) (d : Discovered ω ρ υ) (names : List String)
    (s : Selection ω ρ υ) : Prop where
  provided : ∀ factory build, s.consumer = .ok (.provided factory build) →
    (∀ name ∈ names, name ∈ s.group.keys) ∧
      ∀ entry ∈ s.group.entries, f.resolves d entry = .ok factory
  library : s.consumer = .ok .library → ∀ entry ∈ s.group.entries, ¬f.Brings d entry
  refused : ∀ error, s.consumer = .error error → error.typeName = "IncompatibleReceiversError"

/-- The first transport named of each connection. -/
def leaders (ω : Type) (group : Group) : List (String × TransportConfig) :=
  match (byConnection group : Except (Exc ω) (List Part)) with
  | .ok parts => parts.map Prod.fst
  | .error _ => []

/-- A connection's first transport resolves to an adapter that brings its own worker, beside
another's that does not or a registered receiver. -/
def Mixed (f : WorkerFactory ω ρ υ) (d : Discovered ω ρ υ) (names : List String) (group : Group) :
    Prop :=
  (∃ entry ∈ leaders ω group, f.Brings d entry) ∧
    ((∃ entry ∈ leaders ω group, ¬f.Brings d entry) ∨ (f.registered names group).entries ≠ [])

/-- All resolve to the same adapter where one resolves to an adapter that brings its own worker. -/
def Alike (f : WorkerFactory ω ρ υ) (d : Discovered ω ρ υ) (group : Group) : Prop :=
  ∀ entry ∈ group.entries, ∀ factory, f.resolves d entry = .ok factory →
    factory.worker.isSome = true →
      ∀ entry' ∈ group.entries, f.resolves d entry' = .ok factory

end WorkerFactory

section Parts
variable {group : Group} {parts : List Part}

theorem keyed_iff {entry : String × TransportConfig}
    {keyed : List Char × String × TransportConfig} :
    (do return ((← parsed entry.2).connection, entry) : Except (Exc ω) _) = .ok keyed ↔
      ∃ dsn, parse entry.2.dsn = .ok dsn ∧ (dsn.connection, entry) = keyed := by
  refine bind_eq_ok_iff.trans (exists_congr fun dsn => and_congr mapError_eq_ok_iff ?_)
  exact ⟨Except.ok.inj, congrArg Except.ok⟩

omit [Unicode] in
/-- The parts are the members of each key. -/
theorem members_iff (connected : List (List Char × String × TransportConfig))
    (P : List (String × TransportConfig) → Prop) :
    (∃ part ∈ (groupBy Prod.fst connected).values.map fun part =>
      (part.1.2, part.2.map Prod.snd), P (Part.members part)) ↔
        ∃ keyed ∈ connected,
          P ((connected.filter fun other => other.1 = keyed.1).map Prod.snd) := by
  have hmembers : ((groupBy Prod.fst connected).values.map fun part =>
      (part.1.2, part.2.map Prod.snd)).map Part.members =
        (groupBy Prod.fst connected).groups.map fun g => g.2.map Prod.snd := by
    simp only [Dict.values, Dict.groups, List.map_map]
    rfl
  calc (∃ part ∈ (groupBy Prod.fst connected).values.map fun part =>
        (part.1.2, part.2.map Prod.snd), P (Part.members part)) ↔
      ∃ members ∈ ((groupBy Prod.fst connected).values.map fun part =>
        (part.1.2, part.2.map Prod.snd)).map Part.members, P members := by
        simp only [List.mem_map, exists_exists_and_eq_and]
    _ ↔ ∃ members ∈ (groupBy Prod.fst connected).groups.map fun g => g.2.map Prod.snd,
        P members := by rw [hmembers]
    _ ↔ ∃ keyed ∈ connected,
        P ((connected.filter fun other => other.1 = keyed.1).map Prod.snd) := by
        rw [groups_groupBy]
        simp only [List.mem_map, List.mem_eraseDups, exists_exists_and_eq_and]

/-- The parts are the groups of the connections the group's DSNs have. -/
theorem parts_by_connection (h : (byConnection group : Except (Exc ω) (List Part)) = .ok parts) :
    ∃ connected : List (List Char × String × TransportConfig),
      (∀ entry ∈ group.entries, ∃ dsn, parse entry.2.dsn = .ok dsn) ∧
      (∀ k entry, (k, entry) ∈ connected ↔
        entry ∈ group.entries ∧ ∃ dsn, parse entry.2.dsn = .ok dsn ∧ dsn.connection = k) ∧
      ∀ P : List (String × TransportConfig) → Prop, (∃ part ∈ parts, P part.members) ↔
        ∃ keyed ∈ connected,
          P ((connected.filter fun other => other.1 = keyed.1).map Prod.snd) := by
  obtain ⟨connected, hconnected, h⟩ := bind_eq_ok_iff.mp h
  obtain rfl := Except.ok.inj h
  have hrows := mapM_eq_ok_iff.mp hconnected
  refine ⟨connected, ?_, ?_, members_iff connected⟩
  · intro entry hentry
    obtain ⟨keyed, -, hrow⟩ := exists_of_mem_right hrows.flip hentry
    obtain ⟨dsn, hdsn, -⟩ := keyed_iff.mp hrow
    exact ⟨dsn, hdsn⟩
  · intro k entry
    constructor
    · intro hmem
      obtain ⟨entry', hentry, hrow⟩ := exists_of_mem_right hrows hmem
      obtain ⟨dsn, hdsn, hpair⟩ := keyed_iff.mp hrow
      obtain ⟨hk, rfl⟩ := Prod.mk.inj hpair
      exact ⟨hentry, dsn, hdsn, hk⟩
    · intro hread
      obtain ⟨hentry, dsn, hdsn, rfl⟩ := hread
      obtain ⟨keyed, hmem, hrow⟩ := exists_of_mem_right hrows.flip hentry
      obtain ⟨dsn', hdsn', hpair⟩ := keyed_iff.mp hrow
      obtain rfl := Except.ok.inj (hdsn.symm.trans hdsn')
      exact hpair ▸ hmem

/-- A group is split into its transports. -/
theorem mem_parts (h : (byConnection group : Except (Exc ω) (List Part)) = .ok parts)
    {entry : String × TransportConfig} :
    entry ∈ group.entries ↔ ∃ part ∈ parts, entry ∈ part.members := by
  obtain ⟨connected, hread, hconnected, hparts⟩ := parts_by_connection h
  rw [hparts (entry ∈ ·)]
  constructor
  · intro hentry
    obtain ⟨dsn, hdsn⟩ := hread entry hentry
    have hkeyed := (hconnected dsn.connection entry).mpr ⟨hentry, dsn, hdsn, rfl⟩
    refine ⟨_, hkeyed, List.mem_map.mpr ⟨_, List.mem_filter.mpr ⟨hkeyed, ?_⟩, rfl⟩⟩
    simp
  · intro hpart
    obtain ⟨keyed, -, hmem⟩ := hpart
    obtain ⟨other, hother, rfl⟩ := List.mem_map.mp hmem
    exact ((hconnected _ _).mp (List.mem_filter.mp hother).1).1

/-- Two transports are in one part where they have one connection. -/
theorem together_iff (h : (byConnection group : Except (Exc ω) (List Part)) = .ok parts)
    {e e' : String × TransportConfig} (he : e ∈ group.entries) (he' : e' ∈ group.entries)
    {dsn dsn' : Dsn} (hdsn : parse e.2.dsn = .ok dsn) (hdsn' : parse e'.2.dsn = .ok dsn') :
    (∃ part ∈ parts, e ∈ part.members ∧ e' ∈ part.members) ↔
      dsn.connection = dsn'.connection := by
  obtain ⟨connected, -, hconnected, hparts⟩ := parts_by_connection h
  have hin := (hconnected _ _).mpr ⟨he, dsn, hdsn, rfl⟩
  have hin' := (hconnected _ _).mpr ⟨he', dsn', hdsn', rfl⟩
  have hkey : ∀ {k entry read}, (k, entry) ∈ connected → parse entry.2.dsn = .ok read →
      k = read.connection := by
    intro k entry read hmem hread
    obtain ⟨-, read', hread', hk⟩ := (hconnected _ _).mp hmem
    rw [← hk, Except.ok.inj (hread.symm.trans hread')]
  have hmem : ∀ {k entry}, entry ∈ (connected.filter fun other => other.1 = k).map Prod.snd ↔
      (k, entry) ∈ connected := by
    intro k entry
    simp
  rw [hparts fun members => e ∈ members ∧ e' ∈ members]
  simp only [hmem]
  constructor
  · intro htogether
    obtain ⟨keyed, -, hone, hother⟩ := htogether
    exact (hkey hone hdsn).symm.trans (hkey hother hdsn')
  · intro heq
    exact ⟨_, hin, hin, heq ▸ hin'⟩

theorem mem_of_first (h : (byConnection group : Except (Exc ω) (List Part)) = .ok parts)
    {part : Part} (hp : part ∈ parts) : part.1 ∈ group.entries :=
  (mem_parts h).mpr ⟨part, hp, List.mem_cons_self⟩

theorem leaders_eq (h : (byConnection group : Except (Exc ω) (List Part)) = .ok parts) :
    WorkerFactory.leaders ω group = parts.map Prod.fst := by
  simp [WorkerFactory.leaders, h]

end Parts

namespace WorkerFactory
variable {f : WorkerFactory ω ρ υ} {names : List String} {d d' : Discovered ω ρ υ}
  {s : Selection ω ρ υ}

/-- What is selected: a transport that leads a connection resolves to what serves it. -/
structure Served (f : WorkerFactory ω ρ υ) (d : Discovered ω ρ υ) (names : List String)
    (s : Selection ω ρ υ) : Prop where
  select : f.select names = .ok s.group
  registered : s.registered = f.registered names s.group
  leads : ∀ x ∈ s.served, x.2.1 ∈ leaders ω s.group ∧ x.2.1 ∈ s.group.entries ∧
    f.resolves d x.2.1 = .ok x.1
  led : ∀ entry ∈ leaders ω s.group, ∃ x ∈ s.served, x.2.1 = entry
  someone : ∀ entry ∈ s.group.entries, ∃ x, x ∈ s.served

theorem served_of_parts {parts : List Part}
    (hparts : (byConnection s.group : Except (Exc ω) (List Part)) = .ok parts)
    (hserved : List.Forall₂ (fun part x => x.2 = part ∧ f.resolves d part.1 = .ok x.1) parts
      s.served) (hselect : f.select names = .ok s.group)
    (hregistered : s.registered = f.registered names s.group) : Served f d names s := by
  have hpart : ∀ part ∈ parts, ∃ x ∈ s.served, x.2 = part := by
    intro part hp
    obtain ⟨x, hx, hserves, -⟩ := exists_of_mem_right hserved.flip hp
    exact ⟨x, hx, hserves⟩
  constructor
  case select => exact hselect
  case registered => exact hregistered
  case leads =>
    intro x hx
    obtain ⟨part, hp, rfl, hresolves⟩ := exists_of_mem_right hserved hx
    have hleader : x.2.1 ∈ leaders ω s.group := by
      rw [leaders_eq hparts]
      exact List.mem_map_of_mem hp
    exact ⟨hleader, mem_of_first hparts hp, hresolves⟩
  case led =>
    intro entry hentry
    rw [leaders_eq hparts] at hentry
    obtain ⟨part, hp, rfl⟩ := List.mem_map.mp hentry
    obtain ⟨x, hx, hserves⟩ := hpart part hp
    exact ⟨x, hx, by rw [hserves]⟩
  case someone =>
    intro entry hentry
    obtain ⟨part, hp, -⟩ := (mem_parts hparts).mp hentry
    obtain ⟨x, hx, -⟩ := hpart part hp
    exact ⟨x, hx⟩

theorem served_of_selected (hs : SchemeOnly ω ρ υ) (hd : Kept d)
    (h : f.selected names d = (.ok s, d')) : Served f d names s := by
  obtain ⟨group, t, hfirst, hbuses⟩ := Stateful.bind_eq_ok_iff.mp h
  obtain ⟨hgroup, rfl⟩ := Stateful.lift_eq_ok_iff.mp hfirst
  obtain ⟨bus, t, hsecond, hsplit⟩ := Stateful.bind_eq_ok_iff.mp hbuses
  obtain ⟨-, rfl⟩ := Stateful.lift_eq_ok_iff.mp hsecond
  obtain ⟨parts, t, hthird, hserve⟩ := Stateful.bind_eq_ok_iff.mp hsplit
  obtain ⟨hparts, rfl⟩ := Stateful.lift_eq_ok_iff.mp hthird
  obtain ⟨served, t, hserved, hselected⟩ := Stateful.bind_eq_ok_iff.mp hserve
  obtain ⟨rfl, -⟩ : s = ⟨group, f.registered names group, bus, served⟩ ∧ d' = t := by
    simpa [eq_comm] using hselected
  have hsteady : ∀ part : Part, Stateful.Steady Kept
      (do return (← serving f.factories part, part) : Asking ω ρ υ _) := by
    intro part
    apply (serving_steady hs f.factories part).bind
    intro factory
    exact Stateful.steady_pure (factory, part)
  -- each connection is asked about after the ones before it, and answers as it would alone
  apply served_of_parts hparts _ hgroup rfl
  apply (Stateful.mapM_answers hsteady hd hserved).imp
  intro part x hx
  obtain ⟨factory, t, hfactory, hpair⟩ := Stateful.bind_eq_ok_iff.mp (Prod.ext hx rfl)
  obtain ⟨rfl, -⟩ : x = (factory, part) ∧ _ = t := by simpa [eq_comm] using hpair
  have hresolves : (serving f.factories part d).1 = .ok factory := by rw [hfactory]
  exact ⟨rfl, hresolves⟩

omit [Unicode] [Installed ω ρ υ] in
/-- The group has the transports among what is named, all of it known. -/
theorem select_eq_ok {group : Group} (h : f.select names = .ok group) :
    (∀ name ∈ names, name ∈ f.transports.keys ∨ name ∈ f.receivers.keys) ∧
      ∀ name, name ∈ group.keys ↔ name ∈ names ∧ name ∈ f.transports.keys := by
  unfold select at h
  dsimp only at h
  split_ifs at h with hmissing
  obtain rfl := Except.ok.inj h
  constructor
  · intro name hname
    by_contra hno
    rw [not_or] at hno
    apply hmissing
    exact List.ne_nil_of_mem (List.mem_filter.mpr ⟨hname, by simpa using hno⟩)
  · intro name
    rw [Dict.mem_keys_filterMap, Dict.isSome_get?]

omit [Unicode] [Installed ω ρ υ] in
theorem mem_keys_registered {group : Group} {name : String} :
    name ∈ (f.registered names group).keys ↔
      (name ∈ names ∧ name ∉ group.keys) ∧ name ∈ f.receivers.keys := by
  unfold registered
  rw [Dict.mem_keys_filterMap, Dict.isSome_get?, List.mem_filter, decide_eq_true_eq]

omit [Unicode] [Installed ω ρ υ] in
/-- With no registered receiver named, the group covers what is named. -/
theorem covers {group : Group} (hselect : f.select names = .ok group)
    (hregistered : (f.registered names group).entries = []) :
    ∀ name ∈ names, name ∈ group.keys := by
  obtain ⟨hknown, hgroup⟩ := select_eq_ok hselect
  intro name hname
  by_contra hnot
  rcases hknown name hname with htransport | hreceiver
  · exact hnot ((hgroup name).mpr ⟨hname, htransport⟩)
  · have hmem : name ∈ (f.registered names group).keys :=
      mem_keys_registered.mpr ⟨⟨hname, hnot⟩, hreceiver⟩
    simp [Dict.keys, hregistered] at hmem

theorem brings_iff {entry : String × TransportConfig} {factory : Factory ω ρ υ}
    (h : f.resolves d entry = .ok factory) : f.Brings d entry ↔ factory.worker.isSome = true := by
  constructor
  · rintro ⟨factory', hresolves, hworker⟩
    rw [h] at hresolves
    exact Except.ok.inj hresolves ▸ hworker
  · intro hworker
    exact ⟨factory, h, hworker⟩

theorem Served.brings_iff (hserved : Served f d names s) {x : Factory ω ρ υ × Part}
    (hx : x ∈ s.served) : f.Brings d x.2.1 ↔ x.1.worker.isSome = true :=
  WorkerFactory.brings_iff (hserved.leads x hx).2.2

theorem Served.mixed_iff (hserved : Served f d names s) : Mixed f d names s.group ↔
    (∃ x ∈ s.served, x.1.worker.isSome = true) ∧
      ((∃ x ∈ s.served, x.1.worker.isSome = false) ∨ s.registered.entries ≠ []) := by
  have hleaders : ∀ p : String × TransportConfig → Prop,
      (∃ entry ∈ leaders ω s.group, p entry) ↔ ∃ x ∈ s.served, p x.2.1 := by
    intro p
    constructor
    · intro ⟨entry, hentry, hp⟩
      obtain ⟨x, hx, rfl⟩ := hserved.led entry hentry
      exact ⟨x, hx, hp⟩
    · intro ⟨x, hx, hp⟩
      exact ⟨x.2.1, (hserved.leads x hx).1, hp⟩
  have hnot : ∀ x ∈ s.served, ¬f.Brings d x.2.1 ↔ x.1.worker.isSome = false := by
    intro x hx
    rw [hserved.brings_iff hx, Bool.not_eq_true]
  unfold Mixed
  rw [hleaders, hleaders, hserved.registered]
  have hbrings : (∃ x ∈ s.served, f.Brings d x.2.1) ↔ ∃ x ∈ s.served, x.1.worker.isSome = true :=
    exists_congr fun x => and_congr_right fun hx => hserved.brings_iff hx
  have hlacks : (∃ x ∈ s.served, ¬f.Brings d x.2.1) ↔ ∃ x ∈ s.served, x.1.worker.isSome = false :=
    exists_congr fun x => and_congr_right fun hx => hnot x hx
  rw [hbrings, hlacks]

/-- Where no connection is served by an adapter with a worker, a transport that resolves to one
resolves unlike the rest. -/
theorem Served.alike_iff_of_none (hserved : Served f d names s)
    (hnone : ∀ x ∈ s.served, x.1.worker.isSome = false) :
    Alike f d s.group ↔ ∀ entry ∈ s.group.entries, ¬f.Brings d entry := by
  constructor
  · intro halike entry hentry hbrings
    obtain ⟨factory, hresolves, hworker⟩ := hbrings
    obtain ⟨x, hx⟩ := hserved.someone entry hentry
    obtain ⟨-, hmem, hleads⟩ := hserved.leads x hx
    have hsame := halike entry hentry factory hresolves hworker _ hmem
    rw [hleads] at hsame
    rw [← Except.ok.inj hsame, hnone x hx] at hworker
    exact Bool.false_ne_true hworker
  · intro hnot entry hentry factory hresolves hworker
    exact absurd ⟨factory, hresolves, hworker⟩ (hnot entry hentry)

theorem Served.alike_iff_of_mem (hserved : Served f d names s) {x : Factory ω ρ υ × Part}
    (hx : x ∈ s.served) (hworker : x.1.worker.isSome = true) :
    Alike f d s.group ↔ ∀ entry ∈ s.group.entries, f.resolves d entry = .ok x.1 := by
  obtain ⟨-, hmem, hleads⟩ := hserved.leads x hx
  constructor
  · intro halike
    exact halike _ hmem _ hleads hworker
  · intro hall entry hentry factory hresolves _ entry' hentry'
    rw [hall entry hentry] at hresolves
    rw [hall entry' hentry', hresolves]

/-- Every transport reaches what it resolves to exactly when all resolve to one adapter where one of
them brings its own worker, or a mix is seen and refused. -/
theorem directs_iff (hs : SchemeOnly ω ρ υ) (hd : Kept d)
    (h : f.selected names d = (.ok s, d')) :
    Directs f d names s ↔ Mixed f d names s.group ∨ Alike f d s.group := by
  have hserved := served_of_selected hs hd h
  rw [hserved.mixed_iff]
  obtain ⟨hconsumer, hnone⟩ | ⟨hconsumer, hmixed⟩ | ⟨x, hx, build, hconsumer, hall, hempty⟩ :=
    consumer_cases s
  · -- the library consumes: no leader brings a worker
    have hunmixed : ¬∃ x ∈ s.served, x.1.worker.isSome = true := by
      intro ⟨x, hx, hworker⟩
      rw [hnone x hx] at hworker
      exact Bool.false_ne_true hworker
    simp only [hunmixed, false_and, false_or]
    rw [hserved.alike_iff_of_none hnone]
    constructor
    · intro hdirects
      exact hdirects.library hconsumer
    · intro hnot
      exact ⟨by simp [hconsumer], fun _ => hnot, by simp [hconsumer]⟩
  · -- a mix is refused
    simp only [hmixed, and_self, true_or, iff_true]
    have hrefused : ∀ error, s.consumer = .error error →
        error.typeName = "IncompatibleReceiversError" := by
      intro error herror
      rw [hconsumer] at herror
      obtain rfl := Except.error.inj herror
      rfl
    exact ⟨by simp [hconsumer], by simp [hconsumer], hrefused⟩
  · -- an adapter consumes: each leader brings a worker
    have hunmixed : ¬((∃ x ∈ s.served, x.1.worker.isSome = false) ∨ s.registered.entries ≠ []) := by
      intro hother
      obtain ⟨y, hy, hnone⟩ | hsome := hother
      · rw [hall y hy] at hnone
        exact Bool.false_ne_true hnone.symm
      · exact hsome hempty
    simp only [hunmixed, and_false, false_or]
    rw [hserved.alike_iff_of_mem hx (hall x hx)]
    constructor
    · intro hdirects
      exact (hdirects.provided _ _ hconsumer).2
    · intro hserves
      have hcovers := covers hserved.select (hserved.registered ▸ hempty)
      have hprovided : ∀ factory build', s.consumer = .ok (.provided factory build') →
          factory = x.1 := by
        intro factory build' hprovided
        rw [hconsumer] at hprovided
        simp only [Except.ok.injEq, Consumer.provided.injEq] at hprovided
        exact hprovided.1.symm
      constructor
      case provided =>
        intro factory build' hconsumed
        rw [hprovided factory build' hconsumed]
        exact ⟨hcovers, hserves⟩
      case library => simp [hconsumer]
      case refused => simp [hconsumer]

theorem worker_eq_ok {built : BuiltWorker ω ρ υ} (h : f.worker names d = (.ok built, d')) :
    ∃ s t, f.selected names d = (.ok s, t) ∧
      ((∃ factory build made, s.consumer = .ok (.provided factory build) ∧
          build s.group s.bus = .ok made ∧ built = .provided factory s.group made) ∨
        s.consumer = .ok .library ∧ libraryWorker names s t = (.ok built, d')) := by
  obtain ⟨s, t, hselected, hconsume⟩ := Stateful.bind_eq_ok_iff.mp h
  refine ⟨s, t, hselected, ?_⟩
  obtain ⟨consumer, u, hfirst, hbuild⟩ := Stateful.bind_eq_ok_iff.mp hconsume
  obtain ⟨hconsumer, rfl⟩ := Stateful.lift_eq_ok_iff.mp hfirst
  cases consumer with
  | provided factory build =>
    left
    obtain ⟨made, u, hsecond, hreturn⟩ := Stateful.bind_eq_ok_iff.mp hbuild
    obtain ⟨hmade, rfl⟩ := Stateful.lift_eq_ok_iff.mp hsecond
    obtain ⟨rfl, -⟩ : built = .provided factory s.group made ∧ d' = t := by
      simpa [eq_comm] using hreturn
    exact ⟨factory, build, made, hconsumer, hmade, rfl⟩
  | library => exact .inr ⟨hconsumer, hbuild⟩

end WorkerFactory
end Directing

section Samples

/-- No distribution advertises an adapter. -/
local instance installedNone : Installed Int Unit Unit := ⟨fun _ => [], 0⟩

attribute [local instance] Unicode.ascii

/-- An adapter that brings its own worker, for one scheme. -/
def broker (id : Nat) (scheme : Char) : Adapter Int Unit Unit where
  id
  supports dsn := dsn.scheme = [scheme]
  create _ := .ok .empty
  worker := some fun _ _ => .ok ()

/-- `scheme://host`. -/
def configured (scheme host : Char) : TransportConfig :=
  ⟨[scheme, ':', '/', '/', host], none, ⟨.empty, true⟩⟩

/-- Two transports, beside the brokers of the schemes `a` and `b`. -/
def twoTransports (jobs mail : TransportConfig) : WorkerFactory Int Unit Unit where
  transports := Dict.update .empty [("jobs", jobs), ("mail", mail)]
  factories := .delegating 0 [.adapter (broker 0 'a'), .adapter (broker 1 'b')]
  dispatcher := .ok .ok

/-- Two servers of one broker. -/
def oneBroker : WorkerFactory Int Unit Unit :=
  twoTransports (configured 'a' 'x') (configured 'a' 'y')

/-- A server of each broker. -/
def twoBrokers : WorkerFactory Int Unit Unit :=
  twoTransports (configured 'a' 'x') (configured 'b' 'x')

theorem directs_iff_oneBroker : ∃ s d',
    oneBroker.selected ["jobs", "mail"] undiscovered = (.ok s, d') ∧
      WorkerFactory.Directs oneBroker undiscovered ["jobs", "mail"] s := by
  obtain ⟨s, d', hselected⟩ : ∃ s d',
      oneBroker.selected ["jobs", "mail"] undiscovered = (.ok s, d') := ⟨_, _, rfl⟩
  have hs : SchemeOnly Int Unit Unit := by
    intro scheme entry hentry
    simp [Installed.entryPoints] at hentry
  have hgroup : s.group = oneBroker.transports := by
    have hselect := (WorkerFactory.served_of_selected hs undiscovered_kept hselected).select
    exact (Except.ok.inj hselect).symm
  have hfirst : ∀ entry ∈ s.group.entries,
      oneBroker.resolves undiscovered entry = .ok (.adapter (broker 0 'a')) := by
    rw [hgroup]
    intro entry hentry
    obtain rfl | rfl : entry = ("jobs", configured 'a' 'x') ∨
        entry = ("mail", configured 'a' 'y') := by
      simpa using (show entry ∈ [("jobs", configured 'a' 'x'), ("mail", configured 'a' 'y')] from
        hentry)
    · rfl
    · rfl
  refine ⟨s, d', hselected, (WorkerFactory.directs_iff hs undiscovered_kept hselected).mpr ?_⟩
  right
  intro entry hentry factory hresolves hworker entry' hentry'
  rw [hfirst entry' hentry', ← hresolves, hfirst entry hentry]

/-- Of two brokers, the first is handed the other's transports. -/
theorem other_broker_misdirected : ¬∀ (f : WorkerFactory Int Unit Unit) (names : List String)
    (factory : Factory Int Unit Unit) (group : Group) (made : Unit) (d' : Discovered Int Unit Unit),
    f.worker names undiscovered = (.ok (.provided factory group made), d') →
      ∀ entry ∈ group.entries, f.resolves undiscovered entry = .ok factory := by
  intro h
  have hmisdirected := h twoBrokers ["jobs", "mail"] (.adapter (broker 0 'a'))
    twoBrokers.transports () undiscovered rfl ("mail", configured 'b' 'x') (.tail _ (.head _))
  have hresolves : twoBrokers.resolves undiscovered ("mail", configured 'b' 'x') =
      .ok (.adapter (broker 1 'b')) := rfl
  have hsame := Except.ok.inj (hresolves.symm.trans hmisdirected)
  exact absurd (congrArg Adapter.id (Factory.adapter.inj hsame)) (by decide)

end Samples

end XtrMessenger.Transport
