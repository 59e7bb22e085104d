import XtrMessenger.Dsn.Connections
import XtrMessenger.Transport.Options
import XtrMessenger.Transport.Seeing
import XtrMessenger.Transport.Directing

/-! The objects behind the names of a configuration: what a bus publishes to under a name and what
a worker of the process drains under it. -/
namespace XtrMessenger.Transport.Wiring
open Foundation Dsn Factory
variable {ω ρ υ σ : Type}

/-- Which factories are an `InMemoryTransportFactory`, and the serializer each was built with. -/
class Recorders (ω ρ υ : Type) (σ : outParam Type) where
  recorder : Adapter ω ρ υ → Option (Option σ)

/-- What stands behind a name. -/
inductive Endpoint (ρ : Type)
  /-- An `InMemoryTransport`, by the identity of the object. -/
  | recorder (id : Nat)
  /-- Something another factory built, by the identity of the factory: whether it builds one object
  or several is its own affair. -/
  | other (factory : Nat)
  | registered (receiver : ρ)

/-- One transport, or what one other factory built. -/
def Endpoint.Matches : Endpoint ρ → Endpoint ρ → Prop
  | recorder id, recorder id' => id = id'
  | other factory, other factory' => factory = factory'
  | _, _ => False

structure State (ω ρ υ σ : Type) where
  found : Sharing.Discoveries ω ρ υ := {}
  /-- `_made` of each `InMemoryTransportFactory`. -/
  made : Nat → Dict String Nat := fun _ => .empty
  /-- The serializer of each `InMemoryTransport` that was built. -/
  recorders : List (Option σ) := []

/-- A transport is built, and kept under its name. -/
def State.keep (s : State ω ρ υ σ) (factory : Nat) (name : String) (serializer : Option σ) :
    State ω ρ υ σ :=
  { s with
    made := Function.update s.made factory ((s.made factory).set name s.recorders.length)
    recorders := s.recorders ++ [serializer] }

abbrev Wired (ω ρ υ σ α : Type) := Stateful (State ω ρ υ σ) (Exc ω) α

/-- What is asked of composites. -/
def seeking {α : Type} (x : Sharing.Seeking ω ρ υ α) : Wired ω ρ υ σ α := fun s =>
  let (answer, found) := x s.found
  (answer, { s with found })

/-- A `TransportFactory`. -/
abbrev Composite (ω ρ υ : Type) :=
  { factory : Factory ω ρ υ // Sharing.isTransportFactory factory = true }

/-- `TransportFactory([factory])`. -/
def Composite.around (id : Nat) (factory : Composite ω ρ υ) : Composite ω ρ υ :=
  ⟨.delegating id [factory.1], rfl⟩

section Objects
variable [Unicode]

def transport (factory : Nat) (serializer : Option σ) (name : String) (config : TransportConfig) :
    Wired ω ρ υ σ Nat := do
  match ((← Stateful.get).made factory).get? name with
  | some made => return made
  | none =>
    let serializer ← Stateful.lift (InMemory.serializerFor serializer config)
    let id := (← Stateful.get).recorders.length
    Stateful.modify fun s => s.keep factory name serializer
    return id

variable [Installed ω ρ υ] [Recorders ω ρ υ σ]

def serving (root : Composite ω ρ υ) (part : Part) : Wired ω ρ υ σ (Factory ω ρ υ) :=
  seeking (Sharing.serving part root.1)

/-- `create` of an adapter. Another than the in-memory one builds a transport for each name, as the
interface asks; `check` is what becomes of those. -/
def createBy (check : Dict String (Option ρ) → Except (Exc ω) Unit)
    (factory : Adapter ω ρ υ) (part : Part) : Wired ω ρ υ σ (List (String × Endpoint ρ)) :=
  match Recorders.recorder factory with
  | some serializer => part.members.mapM fun entry => do
    return (entry.1, .recorder (← transport factory.id serializer entry.1 entry.2))
  | none => do
    Stateful.lift (do check (← factory.create (Dict.update .empty part.members)))
    return part.members.map fun entry => (entry.1, .other factory.id)

/-- `create` of what serves: a `TransportFactory` that was discovered asks again what serves, until
`RecursionError`. -/
def create (check : Dict String (Option ρ) → Except (Exc ω) Unit) :
    Nat → Factory ω ρ υ → Part → Wired ω ρ υ σ (List (String × Endpoint ρ))
  | _, .adapter factory, part => createBy check factory part
  | 0, _, _ => Stateful.lift (.error recursionError)
  | n + 1, factory, part => do
    create check n (← seeking (Sharing.serving part factory)) part

def senders (transports : Group) (root : Composite ω ρ υ) :
    Wired ω ρ υ σ (Dict String (Endpoint ρ)) := do
  let parts ← Stateful.lift (byConnection transports)
  let built ← parts.mapM fun part => do
    create (fun _ => .ok ()) (Installed.depth ω ρ υ) (← serving root part) part
  return Dict.update .empty built.flatten

/-- What the library's own worker drains, by name: what the adapters build, and the registered
receivers. -/
def drained (names : List String) (s : Selection ω ρ υ) :
    Wired ω ρ υ σ (List (String × Endpoint ρ)) := do
  let built ← s.served.mapM fun x =>
    create (fun built => (receiversOf built).map fun _ => ()) (Installed.depth ω ρ υ) x.1 x.2
  let found := (Dict.update .empty built.flatten).update
    (s.registered.entries.map fun entry => (entry.1, .registered entry.2))
  return names.filterMap fun n => (found.get? n).map fun endpoint => (n, endpoint)

/-- `WorkerFactory.worker`, up to the receivers the worker drives. An adapter that brings its own
worker is handed the group instead. -/
def receivers (f : WorkerFactory ω ρ υ) (root : Composite ω ρ υ) (names : List String) :
    Wired ω ρ υ σ (List (String × Endpoint ρ)) := do
  let group ← Stateful.lift (f.select names)
  let bus ← Stateful.lift f.dispatcher
  let parts ← Stateful.lift (byConnection group)
  let served ← parts.mapM fun part => do return (← serving root part, part)
  let s : Selection ω ρ υ := { group, registered := f.registered names group, bus, served }
  match ← Stateful.lift s.consumer with
  | .provided _ build =>
    let _ ← Stateful.lift (build group bus)
    return []
  | .library => drained names s

/-- What a process builds, in any order and out of any factories. -/
inductive Call (ω ρ υ : Type)
  | asked (call : Sharing.Call ω ρ υ)
  /-- `MessageBusFactory(..).bus()`: of a configuration, over a `TransportFactory`. -/
  | bus (transports : Group) (defaultMiddleware : Bool) (root : Composite ω ρ υ)
  /-- `WorkerFactory(..).worker(names)`. -/
  | worker (factory : WorkerFactory ω ρ υ) (root : Composite ω ρ υ) (names : List String)
    (hroot : factory.factories = root.1)

/-- What a call gives under which name. -/
def Call.built : Call ω ρ υ → Wired ω ρ υ σ (List (String × Endpoint ρ))
  | .asked (.supports factory dsn) => do
    let _ ← seeking (Sharing.supports dsn factory)
    return []
  | .asked (.serving factory part) => do
    let _ ← seeking (Sharing.serving part factory)
    return []
  | .bus _ false _ => return []
  | .bus transports true root => do return (← senders transports root).entries
  | .worker factory root names _ => receivers factory root names

/-- The life of a process in which factories were made before, and nothing was built. -/
def life : Machine (State ω ρ υ σ) (Call ω ρ υ) where
  init s := ∃ objects, s = { found := { built := objects } }
  step s call := some (call.built s).2

end Objects

/-- Nothing that was found or made is dropped or replaced. -/
structure Later (s t : State ω ρ υ σ) : Prop where
  found : Sharing.Extends s.found t.found
  made : ∀ factory name id, (s.made factory).get? name = some id →
    (t.made factory).get? name = some id

theorem Later.refl (s : State ω ρ υ σ) : Later s s := ⟨.refl _, fun _ _ _ h => h⟩

theorem Later.trans {s t u : State ω ρ υ σ} (h : Later s t) (h' : Later t u) : Later s u :=
  ⟨h.found.trans h'.found, fun factory name id hm => h'.made factory name id (h.made _ _ _ hm)⟩

instance : IsPreorder (State ω ρ υ σ) Later where
  refl := Later.refl
  trans _ _ _ := Later.trans

/-- An `InMemoryTransport` stands behind one name of one factory. -/
structure Whole [Unicode] [Installed ω ρ υ] (s : State ω ρ υ σ) : Prop where
  sound : Sharing.Sound s.found
  bounded : ∀ factory name id, (s.made factory).get? name = some id → id < s.recorders.length
  apart : ∀ factory name factory' name' id, (s.made factory).get? name = some id →
    (s.made factory').get? name' = some id → factory = factory' ∧ name = name'

/-- What stands behind a name of a factory's. -/
def Stands [Recorders ω ρ υ σ] (s : State ω ρ υ σ) (factory : Adapter ω ρ υ) (name : String)
    (endpoint : Endpoint ρ) : Prop :=
  match Recorders.recorder factory with
  | some _ => ∃ id, endpoint = .recorder id ∧ (s.made factory.id).get? name = some id
  | none => endpoint = .other factory.id

section Building
variable [Unicode] [Installed ω ρ υ] [Recorders ω ρ υ σ]

omit [Unicode] [Installed ω ρ υ] in
theorem Stands.later {s t : State ω ρ υ σ} {factory : Adapter ω ρ υ} {name : String}
    {endpoint : Endpoint ρ} (h : Stands s factory name endpoint) (hl : Later s t) :
    Stands t factory name endpoint := by
  unfold Stands at h ⊢
  cases hr : Recorders.recorder factory with
  | none => simpa [hr] using h
  | some serializer =>
    simp only [hr] at h ⊢
    obtain ⟨id, he, hm⟩ := h
    exact ⟨id, he, hl.made _ _ _ hm⟩

omit [Unicode] [Installed ω ρ υ] in
theorem Stands.unique {s : State ω ρ υ σ} {factory : Adapter ω ρ υ} {name : String}
    {endpoint endpoint' : Endpoint ρ} (h : Stands s factory name endpoint)
    (h' : Stands s factory name endpoint') : endpoint.Matches endpoint' := by
  unfold Stands at h h'
  cases hr : Recorders.recorder factory with
  | none =>
    simp only [hr] at h h'
    rw [h, h']
    exact rfl
  | some serializer =>
    simp only [hr] at h h'
    obtain ⟨id, rfl, hm⟩ := h
    obtain ⟨id', rfl, hm'⟩ := h'
    exact Option.some.inj (hm.symm.trans hm')

omit [Recorders ω ρ υ σ] in
theorem seeking_grows {α : Type} {x : Sharing.Seeking ω ρ υ α}
    {Q : Except (Exc ω) α → Sharing.Discoveries ω ρ υ → Prop} (h : Sharing.Asks x Q) :
    Stateful.Grows Whole Later (seeking x : Wired ω ρ υ σ α) fun a s => Q (.ok a) s.found := by
  intro s hs
  obtain ⟨hsound, hextends, hanswer⟩ := h s.found hs.sound
  refine ⟨⟨hsound, hs.bounded, hs.apart⟩, ⟨hextends, fun _ _ _ hm => hm⟩, fun a ha => ?_⟩
  change Q (.ok a) (x s.found).2
  rw [← ha]
  exact hanswer

omit [Unicode] [Installed ω ρ υ] [Recorders ω ρ υ σ] in
theorem get?_keep (s : State ω ρ υ σ) (factory factory' : Nat) (name name' : String)
    (serializer : Option σ) : ((s.keep factory name serializer).made factory').get? name' =
      if factory' = factory ∧ name' = name then some s.recorders.length
      else (s.made factory').get? name' := by
  unfold State.keep
  rcases eq_or_ne factory' factory with rfl | hne
  · simp [Dict.get?_set]
  · simp [hne]

omit [Recorders ω ρ υ σ] in
/-- A transport is built under a name, and nowhere else. -/
theorem Whole.keep {s : State ω ρ υ σ} (h : Whole s) {factory : Nat} {name : String}
    (hnew : (s.made factory).get? name = none) (serializer : Option σ) :
    Whole (s.keep factory name serializer) ∧ Later s (s.keep factory name serializer) := by
  refine ⟨⟨h.sound, fun k n id hm => ?_, fun k n k' n' id hm hm' => ?_⟩, .refl _,
    fun k n id hm => ?_⟩
  · have hlength : (s.keep factory name serializer).recorders.length = s.recorders.length + 1 := by
      simp [State.keep]
    rw [get?_keep] at hm
    rw [hlength]
    split_ifs at hm with hk
    · obtain rfl := Option.some.inj hm
      omega
    · exact Nat.lt_succ_of_lt (h.bounded k n id hm)
  · rw [get?_keep] at hm hm'
    split_ifs at hm hm' with hk hk' hk'
    · exact ⟨hk.1.trans hk'.1.symm, hk.2.trans hk'.2.symm⟩
    · obtain rfl := Option.some.inj hm
      exact absurd (h.bounded k' n' _ hm') (Nat.lt_irrefl _)
    · obtain rfl := Option.some.inj hm'
      exact absurd (h.bounded k n _ hm) (Nat.lt_irrefl _)
    · exact h.apart k n k' n' id hm hm'
  · rw [get?_keep, if_neg]
    · exact hm
    · rintro ⟨rfl, rfl⟩
      cases hnew.symm.trans hm

omit [Recorders ω ρ υ σ] in
theorem transport_grows (factory : Nat) (serializer : Option σ) (name : String)
    (config : TransportConfig) : Stateful.Grows Whole Later
      (transport factory serializer name config : Wired ω ρ υ σ Nat)
      fun id s => (s.made factory).get? name = some id := by
  intro s hs
  unfold transport
  rw [Stateful.get_bind_apply]
  cases hknown : (s.made factory).get? name with
  | some made =>
    refine ⟨hs, .refl s, fun a ha => ?_⟩
    obtain rfl := Except.ok.inj ha
    exact hknown
  | none =>
    dsimp only
    cases hser : (InMemory.serializerFor serializer config : Except (Exc ω) (Option σ)) with
    | error e =>
      have hr : (Stateful.lift (.error e) : Wired ω ρ υ σ (Option σ)) s = (.error e, s) := rfl
      rw [Stateful.bind_of_error _ hr]
      exact ⟨hs, .refl s, by simp⟩
    | ok built =>
      have hr : (Stateful.lift (.ok built) : Wired ω ρ υ σ (Option σ)) s = (.ok built, s) := rfl
      rw [Stateful.bind_of_ok _ hr, Stateful.get_bind_apply, Stateful.modify_bind_apply]
      obtain ⟨hwhole, hlater⟩ := hs.keep hknown built
      refine ⟨hwhole, hlater, fun a ha => ?_⟩
      obtain rfl := Except.ok.inj ha
      rw [Stateful.pure_apply, get?_keep, if_pos ⟨rfl, rfl⟩]

/-- What a factory creates, it creates for the group's names; it stands there for good. -/
theorem createBy_grows (check : Dict String (Option ρ) → Except (Exc ω) Unit)
    (factory : Adapter ω ρ υ) (part : Part) : Stateful.Grows Whole Later
      (createBy check factory part : Wired ω ρ υ σ _) fun built s =>
        built.map Prod.fst = part.members.map Prod.fst ∧
          ∀ entry ∈ built, Stands s factory entry.1 entry.2 := by
  unfold createBy
  cases hr : Recorders.recorder factory with
  | none =>
    refine Stateful.Grows.bind_lift fun _ _ => ?_
    refine Stateful.grows_pure fun s => ⟨by simp [Function.comp_def], ?_⟩
    intro entry hentry
    obtain ⟨member, -, rfl⟩ := List.mem_map.mp hentry
    simp [Stands, hr]
  | some serializer =>
    have hone : ∀ entry : String × TransportConfig, Stateful.Grows Whole Later
        (do return (entry.1, .recorder (← transport factory.id serializer entry.1 entry.2)) :
          Wired ω ρ υ σ (String × Endpoint ρ))
        fun built s => built.1 = entry.1 ∧ Stands s factory built.1 built.2 := by
      intro entry
      refine (transport_grows factory.id serializer entry.1 entry.2).bind_pure
        fun id s hid => ⟨rfl, ?_⟩
      simp only [Stands, hr]
      exact ⟨id, rfl, hid⟩
    refine (Stateful.Grows.mapM (fun c a s t h hl => ?_) fun entry _ => hone entry).mono
      fun built s h => ⟨?_, fun entry hentry => ?_⟩
    · exact ⟨h.1, h.2.later hl⟩
    · rw [← List.forall₂_eq_eq_eq, List.forall₂_map_left_iff, List.forall₂_map_right_iff]
      exact h.flip.imp fun _ _ hx => hx.1
    · obtain ⟨member, -, hstands⟩ := exists_of_mem_right h hentry
      exact hstands.2

end Building

/-- Whatever distributions advertise is an adapter. -/
def AdaptersOnly (ω ρ υ : Type) [Installed ω ρ υ] : Prop :=
  ∀ scheme, ∀ entry ∈ (Installed.entryPoints scheme : List (EntryPoint (Factory ω ρ υ))),
    ∀ serializer made, entry.made serializer = some made →
      Sharing.isTransportFactory made = false

/-- Every factory that was given tells by its scheme whether it recognises a DSN. -/
def Uniform (l : List (Sharing.Leaf ω ρ υ)) : Prop :=
  ∀ factory, Sharing.Leaf.given factory ∈ l → ∀ dsn dsn' : Dsn, dsn.scheme = dsn'.scheme →
    factory.supports dsn = factory.supports dsn'

/-- The object that serves a transport's own DSN. -/
def Serves [Unicode] [Installed ω ρ υ] (s : State ω ρ υ σ) (l : List (Sharing.Leaf ω ρ υ))
    (config : TransportConfig) (factory : Adapter ω ρ υ) : Prop :=
  ∃ dsn leaf, parse config.dsn = .ok dsn ∧
    (Sharing.seek dsn l : Except (Exc ω) _) = .ok (some leaf) ∧
    leaf.object s.found dsn.scheme = some (.adapter factory)

/-- What stands behind a name is a factory's; of one that serves the transport, if DSNs are told
apart by their schemes. -/
def Provided [Unicode] [Installed ω ρ υ] [Recorders ω ρ υ σ] (s : State ω ρ υ σ)
    (l : List (Sharing.Leaf ω ρ υ)) (entry : String × TransportConfig) (endpoint : Endpoint ρ) :
    Prop :=
  ∃ factory, (Uniform l → Serves s l entry.2 factory) ∧ Stands s factory entry.1 endpoint

/-- What is created of a part has the names of the part. -/
structure Created [Unicode] [Installed ω ρ υ] [Recorders ω ρ υ σ] (s : State ω ρ υ σ)
    (l : List (Sharing.Leaf ω ρ υ)) (part : Part) (built : List (String × Endpoint ρ)) : Prop where
  names : built.map Prod.fst = part.members.map Prod.fst
  provided : ∀ x ∈ built, ∃ entry ∈ part.members, entry.1 = x.1 ∧ Provided s l entry x.2

section Serving
variable [Unicode] [Installed ω ρ υ] {l : List (Sharing.Leaf ω ρ υ)} {s t : State ω ρ υ σ}
  {config : TransportConfig} {factory factory' : Adapter ω ρ υ}

theorem Serves.later (h : Serves s l config factory) (hl : Later s t) :
    Serves t l config factory := by
  obtain ⟨dsn, leaf, hdsn, hseek, hobject⟩ := h
  exact ⟨dsn, leaf, hdsn, hseek, hl.found.object hobject⟩

theorem Serves.unique (h : Serves s l config factory) (h' : Serves s l config factory') :
    factory = factory' := by
  obtain ⟨dsn, leaf, hdsn, hseek, hobject⟩ := h
  obtain ⟨dsn', leaf', hdsn', hseek', hobject'⟩ := h'
  obtain rfl := Except.ok.inj (hdsn.symm.trans hdsn')
  obtain rfl := Option.some.inj (Except.ok.inj (hseek.symm.trans hseek'))
  exact Factory.adapter.inj (Option.some.inj (hobject.symm.trans hobject'))

/-- An adapter stands at each leaf. -/
theorem adapter_at_leaf (ho : AdaptersOnly ω ρ υ) {found : Sharing.Discoveries ω ρ υ}
    (h : Sharing.Sound found) {leaf : Sharing.Leaf ω ρ υ} {scheme : List Char}
    {served : Factory ω ρ υ} (ha : leaf.object found scheme = some served) :
    ∃ a, served = .adapter a := by
  cases leaf with
  | given a => exact ⟨a, (Option.some.inj ha).symm⟩
  | found t =>
    obtain ⟨made, hmade, halike⟩ := h t scheme served ha ⟨[], scheme, []⟩ rfl
    obtain ⟨entry, hm, given, hbuilt⟩ := made_of_firstBuilt hmade
    have hleaf := halike.isTransportFactory.trans (ho scheme entry hm given made hbuilt)
    cases served with
    | adapter a => exact ⟨a, rfl⟩
    | delegating id factories => cases hleaf
    | discovering t => cases hleaf

theorem asked_congr (hs : SchemeOnly ω ρ υ) (hu : Uniform l) {leaf : Sharing.Leaf ω ρ υ}
    (hleaf : leaf ∈ l) {dsn dsn' : Dsn} (h : dsn.scheme = dsn'.scheme) :
    leaf.asked dsn = (leaf.asked dsn' : Except (Exc ω) Bool) := by
  cases leaf with
  | given factory => exact congrArg Except.ok (hu factory hleaf dsn dsn' h)
  | found t => rw [Sharing.asked_found, Sharing.asked_found, factoryFor_congr hs t h]

theorem seek_congr (hs : SchemeOnly ω ρ υ) (hu : Uniform l) {dsn dsn' : Dsn}
    (h : dsn.scheme = dsn'.scheme) :
    (Sharing.seek dsn l : Except (Exc ω) _) = Sharing.seek dsn' l := by
  induction l with
  | nil => rfl
  | cons leaf l ih =>
    have hrest := ih fun factory hfactory => hu factory (List.mem_cons_of_mem _ hfactory)
    rw [Sharing.seek, Sharing.seek, asked_congr hs hu List.mem_cons_self h, hrest]

/-- What serves a part is an adapter, and serves each of its transports. -/
theorem serving_grows (hs : SchemeOnly ω ρ υ) (ho : AdaptersOnly ω ρ υ)
    (hlower : Unicode.LowersAscii) (root : Composite ω ρ υ) {group : Group} {parts : List Part}
    (hparts : (byConnection group : Except (Exc ω) (List Part)) = .ok parts)
    {part : Part} (hp : part ∈ parts) : Stateful.Grows Whole Later
      (serving root part : Wired ω ρ υ σ (Factory ω ρ υ)) fun served s =>
        ∃ factory, served = .adapter factory ∧ (Uniform (Sharing.leaves root.1) →
          ∀ entry ∈ part.members, Serves s (Sharing.leaves root.1) entry.2 factory) := by
  obtain ⟨_, hread, -⟩ := parts_by_connection hparts
  have hfirst := mem_of_first hparts hp
  obtain ⟨dsn, hdsn⟩ := hread part.1 hfirst
  have hparsed : (Factory.parsed part.1.2 : Except (Exc ω) Dsn) = .ok dsn :=
    mapError_eq_ok_iff.mpr hdsn
  intro s hs'
  obtain ⟨hw, hl, hreturned⟩ :=
    seeking_grows (Sharing.serving_asks hs hparsed root.1 root.2) s hs'
  refine ⟨hw, hl, fun served hserved => ?_⟩
  have hanswer := hreturned served hserved
  generalize hseek : (Sharing.seek dsn (Sharing.leaves root.1) : Except (Exc ω) _) = sought
    at hanswer
  cases hanswer with
  | @some leaf _ _ _ hobject =>
    obtain ⟨factory, rfl⟩ := adapter_at_leaf ho hw.sound hobject
    refine ⟨factory, rfl, fun hu entry hentry => ?_⟩
    -- the others of the part have the connection of the first, so its scheme
    obtain ⟨dsn', hdsn'⟩ := hread entry ((mem_parts hparts).mpr ⟨part, hp, hentry⟩)
    have hconnection : dsn.connection = dsn'.connection :=
      (together_iff hparts hfirst ((mem_parts hparts).mpr ⟨part, hp, hentry⟩) hdsn hdsn').mp
        ⟨part, hp, List.mem_cons_self, hentry⟩
    have hscheme : dsn.scheme = dsn'.scheme := by
      rw [scheme_of_parse hlower hdsn, scheme_of_parse hlower hdsn']
      exact ((connection_eq_iff hlower hdsn hdsn').mp hconnection).1
    exact ⟨dsn', leaf, hdsn', (seek_congr hs hu hscheme).symm.trans hseek, hscheme ▸ hobject⟩

end Serving

section Creating
variable [Unicode] [Installed ω ρ υ] [Recorders ω ρ υ σ] {l : List (Sharing.Leaf ω ρ υ)}
  {s t : State ω ρ υ σ}

theorem Provided.later {entry : String × TransportConfig} {endpoint : Endpoint ρ}
    (h : Provided s l entry endpoint) (hl : Later s t) : Provided t l entry endpoint := by
  obtain ⟨factory, hserves, hstands⟩ := h
  exact ⟨factory, fun hu => (hserves hu).later hl, hstands.later hl⟩

theorem Provided.unique (hu : Uniform l) {entry : String × TransportConfig}
    {endpoint endpoint' : Endpoint ρ} (h : Provided s l entry endpoint)
    (h' : Provided s l entry endpoint') : endpoint.Matches endpoint' := by
  obtain ⟨factory, hserves, hstands⟩ := h
  obtain ⟨factory', hserves', hstands'⟩ := h'
  obtain rfl := (hserves hu).unique (hserves' hu)
  exact hstands.unique hstands'

theorem Provided.made {entry : String × TransportConfig} {id : Nat}
    (h : Provided s l entry (.recorder id)) :
    ∃ factory, (s.made factory).get? entry.1 = some id := by
  obtain ⟨factory, _, hstands⟩ := h
  unfold Stands at hstands
  cases hr : Recorders.recorder factory with
  | none =>
    simp only [hr] at hstands
    cases hstands
  | some serializer =>
    simp only [hr] at hstands
    obtain ⟨id', hid, hmade⟩ := hstands
    obtain rfl := Endpoint.recorder.inj hid
    exact ⟨factory.id, hmade⟩

theorem Created.later {part : Part} {built : List (String × Endpoint ρ)}
    (h : Created s l part built) (hl : Later s t) : Created t l part built := by
  refine ⟨h.names, fun x hx => ?_⟩
  obtain ⟨entry, hentry, hname, hprovided⟩ := h.provided x hx
  exact ⟨entry, hentry, hname, hprovided.later hl⟩

/-- Whenever after it was found, what serves a part creates its transports. -/
theorem created (check : Dict String (Option ρ) → Except (Exc ω) Unit) (n : Nat)
    {factory : Adapter ω ρ υ} {part : Part}
    (hserves : Uniform l → ∀ entry ∈ part.members, Serves s l entry.2 factory) :
    Stateful.Grows (fun t => Whole t ∧ Later s t) Later
      (create check n (.adapter factory) part : Wired ω ρ υ σ _)
      fun built t => Created t l part built := by
  have hadapter : (create check n (.adapter factory) part : Wired ω ρ υ σ _) =
      createBy check factory part := by cases n <;> rfl
  rw [hadapter]
  intro t ht
  obtain ⟨hw, hl⟩ := ht
  obtain ⟨hw', hl', hbuilt⟩ := createBy_grows check factory part t hw
  refine ⟨⟨hw', hl.trans hl'⟩, hl', fun built hb => ?_⟩
  obtain ⟨hnames, hstands⟩ := hbuilt built hb
  refine ⟨hnames, fun x hx => ?_⟩
  have hx' : x.1 ∈ part.members.map Prod.fst := hnames ▸ List.mem_map_of_mem hx
  obtain ⟨entry, hentry, hname⟩ := List.mem_map.mp hx'
  refine ⟨entry, hentry, hname, factory, fun hu => ?_, hname ▸ hstands x hx⟩
  exact (hserves hu entry hentry).later (hl.trans hl')

/-- The parts of a group are built into the transports of the group. -/
theorem provided_of_created {group : Group} {parts : List Part}
    (hparts : (byConnection group : Except (Exc ω) (List Part)) = .ok parts)
    {built : List (List (String × Endpoint ρ))} (h : List.Forall₂ (Created s l) parts built) :
    (∀ x ∈ built.flatten, ∃ config, group.get? x.1 = some config ∧
      Provided s l (x.1, config) x.2) ∧ ∀ n ∈ group.keys, n ∈ built.flatten.map Prod.fst := by
  constructor
  · intro x hx
    obtain ⟨some, hsome, hx⟩ := List.mem_flatten.mp hx
    obtain ⟨part, hp, hcreated⟩ := exists_of_mem_right h hsome
    obtain ⟨entry, hentry, hname, hprovided⟩ := hcreated.provided x hx
    have hmem : entry ∈ group.entries := (mem_parts hparts).mpr ⟨part, hp, hentry⟩
    rw [← hname]
    exact ⟨entry.2, group.get?_eq_some_iff.mpr hmem, hprovided⟩
  · intro n hn
    obtain ⟨entry, hentry, rfl⟩ := List.mem_map.mp hn
    obtain ⟨part, hp, hmem⟩ := (mem_parts hparts).mp hentry
    obtain ⟨some, hsome, hcreated⟩ := exists_of_mem_right h.flip hp
    have hname : entry.1 ∈ some.map Prod.fst := by
      rw [hcreated.names]
      exact List.mem_map_of_mem hmem
    obtain ⟨x, hx, hxn⟩ := List.mem_map.mp hname
    exact List.mem_map.mpr ⟨x, List.mem_flatten.mpr ⟨some, hsome, hx⟩, hxn⟩

/-- A bus has a sender for each transport of its configuration, and no other. -/
theorem senders_grows (hs : SchemeOnly ω ρ υ) (ho : AdaptersOnly ω ρ υ)
    (hlower : Unicode.LowersAscii) (transports : Group) (root : Composite ω ρ υ) :
    Stateful.Grows Whole Later
      (senders transports root : Wired ω ρ υ σ _) fun built s =>
        (∀ x ∈ built.entries, ∃ config, transports.get? x.1 = some config ∧
          Provided s (Sharing.leaves root.1) (x.1, config) x.2) ∧
        ∀ n ∈ transports.keys, n ∈ built.keys := by
  unfold senders
  refine Stateful.Grows.bind_lift fun parts hparts => ?_
  have hone : ∀ part ∈ parts, Stateful.Grows Whole Later
      (do create (fun _ => .ok ()) (Installed.depth ω ρ υ) (← serving root part) part :
        Wired ω ρ υ σ _) fun built s => Created s (Sharing.leaves root.1) part built := by
    intro part hp
    refine (serving_grows hs ho hlower root hparts hp).bind_later fun served s hserved => ?_
    obtain ⟨factory, rfl, hserves⟩ := hserved
    exact created _ _ hserves
  refine (Stateful.Grows.mapM (fun _ _ _ _ h => h.later) hone).bind_pure fun built s hbuilt => ?_
  obtain ⟨hprovided, hnames⟩ := provided_of_created hparts hbuilt
  constructor
  · intro x hx
    rcases Dict.get?_update_cases _ ((Dict.get?_eq_some_iff _).mpr hx) with hmem | hmem
    · exact hprovided x hmem
    · cases hmem
  · intro n hn
    exact (Dict.mem_keys_update _ _).mpr (.inr (hnames n hn))

end Creating

/-- What is given under names: what serves the transports of a configuration, or what is registered
under names that it does not have. -/
def Given [Unicode] [Installed ω ρ υ] [Recorders ω ρ υ σ] (s : State ω ρ υ σ) (transports : Group)
    (l : List (Sharing.Leaf ω ρ υ)) (given : List (String × Endpoint ρ)) : Prop :=
  ∀ x ∈ given,
    (∃ config, transports.get? x.1 = some config ∧ Provided s l (x.1, config) x.2) ∨
      x.1 ∉ transports.keys ∧ ∃ receiver, x.2 = .registered receiver

section Giving
variable [Unicode] [Installed ω ρ υ] [Recorders ω ρ υ σ] {l : List (Sharing.Leaf ω ρ υ)}
  {s t : State ω ρ υ σ}

omit [Unicode] [Installed ω ρ υ] [Recorders ω ρ υ σ] in
/-- What a selection has, it has as it is configured. -/
theorem get?_of_selected {f : WorkerFactory ω ρ υ} {names : List String} {group : Group}
    (h : f.select names = (.ok group : Except (Exc ω) Group)) {n : String}
    {config : TransportConfig} (hconfig : group.get? n = some config) :
    f.transports.get? n = some config := by
  unfold WorkerFactory.select at h
  dsimp only at h
  split_ifs at h
  obtain rfl := Except.ok.inj h
  rcases Dict.get?_update_cases _ hconfig with hmem | hmem
  · obtain ⟨name, _, hname⟩ := List.mem_filterMap.mp hmem
    obtain ⟨config', hconfig', hpair⟩ := Option.map_eq_some_iff.mp hname
    obtain ⟨rfl, rfl⟩ := Prod.mk.inj hpair
    exact hconfig'
  · cases hmem

theorem Given.provided {transports : Group}
    {given : List (String × Endpoint ρ)} (h : Given s transports l given) {n : String}
    {endpoint : Endpoint ρ} (hmem : (n, endpoint) ∈ given) (hn : n ∈ transports.keys) :
    ∃ config, transports.get? n = some config ∧ Provided s l (n, config) endpoint := by
  rcases h (n, endpoint) hmem with hprovided | hregistered
  · exact hprovided
  · exact absurd hn hregistered.1

theorem Given.made {transports : Group} {given : List (String × Endpoint ρ)}
    (h : Given s transports l given) {n : String} {id : Nat} (hmem : (n, .recorder id) ∈ given) :
    ∃ factory, (s.made factory).get? n = some id := by
  rcases h (n, .recorder id) hmem with hprovided | hregistered
  · obtain ⟨config, _, hprovided⟩ := hprovided
    exact hprovided.made
  · obtain ⟨_, receiver, hreceiver⟩ := hregistered
    cases hreceiver

/-- A worker drains what serves the transports it was named, and what is registered. -/
theorem drained_grows {f : WorkerFactory ω ρ υ} {names : List String} {group : Group}
    (hselect : f.select names = (.ok group : Except (Exc ω) Group)) {parts : List Part}
    (hparts : (byConnection group : Except (Exc ω) (List Part)) = .ok parts) {bus : Bus ω}
    {served : List (Factory ω ρ υ × Part)}
    (hserved : List.Forall₂ (fun part x => x.2 = part ∧ ∃ factory, x.1 = .adapter factory ∧
      (Uniform l → ∀ entry ∈ part.members, Serves s l entry.2 factory)) parts served) :
    Stateful.Grows (fun t => Whole t ∧ Later s t) Later
      (drained names { group, registered := f.registered names group, bus, served } :
        Wired ω ρ υ σ _) fun given t => Given t f.transports l given := by
  have hcreate : ∀ x ∈ served, Stateful.Grows (fun t => Whole t ∧ Later s t) Later
      (create (fun built => (receiversOf built).map fun _ => ()) (Installed.depth ω ρ υ) x.1 x.2 :
        Wired ω ρ υ σ _) fun built t => Created t l x.2 built := by
    intro x hx
    obtain ⟨part, _, rfl, factory, hfactory, hserves⟩ := exists_of_mem_right hserved hx
    rw [hfactory]
    exact created _ _ hserves
  refine (Stateful.Grows.mapM (fun _ _ _ _ h => h.later) hcreate).bind_pure
    fun built t hbuilt => ?_
  have hcreated : List.Forall₂ (Created t l) parts built := by
    have hparted : served.map Prod.snd = parts := by
      rw [← List.forall₂_eq_eq_eq, List.forall₂_map_left_iff]
      exact hserved.flip.imp fun _ _ h => h.1
    rw [← hparted, List.forall₂_map_left_iff]
    exact hbuilt
  intro x hx
  obtain ⟨n, hn, hfound⟩ := List.mem_filterMap.mp hx
  obtain ⟨endpoint, hendpoint, rfl⟩ := Option.map_eq_some_iff.mp hfound
  rcases Dict.get?_update_cases _ hendpoint with hmem | hmem
  · -- a registered receiver is consulted for names without a transport
    right
    obtain ⟨entry, hentry, hpair⟩ := List.mem_map.mp hmem
    obtain ⟨rfl, rfl⟩ := Prod.mk.inj hpair
    have hregistered : entry.1 ∈ (f.registered names group).keys := List.mem_map_of_mem hentry
    obtain ⟨⟨hnamed, hnot⟩, _⟩ := WorkerFactory.mem_keys_registered.mp hregistered
    refine ⟨fun htransport => hnot ?_, entry.2, rfl⟩
    exact ((WorkerFactory.select_eq_ok hselect).2 entry.1).mpr ⟨hnamed, htransport⟩
  · left
    rcases Dict.get?_update_cases _ hmem with hmade | hmade
    · obtain ⟨config, hconfig, hprovided⟩ := (provided_of_created hparts hcreated).1 _ hmade
      exact ⟨config, get?_of_selected hselect hconfig, hprovided⟩
    · cases hmade

theorem receivers_grows (hs : SchemeOnly ω ρ υ) (ho : AdaptersOnly ω ρ υ)
    (hlower : Unicode.LowersAscii) (f : WorkerFactory ω ρ υ) (root : Composite ω ρ υ)
    (names : List String) :
    Stateful.Grows Whole Later (receivers f root names : Wired ω ρ υ σ _) fun given s =>
      Given s f.transports (Sharing.leaves root.1) given := by
  unfold receivers
  refine Stateful.Grows.bind_lift fun group hgroup => ?_
  refine Stateful.Grows.bind_lift fun bus _ => ?_
  refine Stateful.Grows.bind_lift fun parts hparts => ?_
  have hserve : ∀ part ∈ parts, Stateful.Grows Whole Later
      (do return (← serving root part, part) : Wired ω ρ υ σ (Factory ω ρ υ × Part))
      fun x s => x.2 = part ∧ ∃ factory, x.1 = .adapter factory ∧
        (Uniform (Sharing.leaves root.1) →
          ∀ entry ∈ part.members, Serves s (Sharing.leaves root.1) entry.2 factory) := by
    intro part hp
    exact (serving_grows hs ho hlower root hparts hp).bind_pure fun factory s hserves =>
      ⟨rfl, hserves⟩
  refine (Stateful.Grows.mapM (fun _ _ _ _ h hl => ?_) hserve).bind_later
    fun served s hserved => ?_
  · obtain ⟨hpart, factory, hfactory, hserves⟩ := h
    exact ⟨hpart, factory, hfactory, fun hu entry hentry => (hserves hu entry hentry).later hl⟩
  refine Stateful.Grows.bind_lift fun consumer _ => ?_
  cases consumer with
  | provided factory build =>
    refine Stateful.Grows.bind_lift fun worker _ => ?_
    refine Stateful.grows_pure fun s x hx => ?_
    cases hx
  | library => exact drained_grows hgroup hparts hserved

end Giving

/-- The configuration a call builds of. -/
def Call.transports : Call ω ρ υ → Group
  | .asked _ => .empty
  | .bus transports _ _ => transports
  | .worker factory _ _ _ => factory.transports

/-- The leaves it builds over. -/
def Call.leaves : Call ω ρ υ → List (Sharing.Leaf ω ρ υ)
  | .asked _ => []
  | .bus _ _ root => Sharing.leaves root.1
  | .worker _ root _ _ => Sharing.leaves root.1

/-- A composite around another is seen through. -/
theorem leaves_around (id : Nat) (root : Composite ω ρ υ) :
    Sharing.leaves (Composite.around id root).1 = Sharing.leaves root.1 := by
  simp [Composite.around, Sharing.leaves, Sharing.leavesAmong]

section Life
variable [Unicode] [Installed ω ρ υ] [Recorders ω ρ υ σ] {s t u v : State ω ρ υ σ}

/-- Asking composites builds nothing. -/
theorem asked_grows {α : Type} {x : Sharing.Seeking ω ρ υ α} (hx : ∀ s, Sharing.Sound s →
    Sharing.Sound (x s).2 ∧ Sharing.Extends s (x s).2) : Stateful.Grows Whole Later
      (do let _ ← seeking x; return [] : Wired ω ρ υ σ (List (String × Endpoint ρ)))
      fun given s => Given s .empty [] given := by
  have hasks : Sharing.Asks x fun _ _ => True := by
    intro s h
    obtain ⟨hsound, hextends⟩ := hx s h
    exact ⟨hsound, hextends, trivial⟩
  refine (seeking_grows hasks).bind_later fun _ _ _ => ?_
  refine Stateful.grows_pure fun s entry hentry => ?_
  cases hentry

/-- Whatever is called, nothing that was built is built again or dropped. -/
theorem built_grows (hs : SchemeOnly ω ρ υ) (ho : AdaptersOnly ω ρ υ)
    (hlower : Unicode.LowersAscii) (call : Call ω ρ υ) :
    Stateful.Grows Whole Later (call.built : Wired ω ρ υ σ _) fun given s =>
      Given s call.transports call.leaves given := by
  cases call with
  | asked asked =>
    cases asked with
    | supports factory dsn =>
      exact asked_grows fun s h => Sharing.step_sound hs (.supports factory dsn) h rfl
    | serving factory part =>
      exact asked_grows fun s h => Sharing.step_sound hs (.serving factory part) h rfl
  | bus transports defaultMiddleware root =>
    cases defaultMiddleware with
    | false =>
      refine Stateful.grows_pure fun s x hx => ?_
      cases hx
    | true =>
      exact (senders_grows hs ho hlower transports root).bind_pure fun built s hbuilt x hx =>
        .inl (hbuilt.1 x hx)
  | worker factory root names hroot => exact receivers_grows hs ho hlower factory root names

theorem reachable_whole (hs : SchemeOnly ω ρ υ) (ho : AdaptersOnly ω ρ υ)
    (hlower : Unicode.LowersAscii)
    (h : life.Reachable s) : Whole s := by
  refine h.invariant ?_ fun s call t _ hi _ hstep => ?_
  · rintro s ⟨factories, rfl⟩
    refine ⟨fun t scheme a ha => ?_, fun _ _ _ hm => ?_, fun _ _ _ _ _ hm => ?_⟩
    · simp [undiscovered, Dict.get?, Dict.empty] at ha
    · cases hm
    · cases hm
  · obtain rfl := Option.some.inj hstep
    exact (built_grows hs ho hlower call s hi).1

theorem run_later (hs : SchemeOnly ω ρ υ) (ho : AdaptersOnly ω ρ υ) (hlower : Unicode.LowersAscii)
    (calls : List (Call ω ρ υ)) (h : Whole s) (hrun : life.run s calls = some t) :
    Whole t ∧ Later s t := by
  induction calls generalizing s with
  | nil =>
    obtain rfl := Option.some.inj hrun
    exact ⟨h, .refl s⟩
  | cons call calls ih =>
    obtain ⟨u, hstep, hrest⟩ := Option.bind_eq_some_iff.mp hrun
    obtain rfl := Option.some.inj hstep
    obtain ⟨hwhole, hlater, _⟩ := built_grows hs ho hlower call s h
    obtain ⟨hwhole', hlater'⟩ := ih hwhole hrest
    exact ⟨hwhole', hlater.trans hlater'⟩

/-- A bus with the default middleware has a sender for each configured transport and no other.
Whatever was built before and between, over the same factories of one configuration a later call
gives each configured name the recorder it had, or what the same other factory builds, and one
recorder never stands behind two names, of any configurations. -/
theorem wires (hs : SchemeOnly ω ρ υ) (ho : AdaptersOnly ω ρ υ) (hlower : Unicode.LowersAscii)
    (h : life.Reachable s) (call : Call ω ρ υ) {given : List (String × Endpoint ρ)}
    (hgiven : call.built s = (.ok given, t)) (calls : List (Call ω ρ υ))
    (hrun : life.run t calls = some u) (call' : Call ω ρ υ) {given' : List (String × Endpoint ρ)}
    (hgiven' : call'.built u = (.ok given', v)) :
    (∀ transports root, call = .bus transports true root →
      ∀ n, n ∈ given.map Prod.fst ↔ n ∈ transports.keys) ∧
    (call.transports = call'.transports → call.leaves = call'.leaves → Uniform call.leaves →
      ∀ n ∈ call.transports.keys, ∀ endpoint endpoint', (n, endpoint) ∈ given →
        (n, endpoint') ∈ given' → endpoint.Matches endpoint') ∧
    ∀ n n' id, (n, .recorder id) ∈ given ++ given' → (n', .recorder id) ∈ given ++ given' →
      n = n' := by
  obtain ⟨hwhole, _, hreturned⟩ := built_grows hs ho hlower call s (reachable_whole hs ho hlower h)
  rw [hgiven] at hwhole hreturned
  obtain ⟨hwhole', hlater⟩ := run_later hs ho hlower calls hwhole hrun
  obtain ⟨hwhole'', hlater', hreturned'⟩ := built_grows hs ho hlower call' u hwhole'
  rw [hgiven'] at hwhole'' hlater' hreturned'
  have hlast := hlater.trans hlater'
  have hfirst := hreturned given rfl
  have hsecond := hreturned' given' rfl
  refine ⟨?_, fun htransports hleaves hu n hn endpoint endpoint' hmem hmem' => ?_,
    fun n n' id hmem hmem' => ?_⟩
  · rintro transports root rfl n
    obtain ⟨built, r, hbuilt, hreturn⟩ := Stateful.bind_eq_ok_iff.mp hgiven
    obtain ⟨rfl, rfl⟩ : given = built.entries ∧ t = r := by simpa [eq_comm] using hreturn
    have hwhole := reachable_whole hs ho hlower h
    have hsenders := (senders_grows hs ho hlower transports root s hwhole).2.2
    rw [hbuilt] at hsenders
    obtain ⟨hprovided, hnames⟩ := hsenders built rfl
    refine ⟨fun hn => ?_, hnames n⟩
    obtain ⟨x, hx, rfl⟩ := List.mem_map.mp hn
    obtain ⟨config, hconfig, _⟩ := hprovided x hx
    exact transports.mem_keys_of_get? hconfig
  · obtain ⟨config, hconfig, hprovided⟩ := hfirst.provided hmem hn
    obtain ⟨config', hconfig', hprovided'⟩ := hsecond.provided hmem' (htransports ▸ hn)
    rw [← htransports, hconfig] at hconfig'
    obtain rfl := Option.some.inj hconfig'
    rw [← hleaves] at hprovided'
    exact (hprovided.later hlast).unique hu hprovided'
  · have hmade : ∀ {n}, (n, .recorder id) ∈ given ++ given' →
        ∃ factory, (v.made factory).get? n = some id := by
      intro n hn
      rcases List.mem_append.mp hn with hn | hn
      · obtain ⟨factory, hfactory⟩ := hfirst.made hn
        exact ⟨factory, hlast.made _ _ _ hfactory⟩
      · exact hsecond.made hn
    obtain ⟨factory, hfactory⟩ := hmade hmem
    obtain ⟨factory', hfactory'⟩ := hmade hmem'
    exact (hwhole''.apart _ _ _ _ id hfactory hfactory').2

end Life

section Samples

/-- A recorder, for the scheme `m`. -/
def recording : Adapter Int Unit Unit where
  id := 0
  supports dsn := dsn.scheme = ['m']
  create _ := .ok .empty
  worker := none

/-- One distribution advertises it. -/
local instance installedRecording : Installed Int Unit Unit where
  entryPoints scheme :=
    if scheme = ['m'] then [⟨['m'], true, .no, fun _ => some (.adapter recording)⟩] else []
  depth := 8

/-- It has no serializer. -/
local instance recordersWithout : Recorders Int Unit Unit Unit := ⟨fun _ => some none⟩

attribute [local instance] Unicode.ascii

theorem recording_of_installed {scheme : List Char} {entry : EntryPoint (Factory Int Unit Unit)}
    (hm : entry ∈ Installed.entryPoints scheme) {given : Option Nat}
    {made : Factory Int Unit Unit} (h : entry.made given = some made) :
    made = .adapter recording := by
  change entry ∈ if scheme = ['m'] then _ else _ at hm
  split_ifs at hm
  · obtain rfl := List.mem_singleton.mp hm
    exact (Option.some.inj h).symm
  · cases hm

theorem recording_schemeOnly : SchemeOnly Int Unit Unit := by
  intro scheme entry hentry given made hmade dsn dsn' hdsn
  obtain rfl := recording_of_installed hentry hmade
  simp [Factory.asked, Factory.askedOf, recording, hdsn]

theorem recording_adaptersOnly : AdaptersOnly Int Unit Unit := by
  intro scheme entry hentry given made hmade
  obtain rfl := recording_of_installed hentry hmade
  rfl

/-- Two transports of one server. -/
def shop : Group := Dict.update .empty
  [("jobs", ⟨"m://host".toList, none, ⟨.empty, true⟩⟩),
    ("mail", ⟨"m://host?serialize=false".toList, none, ⟨.empty, true⟩⟩)]

/-- What is discovered, before what is given. -/
def shared : Composite Int Unit Unit :=
  ⟨.delegating 0 [.discovering ⟨1, none⟩, .adapter { recording with id := 7 }], rfl⟩

def publishing : Call Int Unit Unit := .bus shop true shared

def consuming : Call Int Unit Unit :=
  .worker ⟨shop, .delegating 2 [shared.1], .empty, .ok .ok⟩ (.around 2 shared) ["mail"] rfl

/-- Another composite discovers a recorder of its own. -/
def others : List (Call Int Unit Unit) := [.bus shop true ⟨.discovering ⟨3, some 0⟩, rfl⟩]

theorem shared_uniform : Uniform publishing.leaves := by
  intro factory hfactory dsn dsn' h
  have hgiven : Sharing.Leaf.given factory ∈
      [.found ⟨1, none⟩, .given { recording with id := 7 }] := hfactory
  have hsame : factory = { recording with id := 7 } := by simpa using hgiven
  rw [hsame]
  simp [recording, h]

theorem wires_shop : ∃ (s t v : State Int Unit Unit Unit)
    (given given' : List (String × Endpoint Unit)),
    publishing.built {} = (.ok given, s) ∧ life.run s others = some t ∧
      consuming.built t = (.ok given', v) ∧ v.recorders.length = 4 ∧
      ("mail", .recorder 1) ∈ given' ∧
      ∀ endpoint, ("mail", endpoint) ∈ given → endpoint.Matches (.recorder 1) := by
  obtain ⟨s, t, v, given, given', hgiven, hrun, hgiven', hcount, hmail⟩ :
      ∃ (s t v : State Int Unit Unit Unit) (given given' : List (String × Endpoint Unit)),
        publishing.built {} = (.ok given, s) ∧ life.run s others = some t ∧
          consuming.built t = (.ok given', v) ∧ v.recorders.length = 4 ∧
          ("mail", .recorder 1) ∈ given' :=
    ⟨_, _, _, _, _, rfl, rfl, rfl, rfl, .head _⟩
  refine ⟨s, t, v, given, given', hgiven, hrun, hgiven', hcount, hmail, fun endpoint h => ?_⟩
  obtain ⟨_, hsame, _⟩ := wires recording_schemeOnly recording_adaptersOnly
    lowersAscii_ascii (.start ⟨0, rfl⟩) publishing
    hgiven others hrun consuming hgiven'
  exact hsame rfl (leaves_around 2 shared).symm shared_uniform "mail" (.tail _ (.head _)) endpoint
    (.recorder 1) h hmail

end Samples

end XtrMessenger.Transport.Wiring
