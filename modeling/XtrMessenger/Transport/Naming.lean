import XtrMessenger.Receiver.Correlation
import XtrMessenger.Transport.Directing
import XtrMessenger.Worker.Settlement

/-! What a worker built over several names drives, and the name it gives each message. -/
namespace XtrMessenger.Transport
open Foundation Dsn Factory
variable {ω ρ υ : Type}

section Behind
variable [Installed ω ρ υ]

/-- The adapter is behind the factory: given to it, or behind what is advertised where it
discovers. -/
inductive Factory.Behind (a : Adapter ω ρ υ) : Factory ω ρ υ → Prop
  | adapter : Behind a (.adapter a)
  | delegating {id : Nat} {factory : Factory ω ρ υ} {factories : List (Factory ω ρ υ)}
      (hm : factory ∈ factories) (h : Behind a factory) : Behind a (.delegating id factories)
  | discovering {t : Discovering} {scheme : List Char} {entry : EntryPoint (Factory ω ρ υ)}
      {given : Option Nat} {made : Factory ω ρ υ} (hm : entry ∈ Installed.entryPoints scheme)
      (hmade : entry.made given = some made) (h : Behind a made) : Behind a (.discovering t)

/-- What was discovered is what distributions advertise. -/
def Advertised (d : Discovered ω ρ υ) : Prop :=
  ∀ t scheme known, (d t).get? scheme = some known → ∀ a, Behind a known →
    Behind a (.discovering t)

theorem undiscovered_advertised : Advertised (undiscovered : Discovered ω ρ υ) := by
  intro t scheme known h
  simp [undiscovered, Dict.get?, Dict.empty] at h

/-- `TransportFactoryInterface.create`: what is built is named as the group's transports are. -/
def Adapter.Builds (a : Adapter ω ρ υ) : Prop :=
  ∀ group built, a.create group = .ok built → ∀ name, name ∈ built.keys ↔ name ∈ group.keys

variable [Unicode]

theorem discover_yields (t : Discovering) (dsn : Dsn) :
    Stateful.Yields Advertised (discover t dsn : Asking ω ρ υ _)
      fun found => ∀ known, found = some known → ∀ a, Behind a known →
        Behind a (.discovering t) := by
  intro d hd
  unfold discover
  cases hknown : (d t).get? dsn.scheme with
  | some known =>
    refine ⟨hd, fun found hfound known' ha => ?_⟩
    have hsame : some known = some known' := (Except.ok.inj hfound).trans ha
    exact Option.some.inj hsame ▸ hd t _ _ hknown
  | none =>
    cases hfound : (factoryFor t dsn : Except (Exc ω) (Option (Factory ω ρ υ))) with
    | error e => exact ⟨hd, by simp⟩
    | ok found =>
      cases found with
      | none => exact ⟨hd, by simp⟩
      | some known =>
        obtain ⟨entry, hm, given, hmade⟩ := made_of_firstBuilt hfound
        have hbehind : ∀ a, Behind a known → Behind a (.discovering t) :=
          fun a ha => .discovering hm hmade ha
        refine ⟨?_, fun found hreturned known' ha => ?_⟩
        · intro t' scheme known' ha
          by_cases ht : t' = t
          · subst ht
            simp only [Function.update_self, Dict.get?_set] at ha
            split_ifs at ha
            · exact Option.some.inj ha ▸ hbehind
            · exact hd t' scheme known' ha
          · simp only [Function.update_of_ne ht] at ha
            exact hd t' scheme known' ha
        · have hsame : some known = some known' := (Except.ok.inj hreturned).trans ha
          exact Option.some.inj hsame ▸ hbehind

namespace Factory

mutual

theorem supports_yields (dsn : Dsn) : ∀ factory : Factory ω ρ υ,
    Stateful.Yields Advertised (supports dsn factory) fun _ => True
  | .adapter _ => Stateful.yields_pure trivial
  | .delegating _ factories => anySupports_yields dsn factories
  | .discovering t => (discover_yields t dsn).bind fun _ _ => Stateful.yields_pure trivial

theorem anySupports_yields (dsn : Dsn) : ∀ factories : List (Factory ω ρ υ),
    Stateful.Yields Advertised (anySupports dsn factories) fun _ => True
  | [] => Stateful.yields_pure trivial
  | factory :: factories => by
    rw [anySupports]
    apply (supports_yields dsn factory).bind
    intro supported _
    cases supported with
    | true => exact Stateful.yields_pure trivial
    | false => exact anySupports_yields dsn factories

end

mutual

theorem servingDsn_yields (name : String) (dsn : Dsn) : ∀ factory : Factory ω ρ υ,
    Stateful.Yields Advertised (servingDsn name dsn factory)
      fun served => ∀ a, Behind a served → Behind a factory
  | .adapter _ => Stateful.yields_pure fun _ h => h
  | .delegating _ factories => by
    rw [servingDsn]
    apply (servingAmong_yields name dsn factories).mono
    intro served hserved a ha
    obtain ⟨factory, hm, hbehind⟩ := hserved
    exact .delegating hm (hbehind a ha)
  | .discovering t => by
    rw [servingDsn]
    apply (discover_yields t dsn).bind
    intro found hfound
    cases found with
    | none => exact Stateful.yields_lift (by simp)
    | some discovered => exact Stateful.yields_pure (hfound discovered rfl)

theorem servingAmong_yields (name : String) (dsn : Dsn) : ∀ factories : List (Factory ω ρ υ),
    Stateful.Yields Advertised (servingAmong name dsn factories)
      fun served => ∃ factory ∈ factories, ∀ a, Behind a served → Behind a factory
  | [] => Stateful.yields_lift (by simp)
  | factory :: factories => by
    rw [servingAmong]
    apply (supports_yields dsn factory).bind
    intro supported _
    cases supported with
    | true =>
      apply (servingDsn_yields name dsn factory).mono
      intro served hserved
      exact ⟨factory, List.mem_cons_self, hserved⟩
    | false =>
      apply (servingAmong_yields name dsn factories).mono
      intro served hserved
      obtain ⟨later, hm, hbehind⟩ := hserved
      exact ⟨later, List.mem_cons_of_mem _ hm, hbehind⟩

end

/-- Of what serves a group every adapter is behind the factory. -/
theorem serving_yields (factory : Factory ω ρ υ) (part : Part) :
    Stateful.Yields Advertised (serving factory part)
      fun served => ∀ a, Behind a served → Behind a factory := by
  apply (Stateful.yields_lift (Q := fun _ => True) fun _ _ => trivial).bind
  intro dsn _
  exact servingDsn_yields _ dsn factory

/-- What is built for a group an adapter behind the factory built. -/
theorem create_yields (n : Nat) (part : Part) (factory : Factory ω ρ υ) :
    Stateful.Yields Advertised (create n part factory) fun built =>
      ∃ a, Behind a factory ∧ a.create (Dict.update .empty part.members) = .ok built := by
  induction n generalizing factory with
  | zero =>
    cases factory with
    | adapter a => exact Stateful.yields_lift fun built h => ⟨a, .adapter, h⟩
    | delegating id factories => exact Stateful.yields_lift (by simp)
    | discovering t => exact Stateful.yields_lift (by simp)
  | succ n ih =>
    have hasked : Stateful.Yields Advertised
        (do create n part (← serving factory part) : Asking ω ρ υ _) fun built =>
          ∃ a, Behind a factory ∧ a.create (Dict.update .empty part.members) = .ok built := by
      apply (serving_yields factory part).bind
      intro served hserved
      apply (ih served).mono
      intro built hbuilt
      obtain ⟨a, ha, hcreated⟩ := hbuilt
      exact ⟨a, hserved a ha, hcreated⟩
    cases factory with
    | adapter a => exact Stateful.yields_lift fun built h => ⟨a, .adapter, h⟩
    | delegating id factories => exact hasked
    | discovering t => exact hasked

end Factory
end Behind

section Sources
variable [Installed ω ρ υ]

/-- What is driven under a name: what the adapter of a configured transport built under it, else the
registered receiver. -/
structure Sources (f : WorkerFactory ω ρ υ) (s : Selection ω ρ υ) (receivers : List (String × ρ)) :
    Prop where
  configured : ∀ entry ∈ receivers, entry.1 ∈ f.transports.keys → ∃ x ∈ s.served,
    entry.1 ∈ x.2.members.map Prod.fst ∧ ∃ a, Behind a x.1 ∧
      ∃ built, a.create (Dict.update .empty x.2.members) = .ok built ∧
        built.get? entry.1 = some (some entry.2)
  registered : ∀ entry ∈ receivers, entry.1 ∉ f.transports.keys →
    f.receivers.get? entry.1 = some entry.2

/-- A receiver for each name, in the order first named. -/
structure Drives (f : WorkerFactory ω ρ υ) (s : Selection ω ρ υ) (names : List String)
    (receivers : List (String × ρ)) : Prop extends Sources f s receivers where
  once : receivers.map Prod.fst = names.eraseDups

end Sources

/-- The name a worker of one receiver is built with. -/
def aloneName : List String → Option String
  | [name] => some name
  | _ => none

section Driven

theorem aloneName_eq (receivers : List (String × ρ)) : (match receivers with
    | [(name, _)] => some name
    | _ => none) = aloneName (receivers.map Prod.fst) := by
  cases receivers with
  | nil => rfl
  | cons first rest =>
    cases rest with
    | nil => rfl
    | cons second rest => rfl

theorem receiversOf_eq_ok {built : Dict String (Option ρ)} {receivers : List (String × ρ)}
    (h : receiversOf built = (.ok receivers : Except (Exc ω) _)) :
    (∀ name receiver, (name, receiver) ∈ receivers → built.get? name = some (some receiver)) ∧
      ∀ name ∈ built.keys, name ∈ receivers.map Prod.fst := by
  unfold receiversOf at h
  dsimp only at h
  split_ifs at h with hlength
  obtain rfl := Except.ok.inj h
  rw [not_not, List.filterMap_length_eq_length] at hlength
  constructor
  · intro name receiver hm
    obtain ⟨made, hmade, hreceiver⟩ := List.mem_filterMap.mp hm
    obtain ⟨receiver', hread, hpair⟩ := Option.map_eq_some_iff.mp hreceiver
    simp only [Prod.mk.injEq] at hpair
    obtain ⟨rfl, rfl⟩ := hpair
    apply (Dict.get?_eq_some_iff _).mpr
    rw [← hread]
    exact hmade
  · intro name hname
    obtain ⟨made, hmade, rfl⟩ := List.mem_map.mp hname
    have hreceives := hlength made hmade
    rw [Option.isSome_map] at hreceives
    obtain ⟨receiver, hreceiver⟩ := Option.isSome_iff_exists.mp hreceives
    refine List.mem_map.mpr ⟨(made.1, receiver), ?_, rfl⟩
    exact List.mem_filterMap.mpr ⟨made, hmade, by simp [hreceiver]⟩

namespace WorkerFactory
variable {f : WorkerFactory ω ρ υ} {names : List String} {group : Group}

theorem receiver_of_registered {name : String} {receiver : ρ}
    (h : (name, receiver) ∈ (f.registered names group).entries) :
    f.receivers.get? name = some receiver := by
  obtain hm | hnone := Dict.get?_update_cases _ ((Dict.get?_eq_some_iff _).mpr h)
  · obtain ⟨n, -, hn⟩ := List.mem_filterMap.mp hm
    obtain ⟨r, hr, hpair⟩ := Option.map_eq_some_iff.mp hn
    simp only [Prod.mk.injEq] at hpair
    obtain ⟨rfl, rfl⟩ := hpair
    exact hr
  · simp [Dict.get?, Dict.empty] at hnone

variable [Unicode] [Installed ω ρ υ] {d d' : Discovered ω ρ υ} {s : Selection ω ρ υ}

/-- What is selected: each connection of the group with what is behind the factories given. -/
structure Selects (f : WorkerFactory ω ρ υ) (names : List String) (s : Selection ω ρ υ) : Prop where
  select : f.select names = .ok s.group
  registered : s.registered = f.registered names s.group
  parts : (byConnection s.group : Except (Exc ω) (List Part)) = .ok (s.served.map Prod.snd)
  behind : ∀ x ∈ s.served, ∀ a, Behind a x.1 → Behind a f.factories

theorem selected_yields (names : List String) :
    Stateful.Yields Advertised (f.selected names) (Selects f names) := by
  refine (Stateful.yields_lift fun _ h => h).bind fun group hgroup => ?_
  refine (Stateful.yields_lift (Q := fun _ => True) fun _ _ => trivial).bind fun bus _ => ?_
  refine (Stateful.yields_lift fun _ h => h).bind fun parts hparts => ?_
  have hyields : ∀ part : Part, Stateful.Yields Advertised
      (do return (← serving f.factories part, part) : Asking ω ρ υ _)
      fun x => x.2 = part ∧ ∀ a, Behind a x.1 → Behind a f.factories := by
    intro part
    apply (serving_yields f.factories part).bind
    intro factory hfactory
    exact Stateful.yields_pure ⟨rfl, hfactory⟩
  refine (Stateful.Yields.mapM hyields parts).bind fun served hall => Stateful.yields_pure ?_
  constructor
  case select => exact hgroup
  case registered => rfl
  case parts =>
    have hsplit : served.map Prod.snd = parts := by
      rw [← List.forall₂_eq_eq_eq, List.forall₂_map_left_iff]
      apply hall.flip.imp
      intro x part hx
      exact hx.1
    rw [hsplit]
    exact hparts
  case behind =>
    intro x hx
    obtain ⟨part, -, -, hbehind⟩ := exists_of_mem_right hall hx
    exact hbehind

/-- A transport of the group is one of the part its adapter is handed. -/
theorem Selects.part_of (hs : Selects f names s) {name : String} (h : name ∈ s.group.keys) :
    ∃ x ∈ s.served, name ∈ x.2.members.map Prod.fst := by
  obtain ⟨entry, hentry, rfl⟩ := List.mem_map.mp h
  obtain ⟨part, hpart, hm⟩ := (mem_parts hs.parts).mp hentry
  obtain ⟨x, hx, rfl⟩ := List.mem_map.mp hpart
  exact ⟨x, hx, List.mem_map_of_mem hm⟩

theorem Selects.group_of (hs : Selects f names s) {x : Factory ω ρ υ × Part} (hx : x ∈ s.served)
    {name : String} (h : name ∈ x.2.members.map Prod.fst) : name ∈ s.group.keys := by
  obtain ⟨entry, hentry, rfl⟩ := List.mem_map.mp h
  apply List.mem_map_of_mem
  exact (mem_parts hs.parts).mpr ⟨x.2, List.mem_map_of_mem hx, hentry⟩

/-- The receivers the adapters built, each under a name of the part its adapter was handed. -/
structure Gathers (s : Selection ω ρ υ) (gathered : List (String × ρ)) : Prop where
  built : ∀ entry ∈ gathered, ∃ x ∈ s.served, entry.1 ∈ x.2.members.map Prod.fst ∧
    ∃ a, Behind a x.1 ∧ ∃ built, a.create (Dict.update .empty x.2.members) = .ok built ∧
      built.get? entry.1 = some (some entry.2)
  all : ∀ x ∈ s.served, ∀ name ∈ x.2.members.map Prod.fst, name ∈ gathered.map Prod.fst

theorem gathers_of_mapM (hbuilds : ∀ x ∈ s.served, ∀ a, Behind a x.1 → a.Builds)
    (hd : Advertised d) {built : List (List (String × ρ))}
    (h : (s.served.mapM fun (x : Factory ω ρ υ × Part) => (do
      Stateful.lift (receiversOf (← create (Installed.depth ω ρ υ) x.2 x.1)) :
        Asking ω ρ υ _)) d = (.ok built, d')) :
    Gathers s built.flatten := by
  have hyields : ∀ x : Factory ω ρ υ × Part, Stateful.Yields Advertised (do
      Stateful.lift (receiversOf (← create (Installed.depth ω ρ υ) x.2 x.1)) : Asking ω ρ υ _)
      fun receivers => ∃ a made, Behind a x.1 ∧
        a.create (Dict.update .empty x.2.members) = .ok made ∧
          receiversOf made = (.ok receivers : Except (Exc ω) _) := by
    intro x
    refine (create_yields _ x.2 x.1).bind fun made hmade => Stateful.yields_lift ?_
    intro receivers hread
    obtain ⟨a, ha, hcreated⟩ := hmade
    exact ⟨a, made, ha, hcreated, hread⟩
  have hall := (Stateful.Yields.mapM hyields s.served).returned hd h
  have hkeys : ∀ (part : Part) (name : String),
      name ∈ (Dict.update .empty part.members).keys ↔ name ∈ part.members.map Prod.fst := by
    intro part name
    rw [Dict.mem_keys_update]
    simp [Dict.keys, Dict.empty]
  constructor
  case built =>
    intro entry hentry
    obtain ⟨receivers, hreceivers, hm⟩ := List.mem_flatten.mp hentry
    obtain ⟨x, hx, a, made, ha, hmade, hread⟩ := exists_of_mem_right hall hreceivers
    have hget := (receiversOf_eq_ok hread).1 entry.1 entry.2 hm
    have hname := (hbuilds x hx a ha _ made hmade entry.1).mp (Dict.mem_keys_of_get? _ hget)
    exact ⟨x, hx, (hkeys _ _).mp hname, a, ha, made, hmade, hget⟩
  case all =>
    intro x hx name hname
    obtain ⟨receivers, hreceivers, a, made, ha, hmade, hread⟩ := exists_of_mem_right hall.flip hx
    have hmem := (hbuilds x hx a ha _ made hmade name).mpr ((hkeys _ _).mpr hname)
    obtain ⟨entry, hentry, hfst⟩ := List.mem_map.mp ((receiversOf_eq_ok hread).2 name hmem)
    exact List.mem_map.mpr ⟨entry, List.mem_flatten.mpr ⟨receivers, hreceivers, hentry⟩, hfst⟩

omit [Unicode] in
theorem map_fst_filterMap {ν : Type} {names : List String} {get : String → Option ν}
    (h : ∀ name ∈ names, (get name).isSome = true) :
    (names.filterMap fun n => (get n).map fun v => (n, v)).map Prod.fst = names := by
  induction names with
  | nil => rfl
  | cons name names ih =>
    obtain ⟨v, hv⟩ := Option.isSome_iff_exists.mp (h name List.mem_cons_self)
    have hrest := ih fun n hn => h n (List.mem_cons_of_mem _ hn)
    simp only [List.filterMap_cons, hv, Option.map_some, List.map_cons, hrest]

/-- The receivers in the order named, repetitions included. -/
theorem sources_of_gathers (hs : Selects f names s) {gathered : List (String × ρ)}
    (hg : Gathers s gathered) {ordered : List (String × ρ)}
    (ho : ordered = names.filterMap fun n =>
      (((Dict.update .empty gathered).update s.registered.entries).get? n).map
        fun receiver => (n, receiver)) :
    ordered.map Prod.fst = names ∧ Sources f s ordered := by
  obtain ⟨hknown, hgroup⟩ := select_eq_ok hs.select
  have hread : ∀ entry ∈ ordered, entry.1 ∈ names ∧
      (entry ∈ s.registered.entries ∨ entry ∈ gathered) := by
    intro entry hentry
    obtain ⟨n, hn, hsome⟩ := List.mem_filterMap.mp (ho ▸ hentry)
    obtain ⟨receiver, hget, rfl⟩ := Option.map_eq_some_iff.mp hsome
    refine ⟨hn, ?_⟩
    obtain hreg | hget := Dict.get?_update_cases _ hget
    · exact .inl hreg
    · obtain hm | hnone := Dict.get?_update_cases _ hget
      · exact .inr hm
      · simp [Dict.get?, Dict.empty] at hnone
  have hregistered : ∀ entry ∈ s.registered.entries,
      entry.1 ∉ s.group.keys ∧ f.receivers.get? entry.1 = some entry.2 := by
    intro entry hentry
    rw [hs.registered] at hentry
    have hkey := mem_keys_registered.mp (List.mem_map_of_mem (f := Prod.fst) hentry)
    exact ⟨hkey.1.2, receiver_of_registered hentry⟩
  refine ⟨?_, ?_, ?_⟩
  · rw [ho]
    apply map_fst_filterMap
    intro name hname
    rw [Dict.isSome_get?, Dict.mem_keys_update, Dict.mem_keys_update]
    by_cases hconfigured : name ∈ s.group.keys
    · obtain ⟨x, hx, hm⟩ := hs.part_of hconfigured
      exact .inl (.inr (hg.all x hx name hm))
    · right
      have hreceiver : name ∈ f.receivers.keys := by
        obtain htransport | hreceiver := hknown name hname
        · exact absurd ((hgroup name).mpr ⟨hname, htransport⟩) hconfigured
        · exact hreceiver
      have hkey : name ∈ s.registered.keys := by
        rw [hs.registered]
        exact mem_keys_registered.mpr ⟨⟨hname, hconfigured⟩, hreceiver⟩
      exact hkey
  · intro entry hentry htransport
    obtain ⟨hname, hreg | hm⟩ := hread entry hentry
    · exact absurd ((hgroup _).mpr ⟨hname, htransport⟩) (hregistered entry hreg).1
    · exact hg.built entry hm
  · intro entry hentry hnot
    obtain ⟨hname, hreg | hm⟩ := hread entry hentry
    · exact (hregistered entry hreg).2
    · obtain ⟨x, hx, hpart, -⟩ := hg.built entry hm
      exact absurd ((hgroup _).mp (hs.group_of hx hpart)).2 hnot

/-- A worker over adapters that bring none is the library's, over a receiver for each name given. -/
theorem library_of_worker (hd : Advertised d)
    (hlibrary : ∀ a, Behind a f.factories → a.worker = none)
    (hbuilds : ∀ a, Behind a f.factories → a.Builds) {built : BuiltWorker ω ρ υ}
    (h : f.worker names d = (.ok built, d')) : ∃ s t receivers, f.selected names d = (.ok s, t) ∧
      built = .library s.bus receivers (aloneName names) ∧
        receivers.map Prod.fst = names ∧ Sources f s receivers := by
  obtain ⟨s, t, hselected, hbuilt⟩ := worker_eq_ok h
  have hs := (selected_yields names).returned hd hselected
  have hkept : Advertised t := by
    have hkept := (selected_yields (f := f) names d hd).1
    rwa [hselected] at hkept
  have hnone : ∀ x ∈ s.served, x.1.worker.isSome = false := by
    intro x hx
    have hbehind := hs.behind x hx
    cases hfactory : x.1 with
    | adapter a =>
      rw [Factory.worker, hlibrary a (hbehind a (hfactory ▸ .adapter))]
      rfl
    | delegating id factories => rfl
    | discovering t => rfl
  obtain ⟨factory, build, made, hconsumer, -, -⟩ | ⟨-, hworker⟩ := hbuilt
  · -- no adapter provides a worker
    obtain ⟨hother, -⟩ | ⟨-, ⟨x, hx, hbrings⟩, -⟩ | ⟨x, hx, -, -, hall, -⟩ := consumer_cases s
    · rw [hconsumer] at hother
      exact absurd (Except.ok.inj hother) (by simp)
    · rw [hnone x hx] at hbrings
      exact absurd hbrings Bool.false_ne_true
    · exact absurd ((hnone x hx).symm.trans (hall x hx)) Bool.false_ne_true
  · obtain ⟨gathered, u, hgathered, hreturn⟩ := Stateful.bind_eq_ok_iff.mp hworker
    have hg := gathers_of_mapM (fun x hx a ha => hbuilds a (hs.behind x hx a ha)) hkept hgathered
    obtain ⟨hnames, hsources⟩ := sources_of_gathers hs hg rfl
    refine ⟨s, t, _, hselected, ?_, hnames, hsources⟩
    have halone := aloneName_eq (names.filterMap fun n =>
      (((Dict.update .empty gathered.flatten).update s.registered.entries).get? n).map
        fun receiver => (n, receiver))
    rw [hnames] at halone
    have hsame := Except.ok.inj (congrArg Prod.fst hreturn)
    exact hsame.symm.trans (congrArg (BuiltWorker.library s.bus _) halone)

end WorkerFactory

end Driven

section Naming

/-- `_one_receiver` over several: each with its name. -/
def chainedOf (names : List String) : ChainedReceiver names.length :=
  ⟨some ⟨names.toArray, by simp⟩⟩

theorem create_chainedOf (names : List String) :
    ChainedReceiver.create names.length (some names) =
      (.ok (chainedOf names) : Except (Exc ω) _) := by
  simp [ChainedReceiver.create, chainedOf]

/-- An envelope a worker over the names collects, from the transport of a name: what the only
receiver yields, or what several chained ones do in some run. -/
inductive Collected (names : List String) : String → Envelope ω → Prop
  | alone {name : String} (hn : names = [name]) (envelope : Envelope ω) :
    Collected names name envelope
  | chained (hn : names.length ≠ 1) {s : ChainedReceiver.State names.length ω}
      (hs : (ChainedReceiver.machine ω (chainedOf names)).Reachable s)
      {position : Fin names.length} {ticket : Int} {collected envelope : Envelope ω}
      (hy : .yielded position ticket collected envelope ∈ s.log) :
      Collected names names[position] envelope

/-- The name the last `ReceivedStamp` gives. -/
def transportNamed (stamps : List (Stamp ω)) : Option String :=
  (stamps.filter fun s => s.isInstance (.shipped .received)).getLast?.bind Stamp.transportName?

/-- The call goes by the name: an event reports it, what is dispatched carries it. -/
def GoesBy (name : String) : Call ω → Prop
  | .received _ receiverName _ => receiverName = name
  | .dispatch envelope _ => transportNamed envelope.stamps = some name
  | .handled _ receiverName _ => receiverName = name
  | .failed _ receiverName _ _ _ => receiverName = name
  | .ack _ _ | .reject _ _ | .reset _ => True

/-- Told of the message as received from `name`, no listener puts another transport's name on it. -/
def KeepsName (l : Listeners ω) (envelope : Envelope ω) (name : String) : Prop :=
  ∀ stamps, l.received envelope name = .ok (stamps, true) →
    ∀ other, transportNamed stamps = some other → other = name

theorem transportName?_isSome {s : Stamp ω} (h : s.isInstance (.shipped .received) = true) :
    ∃ name, s.transportName? = some name := by
  unfold Stamp.isInstance at h
  simp only [decide_eq_true_eq, Option.map_eq_some_iff] at h
  obtain ⟨shipped, hshipped, hkind⟩ := h
  unfold Stamp.transportName?
  rw [hshipped]
  cases shipped <;> simp [ShippedStamp.kind] at hkind ⊢

theorem transportNamed_append (l stamps : List (Stamp ω)) :
    transportNamed (l ++ stamps) = (transportNamed stamps).or (transportNamed l) := by
  unfold transportNamed
  rw [List.filter_append, List.getLast?_append]
  cases hlast : (stamps.filter fun s => s.isInstance (.shipped .received)).getLast? with
  | none => rfl
  | some s =>
    have hm := (List.mem_filter.mp (List.mem_of_getLast? hlast)).2
    obtain ⟨name, hname⟩ := transportName?_isSome hm
    simp [hname]

theorem transportNamed_last (e : Envelope ω) :
    (e.last (.shipped .received)).bind Stamp.transportName? = transportNamed e.stamps := rfl

theorem named_of_collected {names : List String} {name : String} {e : Envelope ω}
    (h : Collected names name e) (worker : Worker) (hw : worker.receiverName = aloneName names) :
    receiverNameOf e worker.receiverName = name ∧
      transportNamed (worker.named e).stamps = some name := by
  cases h with
  | alone hn =>
    have hname : worker.receiverName = some name := by rw [hw, hn]; rfl
    refine ⟨by simp [receiverNameOf, hname], ?_⟩
    simp only [Worker.named, hname]
    split_ifs with hlast
    · exact hlast
    · rw [Envelope.withStamps_stamps, transportNamed_append]
      rfl
  | chained hn hs hy =>
    rename_i s position ticket collected
    have hnone : worker.receiverName = none := by
      rw [hw]
      unfold aloneName
      split
      · simp at hn
      · rfl
    have htagged := ChainedReceiver.yielded_tagged hs hy
    have hnamed : transportNamed e.stamps = some names[position] := by
      rw [htagged, Envelope.withStamps_stamps, transportNamed_append]
      rfl
    simp only [Worker.named, hnone, receiverNameOf, transportNamed_last, hnamed]
    exact ⟨rfl, trivial⟩

theorem settleOutcome_goesBy (worker : Worker) (world : World ω) (name : String)
    (outcome : Outcome ω) : ∀ c ∈ (worker.settleOutcome world name outcome).calls ++
      (worker.resetting world).calls, GoesBy name c := by
  rw [List.forall_mem_append]
  constructor
  · cases outcome with
    | handled settled => simp [Worker.settleOutcome, GoesBy]
    | skipped settled => simp [Worker.settleOutcome, GoesBy]
    | failed current error =>
      cases hd : errorDetailsOf error with
      | error raised =>
        rw [settleOutcome_unreportable_calls worker world name current hd]
        simp
      | ok details =>
        simp only [Worker.settleOutcome, announceFailure]
        rw [Traced.bind_of_ok (a := details) _ hd]
        cases worker.dispatcher world with
        | none => simp [GoesBy]
        | some l => simp [GoesBy]
  · unfold Worker.resetting
    split_ifs <;> simp [GoesBy]

/-- The stamps listeners added keep the name when none puts another on the message. -/
theorem transportNamed_added {l : List (Stamp ω)} (stamps : List (Stamp ω)) {name : String}
    (h : transportNamed l = some name) : transportNamed (l ++ stamps) = some name ↔
      ∀ other, transportNamed stamps = some other → other = name := by
  rw [transportNamed_append, h]
  cases transportNamed stamps with
  | none => simp
  | some other => simp

/-- Settling goes by the name exactly when no listener put another on the message. -/
theorem settle_goesBy_iff {worker : Worker} {world : World ω} {e : Envelope ω} {name : String}
    (hname : receiverNameOf e worker.receiverName = name)
    (hnamed : transportNamed (worker.named e).stamps = some name) :
    (∀ c ∈ (worker.settle world e).calls, GoesBy name c) ↔
      (worker.hasDispatcher = true → KeepsName world.listeners (worker.named e) name) := by
  obtain ⟨outcome, -, hcalls⟩ := settle_calls worker world e
  rw [hname] at hcalls
  rw [hcalls, List.forall_mem_append,
    and_iff_left (settleOutcome_goesBy worker world name outcome)]
  unfold Worker.dispatcher
  cases worker.hasDispatcher with
  | false =>
    simp only [Bool.false_eq_true, if_false, false_implies, iff_true, handle_none]
    intro c hc
    obtain rfl := List.mem_singleton.mp hc
    exact hnamed
  | true =>
    simp only [if_true, true_implies, handle_some, KeepsName]
    cases hr : world.listeners.received (worker.named e) name with
    | error error => simp [GoesBy]
    | ok answer =>
      obtain ⟨stamps, shouldHandle⟩ := answer
      cases shouldHandle with
      | false => simp [GoesBy]
      | true =>
        have hkept := transportNamed_added stamps hnamed
        have hone : (∀ s, (Except.ok (stamps, true) : Except (Exc ω) _) = .ok (s, true) →
            ∀ other, transportNamed s = some other → other = name) ↔
              ∀ other, transportNamed stamps = some other → other = name := by
          constructor
          · intro h
            exact h stamps rfl
          · intro h s hs
            obtain ⟨rfl, -⟩ := Prod.mk.inj (Except.ok.inj hs)
            exact h
        rw [hone, ← hkept]
        cases hb : world.bus ((worker.named e).withStamps stamps) with
        | error error => simp [GoesBy, hb]
        | ok answer => simp [GoesBy, hb]

end Naming

section Consuming
variable [Unicode] [Installed ω ρ υ]

/-- The worker drives a receiver a name, and goes by the configured name with every message. -/
def Consumes (f : WorkerFactory ω ρ υ) (d : Discovered ω ρ υ) (names : List String)
    (hasDispatcher hasResetter : Bool) (l : Listeners ω) (built : BuiltWorker ω ρ υ) : Prop :=
  ∃ s t receivers receiverName, f.selected names d = (.ok s, t) ∧
    built = .library s.bus receivers receiverName ∧ Drives f s names receivers ∧
      ∀ name (e : Envelope ω), Collected (receivers.map Prod.fst) name e →
        ∀ world : World ω, world.bus = s.bus → world.listeners = l →
          ∀ c ∈ (Worker.settle ⟨receiverName, hasDispatcher, hasResetter⟩ world e).calls,
            GoesBy name c

/-- Over adapters that bring no worker and build what they are asked for, the worker drives a
receiver a name and keeps to the configured names exactly when no name is repeated and no listener
puts another transport's name on a message. -/
theorem worker_consumes_iff {f : WorkerFactory ω ρ υ} {names : List String}
    {d d' : Discovered ω ρ υ} {built : BuiltWorker ω ρ υ} (hd : Advertised d)
    (hlibrary : ∀ a, Behind a f.factories → a.worker = none)
    (hbuilds : ∀ a, Behind a f.factories → a.Builds) (h : f.worker names d = (.ok built, d'))
    (hasDispatcher hasResetter : Bool) (l : Listeners ω) :
    Consumes f d names hasDispatcher hasResetter l built ↔ names.Nodup ∧ (hasDispatcher = true →
      ∀ name (e : Envelope ω), Collected names name e →
        KeepsName l (Worker.named ⟨aloneName names, hasDispatcher, hasResetter⟩ e) name) := by
  obtain ⟨s, t, receivers, hselected, hbuilt, hnames, hsources⟩ :=
    WorkerFactory.library_of_worker hd hlibrary hbuilds h
  have hsettle : ∀ name (e : Envelope ω), Collected names name e → ∀ world : World ω,
      (∀ c ∈ (Worker.settle ⟨aloneName names, hasDispatcher, hasResetter⟩ world e).calls,
        GoesBy name c) ↔ (hasDispatcher = true → KeepsName world.listeners
          (Worker.named ⟨aloneName names, hasDispatcher, hasResetter⟩ e) name) := by
    intro name e hcollected world
    obtain ⟨hname, hnamed⟩ := named_of_collected hcollected
      ⟨aloneName names, hasDispatcher, hasResetter⟩ rfl
    exact settle_goesBy_iff hname hnamed
  constructor
  · intro hconsumes
    obtain ⟨s', t', receivers', receiverName, hselected', hbuilt', hdrives, hgoes⟩ := hconsumes
    rw [hbuilt] at hbuilt'
    simp only [BuiltWorker.library.injEq] at hbuilt'
    obtain ⟨-, rfl, rfl⟩ := hbuilt'
    constructor
    · have honce := hdrives.once
      rw [hnames] at honce
      exact eraseDups_eq_self_iff.mp honce.symm
    · intro hdispatcher name e hcollected
      rw [hnames] at hgoes
      let world : World ω := ⟨s'.bus, l, fun _ => none, fun _ => none, none⟩
      exact (hsettle name e hcollected world).mp (hgoes name e hcollected world rfl rfl) hdispatcher
  · intro hcondition
    obtain ⟨hnodup, hkeeps⟩ := hcondition
    refine ⟨s, t, receivers, aloneName names, hselected, hbuilt, ⟨hsources, ?_⟩, ?_⟩
    · rw [hnames, eraseDups_eq_self_iff.mpr hnodup]
    · intro name e hcollected world _ hlisteners
      rw [hnames] at hcollected
      apply (hsettle name e hcollected world).mpr
      intro hdispatcher
      rw [hlisteners]
      exact hkeeps hdispatcher name e hcollected

end Consuming

section Samples
attribute [local instance] installedNone Unicode.ascii

/-- An adapter of one scheme, driven by the library's own worker. -/
def plain (scheme : Char) : Adapter Int Unit Unit where
  id := 0
  supports dsn := dsn.scheme = [scheme]
  create group := .ok (group.map fun _ => some ())
  worker := none

/-- A transport, beside receivers registered under its name and another. -/
def jobsAndTicks : WorkerFactory Int Unit Unit where
  transports := Dict.update .empty [("jobs", configured 'm' 'x')]
  factories := .delegating 0 [.adapter (plain 'm')]
  receivers := Dict.update .empty [("jobs", ()), ("ticks", ())]
  dispatcher := .ok .ok

/-- Listeners that leave every message as it is. -/
def silent : Listeners Int :=
  ⟨fun _ _ => .ok ([], true), fun _ _ => .ok [], fun _ _ _ _ => ([], none)⟩

theorem plain_of_behind {a : Adapter Int Unit Unit} (h : Behind a jobsAndTicks.factories) :
    a = plain 'm' := by
  cases h with
  | delegating hm hbehind =>
    obtain rfl := List.mem_singleton.mp hm
    cases hbehind
    rfl

theorem plain_builds : (plain 'm').Builds := by
  intro group built hbuilt name
  obtain rfl := Except.ok.inj hbuilt
  simp [Dict.keys, Dict.map, Function.comp_def]

theorem worker_consumes_jobsAndTicks : ∃ built d',
    jobsAndTicks.worker ["ticks", "jobs"] undiscovered = (.ok built, d') ∧
      Consumes jobsAndTicks undiscovered ["ticks", "jobs"] true false silent built := by
  obtain ⟨built, d', hworker⟩ : ∃ built d',
      jobsAndTicks.worker ["ticks", "jobs"] undiscovered = (.ok built, d') := ⟨_, _, rfl⟩
  refine ⟨built, d', hworker, (worker_consumes_iff undiscovered_advertised (fun a ha => ?_)
    (fun a ha => ?_) hworker true false silent).mpr ⟨by decide, fun _ name e _ => ?_⟩⟩
  · rw [plain_of_behind ha]
    rfl
  · rw [plain_of_behind ha]
    exact plain_builds
  · intro stamps hstamps other hother
    obtain ⟨rfl, -⟩ := Prod.mk.inj (Except.ok.inj hstamps)
    simp [transportNamed] at hother

/-- A receiver named twice is driven twice. -/
theorem repeated_name_driven_twice : ¬∀ (f : WorkerFactory Int Unit Unit) (names : List String)
    (built : BuiltWorker Int Unit Unit) (d' : Discovered Int Unit Unit),
    (∀ a, Behind a f.factories → a.worker = none ∧ a.Builds) →
      f.worker names undiscovered = (.ok built, d') →
        Consumes f undiscovered names false false silent built := by
  intro h
  have hconsumes := h jobsAndTicks ["ticks", "ticks"]
    (.library .ok [("ticks", ()), ("ticks", ())] none) undiscovered
    (fun a ha => plain_of_behind ha ▸ ⟨rfl, plain_builds⟩) rfl
  obtain ⟨s, t, receivers, receiverName, -, hbuilt, hdrives, -⟩ := hconsumes
  simp only [BuiltWorker.library.injEq] at hbuilt
  have honce := hdrives.once
  rw [← hbuilt.2.1] at honce
  exact absurd honce (by decide)

end Samples

end XtrMessenger.Transport
