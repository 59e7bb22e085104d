import XtrMessenger.Handling
import XtrMessenger.Dsn.Parsing
import XtrMessenger.Foundation.Stateful

/-! `TransportFactory`: the adapter that recognises a DSN, among those given or those
discovered. -/
namespace XtrMessenger.Transport
open Foundation Dsn

/-- Transports by name, in a mapping. -/
abbrev Group := Dict String TransportConfig

/-- A transport factory an adapter implements. `ρ` stands for receivers, `υ` for workers. -/
structure Adapter (ω ρ υ : Type) where
  /-- The identity of the object. -/
  id : Nat
  supports : Dsn → Bool
  /-- The receive half of each transport built, if it has one. -/
  create : Group → Except (Exc ω) (Dict String (Option ρ))
  /-- `WorkerProvidingInterface.worker`, where the adapter brings its own. -/
  worker : Option (Group → Bus ω → Except (Exc ω) υ)

/-- A `TransportFactory` without a list. -/
structure Discovering where
  id : Nat
  /-- The serializer it was given, by identity. -/
  serializer : Option Nat
  deriving DecidableEq

/-- A `TransportFactoryInterface`: an adapter's, or a `TransportFactory` over a list of them or over
what it discovers. -/
inductive Factory (ω ρ υ : Type)
  | adapter (adapter : Adapter ω ρ υ)
  | delegating (id : Nat) (factories : List (Factory ω ρ υ))
  | discovering (factory : Discovering)

/-- Whether what an entry point names takes a `serializer`. -/
inductive Wanted
  | no | optional | required
  deriving DecidableEq

/-- What a distribution advertises under a scheme. -/
structure EntryPoint (α : Type) where
  name : List Char
  /-- It can be imported and called. -/
  usable : Bool
  wanted : Wanted
  /-- What it builds with a serializer or without, if that is a transport factory. -/
  made : Option Nat → Option α

/-- What the installed distributions advertise, and how many discoveries may be under way in one
another before `RecursionError`. -/
class Installed (ω ρ υ : Type) where
  entryPoints : List Char → List (EntryPoint (Factory ω ρ υ))
  depth : Nat

variable {ω ρ υ : Type}

def missingSerializerError [Unicode] (scheme : List Char) : Exc ω :=
  .exception "MissingSerializerError" ("the " ++ pyRepr (String.ofList scheme) ++
    " transport needs a serializer: its factory requires one; " ++
    "build TransportFactory with serializer=...")

def unsupportedDsnError [Unicode] (transportName : String) (dsn : List Char) : Exc ω :=
  .exception "UnsupportedDsnError" ("no transport factory for " ++ pyRepr transportName ++
    " dsn " ++ pyRepr (String.ofList (redacted dsn)) ++
    "; install the matching extra, or pass your own factory")

def recursionError : Exc ω := .exception "RecursionError" "maximum recursion depth exceeded"

def EntryPoint.build [Unicode] {α : Type} (entry : EntryPoint α) (serializer : Option Nat) :
    Except (Exc ω) (Option α) :=
  if entry.usable = false then .ok none
  else if entry.wanted = .required ∧ serializer = none then
    .error (missingSerializerError entry.name)
  else .ok (entry.made (if entry.wanted = .no then none else serializer))

/-- The first factory built that says it recognises the DSN. -/
def firstBuilt [Unicode] (asked : Factory ω ρ υ → Except (Exc ω) Bool) (serializer : Option Nat) :
    List (EntryPoint (Factory ω ρ υ)) → Except (Exc ω) (Option (Factory ω ρ υ))
  | [] => .ok none
  | entry :: entries => do
    match ← entry.build serializer with
    | some factory =>
      if ← asked factory then .ok (some factory) else firstBuilt asked serializer entries
    | none => firstBuilt asked serializer entries

namespace Factory

mutual

/-- `supports` of a factory that was just built: nothing was discovered behind it, and what is now,
nobody was handed. -/
def askedOf (finds : Option Nat → Except (Exc ω) Bool) (dsn : Dsn) :
    Factory ω ρ υ → Except (Exc ω) Bool
  | adapter a => .ok (a.supports dsn)
  | delegating _ factories => anyAsked finds dsn factories
  | discovering t => finds t.serializer

def anyAsked (finds : Option Nat → Except (Exc ω) Bool) (dsn : Dsn) :
    List (Factory ω ρ υ) → Except (Exc ω) Bool
  | [] => .ok false
  | factory :: factories => do
    if ← askedOf finds dsn factory then return true else anyAsked finds dsn factories

end

end Factory

/-- `factory_for`, with so many discoveries to go. -/
def findAt [Unicode] [Installed ω ρ υ] (dsn : Dsn) :
    Nat → Option Nat → Except (Exc ω) (Option (Factory ω ρ υ))
  | 0, _ => .error recursionError
  | n + 1, serializer =>
    firstBuilt (Factory.askedOf (fun inner => (findAt dsn n inner).map Option.isSome) dsn)
      serializer (Installed.entryPoints dsn.scheme)

/-- What a factory that discovery just built answers. -/
def Factory.asked [Unicode] [Installed ω ρ υ] (dsn : Dsn) (factory : Factory ω ρ υ) :
    Except (Exc ω) Bool :=
  askedOf (fun serializer =>
    (findAt dsn (Installed.depth ω ρ υ) serializer : Except (Exc ω) (Option (Factory ω ρ υ))).map
      Option.isSome) dsn factory

def factoryFor [Unicode] [Installed ω ρ υ] (t : Discovering) (dsn : Dsn) :
    Except (Exc ω) (Option (Factory ω ρ υ)) :=
  firstBuilt (Factory.asked dsn) t.serializer (Installed.entryPoints dsn.scheme)

/-- `_discovered` of each `TransportFactory`: what it discovered, by scheme. -/
abbrev Discovered (ω ρ υ : Type) := Discovering → Dict (List Char) (Factory ω ρ υ)

/-- What a `TransportFactory` asks of those behind it; discoveries are kept. -/
abbrev Asking (ω ρ υ α : Type) := Stateful (Discovered ω ρ υ) (Exc ω) α

def discover [Unicode] [Installed ω ρ υ] (t : Discovering) (dsn : Dsn) :
    Asking ω ρ υ (Option (Factory ω ρ υ)) := fun d =>
  match (d t).get? dsn.scheme with
  | some known => (.ok (some known), d)
  | none =>
    match factoryFor t dsn with
    | .error e => (.error e, d)
    | .ok none => (.ok none, d)
    | .ok (some known) =>
      (.ok (some known), Function.update d t ((d t).set dsn.scheme known))

namespace Factory
variable [Unicode] [Installed ω ρ υ]

mutual

def supports (dsn : Dsn) : Factory ω ρ υ → Asking ω ρ υ Bool
  | adapter a => pure (a.supports dsn)
  | delegating _ factories => anySupports dsn factories
  | discovering t => do return (← discover t dsn).isSome

/-- `any(factory.supports(dsn) for factory in factories)`. -/
def anySupports (dsn : Dsn) : List (Factory ω ρ υ) → Asking ω ρ υ Bool
  | [] => pure false
  | factory :: factories => do
    if ← supports dsn factory then return true else anySupports dsn factories

end

mutual

/-- `serving` of a group whose first transport is `name` with `dsn`. An adapter is what serves, and
so is whatever was discovered. -/
def servingDsn (name : String) (dsn : Dsn) : Factory ω ρ υ → Asking ω ρ υ (Factory ω ρ υ)
  | adapter a => pure (adapter a)
  | delegating _ factories => servingAmong name dsn factories
  | discovering t => do
    match ← discover t dsn with
    | some discovered => return discovered
    | none => Stateful.lift (.error (unsupportedDsnError name dsn.raw))

/-- The first that recognises the DSN, seen through. -/
def servingAmong (name : String) (dsn : Dsn) :
    List (Factory ω ρ υ) → Asking ω ρ υ (Factory ω ρ υ)
  | [] => Stateful.lift (.error (unsupportedDsnError name dsn.raw))
  | factory :: factories => do
    if ← supports dsn factory then servingDsn name dsn factory
    else servingAmong name dsn factories

end

/-- The transports of one connection: at least one. -/
abbrev Part := (String × TransportConfig) × List (String × TransportConfig)

/-- `TransportConfig.parsed`, raising. -/
def parsed (config : TransportConfig) : Except (Exc ω) Dsn :=
  config.parsed.mapError fun error =>
    .exception "InvalidDsnError" (String.ofList error.message)

/-- `serving`: what serves a group is told by the first of its transports. -/
def serving (factory : Factory ω ρ υ) (part : Part) : Asking ω ρ υ (Factory ω ρ υ) := do
  let dsn ← Stateful.lift (parsed part.1.2)
  servingDsn part.1.1 dsn factory

end Factory

/-- Whether a factory that is discovered recognises a DSN is told by its scheme. -/
def SchemeOnly (ω ρ υ : Type) [Unicode] [Installed ω ρ υ] : Prop :=
  ∀ scheme, ∀ entry ∈ (Installed.entryPoints scheme : List (EntryPoint (Factory ω ρ υ))),
    ∀ serializer made, entry.made serializer = some made → ∀ dsn dsn' : Dsn,
      dsn.scheme = dsn'.scheme →
        (made.asked dsn : Except (Exc ω) Bool) = made.asked dsn'

section Steady
variable [Unicode] [Installed ω ρ υ]

/-- What is kept for a scheme is what would be discovered for it. -/
def Kept (d : Discovered ω ρ υ) : Prop :=
  ∀ t scheme a, (d t).get? scheme = some a → ∀ dsn : Dsn, dsn.scheme = scheme →
    factoryFor t dsn = .ok (some a)

/-- Nothing was discovered yet. -/
def undiscovered : Discovered ω ρ υ := fun _ => .empty

theorem undiscovered_kept : Kept (undiscovered : Discovered ω ρ υ) := by
  intro t scheme a h
  simp [undiscovered, Dict.get?, Dict.empty] at h

omit [Installed ω ρ υ] in
theorem made_of_build {entry : EntryPoint (Factory ω ρ υ)} {serializer : Option Nat}
    {made : Factory ω ρ υ} (h : entry.build serializer = (.ok (some made) : Except (Exc ω) _)) :
    ∃ given, entry.made given = some made := by
  unfold EntryPoint.build at h
  split_ifs at h
  · cases h
  · exact ⟨_, Except.ok.inj h⟩
  · exact ⟨_, Except.ok.inj h⟩

omit [Installed ω ρ υ] in
theorem made_of_firstBuilt {asked : Factory ω ρ υ → Except (Exc ω) Bool} {serializer : Option Nat}
    {entries : List (EntryPoint (Factory ω ρ υ))} {known : Factory ω ρ υ}
    (h : firstBuilt asked serializer entries = .ok (some known)) :
    ∃ entry ∈ entries, ∃ given, entry.made given = some known := by
  induction entries with
  | nil => simp [firstBuilt] at h
  | cons entry entries ih =>
    obtain ⟨built, hbuilt, hnext⟩ := Foundation.bind_eq_ok_iff.mp h
    have hlater : firstBuilt asked serializer entries = .ok (some known) →
        ∃ entry' ∈ entry :: entries, ∃ given, entry'.made given = some known := by
      intro hrest
      obtain ⟨entry', hm, hmade⟩ := ih hrest
      exact ⟨entry', List.mem_cons_of_mem _ hm, hmade⟩
    cases built with
    | none => exact hlater hnext
    | some factory =>
      obtain ⟨recognised, -, hreturn⟩ := Foundation.bind_eq_ok_iff.mp hnext
      cases recognised with
      | true =>
        obtain rfl := Option.some.inj (Except.ok.inj hreturn)
        exact ⟨entry, List.mem_cons_self, made_of_build hbuilt⟩
      | false => exact hlater hreturn

theorem factoryFor_congr (hs : SchemeOnly ω ρ υ) (t : Discovering) {dsn dsn' : Dsn}
    (h : dsn.scheme = dsn'.scheme) :
    (factoryFor t dsn : Except (Exc ω) (Option (Factory ω ρ υ))) = factoryFor t dsn' := by
  have hall : ∀ entries : List (EntryPoint (Factory ω ρ υ)),
      (∀ entry ∈ entries, entry ∈ Installed.entryPoints dsn'.scheme) →
        firstBuilt (Factory.asked dsn) t.serializer entries =
          (firstBuilt (Factory.asked dsn') t.serializer entries : Except (Exc ω) _) := by
    intro entries hentries
    induction entries with
    | nil => rfl
    | cons entry entries ih =>
      have hrest := ih fun e he => hentries e (List.mem_cons_of_mem _ he)
      rw [firstBuilt, firstBuilt, hrest]
      cases hbuild : (entry.build t.serializer : Except (Exc ω) _) with
      | error e => rfl
      | ok built =>
        cases built with
        | none => rfl
        | some made =>
          obtain ⟨given, hmade⟩ := made_of_build hbuild
          have hasked := hs _ entry (hentries entry List.mem_cons_self) given made hmade dsn dsn' h
          simp only [bind, Except.bind, hasked]
  rw [factoryFor, factoryFor, h]
  exact hall _ fun entry he => he

theorem discover_answers (hs : SchemeOnly ω ρ υ) (t : Discovering) (dsn : Dsn) :
    Stateful.Answers Kept (discover t dsn : Asking ω ρ υ _) (factoryFor t dsn) := by
  intro d hd
  unfold discover
  cases hknown : (d t).get? dsn.scheme with
  | some known => exact ⟨(hd t _ known hknown dsn rfl).symm, hd⟩
  | none =>
    cases hfound : (factoryFor t dsn : Except (Exc ω) (Option (Factory ω ρ υ))) with
    | error e => exact ⟨rfl, hd⟩
    | ok found =>
      cases found with
      | none => exact ⟨rfl, hd⟩
      | some known =>
        refine ⟨rfl, fun t' scheme a ha dsn' hdsn' => ?_⟩
        by_cases ht : t' = t
        · subst ht
          simp only [Function.update_self, Dict.get?_set] at ha
          split_ifs at ha with hscheme
          · obtain rfl := Option.some.inj ha
            rw [factoryFor_congr hs t' (hdsn'.trans hscheme), hfound]
          · exact hd t' scheme a ha dsn' hdsn'
        · simp only [Function.update_of_ne ht] at ha
          exact hd t' scheme a ha dsn' hdsn'

theorem discover_steady (hs : SchemeOnly ω ρ υ) (t : Discovering) (dsn : Dsn) :
    Stateful.Steady Kept (discover t dsn : Asking ω ρ υ _) := ⟨_, discover_answers hs t dsn⟩

namespace Factory

mutual

theorem supports_steady (hs : SchemeOnly ω ρ υ) (dsn : Dsn) :
    ∀ factory : Factory ω ρ υ, Stateful.Steady Kept (supports dsn factory)
  | .adapter a => Stateful.steady_pure (a.supports dsn)
  | .delegating _ factories => anySupports_steady hs dsn factories
  | .discovering t => (discover_steady hs t dsn).bind fun _ => Stateful.steady_pure _

theorem anySupports_steady (hs : SchemeOnly ω ρ υ) (dsn : Dsn) :
    ∀ factories : List (Factory ω ρ υ), Stateful.Steady Kept (anySupports dsn factories)
  | [] => Stateful.steady_pure false
  | factory :: factories => by
    rw [anySupports]
    apply (supports_steady hs dsn factory).bind
    intro supported
    cases supported with
    | true => exact Stateful.steady_pure true
    | false => exact anySupports_steady hs dsn factories

end

mutual

theorem servingDsn_steady (hs : SchemeOnly ω ρ υ) (name : String) (dsn : Dsn) :
    ∀ factory : Factory ω ρ υ, Stateful.Steady Kept (servingDsn name dsn factory)
  | .adapter a => Stateful.steady_pure (Factory.adapter a)
  | .delegating _ factories => servingAmong_steady hs name dsn factories
  | .discovering t => by
    rw [servingDsn]
    apply (discover_steady hs t dsn).bind
    intro found
    cases found with
    | none => exact Stateful.steady_lift _
    | some discovered => exact Stateful.steady_pure discovered

theorem servingAmong_steady (hs : SchemeOnly ω ρ υ) (name : String) (dsn : Dsn) :
    ∀ factories : List (Factory ω ρ υ), Stateful.Steady Kept (servingAmong name dsn factories)
  | [] => Stateful.steady_lift _
  | factory :: factories => by
    rw [servingAmong]
    apply (supports_steady hs dsn factory).bind
    intro supported
    cases supported with
    | true => exact servingDsn_steady hs name dsn factory
    | false => exact servingAmong_steady hs name dsn factories

end

/-- What serves a group does not depend on what was asked before. -/
theorem serving_steady (hs : SchemeOnly ω ρ υ) (factory : Factory ω ρ υ) (part : Part) :
    Stateful.Steady Kept (serving factory part) := by
  apply (Stateful.steady_lift _).bind
  intro dsn
  exact servingDsn_steady hs _ dsn factory

end Factory
end Steady

end XtrMessenger.Transport
