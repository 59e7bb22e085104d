import XtrMessenger.Transport.Serving
import XtrMessenger.Foundation.Machine

/-! The objects behind a `TransportFactory`: discovery builds a new one each time it builds, and
what it built is kept, so that a connection is served by one object. -/
namespace XtrMessenger.Transport.Sharing
open Foundation Dsn
variable {ω ρ υ : Type}

namespace Identity

mutual

/-- The same, made of other objects: each identity is greater by `k`. -/
def shift (k : Nat) : Factory ω ρ υ → Factory ω ρ υ
  | .adapter a => .adapter { a with id := k + a.id }
  | .delegating id factories => .delegating (k + id) (shiftAll k factories)
  | .discovering t => .discovering { t with id := k + t.id }

def shiftAll (k : Nat) : List (Factory ω ρ υ) → List (Factory ω ρ υ)
  | [] => []
  | factory :: factories => shift k factory :: shiftAll k factories

end

mutual

/-- No object of a factory has this identity or a greater one. -/
def span : Factory ω ρ υ → Nat
  | .adapter a => a.id + 1
  | .delegating id factories => max (id + 1) (spanAll factories)
  | .discovering t => t.id + 1

def spanAll : List (Factory ω ρ υ) → Nat
  | [] => 0
  | factory :: factories => max (span factory) (spanAll factories)

end

end Identity

/-- What the composites discovered, and the identity the next object built has. -/
structure Discoveries (ω ρ υ : Type) where
  discovered : Discovered ω ρ υ := undiscovered
  built : Nat := 0

/-- `self._discovered[scheme] = factory`. -/
def Discoveries.keep (s : Discoveries ω ρ υ) (t : Discovering) (scheme : List Char)
    (factory : Factory ω ρ υ) : Discoveries ω ρ υ :=
  { s with discovered := Function.update s.discovered t ((s.discovered t).set scheme factory) }

abbrev Seeking (ω ρ υ α : Type) := Stateful (Discoveries ω ρ υ) (Exc ω) α

/-- `isinstance(factory, TransportFactory)`. -/
def isTransportFactory : Factory ω ρ υ → Bool
  | .adapter _ => false
  | .delegating _ _ => true
  | .discovering _ => true

/-- One factory is as the other, but for the identities of its objects. -/
def Alike (factory made : Factory ω ρ υ) : Prop := ∃ k, factory = Identity.shift k made

mutual

theorem shift_zero : ∀ factory : Factory ω ρ υ, Identity.shift 0 factory = factory
  | .adapter _ => by rw [Identity.shift, Nat.zero_add]
  | .delegating _ factories => by rw [Identity.shift, Nat.zero_add, shiftAll_zero factories]
  | .discovering _ => by rw [Identity.shift, Nat.zero_add]

theorem shiftAll_zero : ∀ factories : List (Factory ω ρ υ),
    Identity.shiftAll 0 factories = factories
  | [] => rfl
  | factory :: factories => by
    rw [Identity.shiftAll, shift_zero factory, shiftAll_zero factories]

end

theorem alike_refl (factory : Factory ω ρ υ) : Alike factory factory :=
  ⟨0, (shift_zero factory).symm⟩

theorem isTransportFactory_shift (k : Nat) (factory : Factory ω ρ υ) :
    isTransportFactory (Identity.shift k factory) = isTransportFactory factory := by
  cases factory <;> rfl

theorem Alike.isTransportFactory {known made : Factory ω ρ υ} (h : Alike known made) :
    isTransportFactory known = isTransportFactory made := by
  obtain ⟨k, rfl⟩ := h
  exact isTransportFactory_shift k made

mutual

theorem askedOf_shift (finds : Option Nat → Except (Exc ω) Bool) (dsn : Dsn) (k : Nat) :
    ∀ factory : Factory ω ρ υ,
      (Identity.shift k factory).askedOf finds dsn = factory.askedOf finds dsn
  | .adapter _ => rfl
  | .delegating _ factories => anyAsked_shift finds dsn k factories
  | .discovering _ => rfl

theorem anyAsked_shift (finds : Option Nat → Except (Exc ω) Bool) (dsn : Dsn) (k : Nat) :
    ∀ factories : List (Factory ω ρ υ),
      Factory.anyAsked finds dsn (Identity.shiftAll k factories) =
        Factory.anyAsked finds dsn factories
  | [] => rfl
  | factory :: factories => by
    rw [Identity.shiftAll, Factory.anyAsked, Factory.anyAsked, askedOf_shift finds dsn k factory,
      anyAsked_shift finds dsn k factories]

end

section Objects
variable [Unicode]

/-- `_build`. What an entry point makes is made of new objects. -/
def build (entry : EntryPoint (Factory ω ρ υ)) (t : Discovering) :
    Seeking ω ρ υ (Option (Factory ω ρ υ)) := fun s =>
  match entry.build t.serializer with
  | .error e => (.error e, s)
  | .ok none => (.ok none, s)
  | .ok (some made) =>
    (.ok (some (Identity.shift s.built made)), { s with built := s.built + Identity.span made })

variable [Installed ω ρ υ]

def firstBuilt (t : Discovering) (dsn : Dsn) :
    List (EntryPoint (Factory ω ρ υ)) → Seeking ω ρ υ (Option (Factory ω ρ υ))
  | [] => pure none
  | entry :: entries => do
    match ← build entry t with
    | some factory =>
      if ← Stateful.lift (factory.asked dsn) then return some factory
      else firstBuilt t dsn entries
    | none => firstBuilt t dsn entries

def factoryFor (t : Discovering) (dsn : Dsn) : Seeking ω ρ υ (Option (Factory ω ρ υ)) :=
  firstBuilt t dsn (Installed.entryPoints dsn.scheme)

def discover (t : Discovering) (dsn : Dsn) : Seeking ω ρ υ (Option (Factory ω ρ υ)) := fun s =>
  match (s.discovered t).get? dsn.scheme with
  | some known => (.ok (some known), s)
  | none =>
    match factoryFor t dsn s with
    | (.ok (some known), s) => (.ok (some known), s.keep t dsn.scheme known)
    | (answer, s) => (answer, s)

mutual

def supports (dsn : Dsn) : Factory ω ρ υ → Seeking ω ρ υ Bool
  | .adapter a => pure (a.supports dsn)
  | .delegating _ factories => anySupports dsn factories
  | .discovering t => do return (← discover t dsn).isSome

/-- `any(factory.supports(dsn) for factory in factories)`. -/
def anySupports (dsn : Dsn) : List (Factory ω ρ υ) → Seeking ω ρ υ Bool
  | [] => pure false
  | factory :: factories => do
    if ← supports dsn factory then return true else anySupports dsn factories

end

mutual

/-- `TransportFactory.serving`. Adapters have no such method, and are not asked. -/
def serving (part : Factory.Part) : Factory ω ρ υ → Seeking ω ρ υ (Factory ω ρ υ)
  | .adapter a => pure (.adapter a)
  | .delegating _ factories => do
    let dsn ← Stateful.lift (Factory.parsed part.1.2)
    servingAmong part dsn factories
  | .discovering t => do
    let dsn ← Stateful.lift (Factory.parsed part.1.2)
    match ← discover t dsn with
    | some discovered => return discovered
    | none => Stateful.lift (.error (unsupportedDsnError part.1.1 dsn.raw))

/-- The loop over the list. -/
def servingAmong (part : Factory.Part) (dsn : Dsn) :
    List (Factory ω ρ υ) → Seeking ω ρ υ (Factory ω ρ υ)
  | [] => Stateful.lift (.error (unsupportedDsnError part.1.1 dsn.raw))
  | factory :: factories => do
    if ← supports dsn factory then
      if isTransportFactory factory then serving part factory else return factory
    else servingAmong part dsn factories

end

/-- The calls made of composites, which may share what is behind them. `create` is `serving`, and a
call of what serves. -/
inductive Call (ω ρ υ : Type)
  | supports (factory : Factory ω ρ υ) (dsn : Dsn)
  | serving (factory : Factory ω ρ υ) (part : Factory.Part)

/-- The life of composites that were just built, whatever the next object's identity is. -/
def life : Machine (Discoveries ω ρ υ) (Call ω ρ υ) where
  init s := s.discovered = undiscovered
  step
    | s, .supports factory dsn => some (supports dsn factory s).2
    | s, .serving factory part => some (serving part factory s).2

end Objects

section Seeking
variable [Unicode] [Installed ω ρ υ]

/-- What is kept for a scheme is what discovery comes up with for its DSNs, but for identity. -/
def Sound (s : Discoveries ω ρ υ) : Prop :=
  ∀ t scheme known, (s.discovered t).get? scheme = some known → ∀ dsn : Dsn,
    dsn.scheme = scheme → ∃ made : Factory ω ρ υ,
      Transport.factoryFor t dsn = (.ok (some made) : Except (Exc ω) _) ∧ Alike known made

/-- Nothing that was discovered is dropped or replaced. -/
def Extends (s s' : Discoveries ω ρ υ) : Prop :=
  ∀ t scheme a, (s.discovered t).get? scheme = some a → (s'.discovered t).get? scheme = some a

/-- Whatever was discovered soundly before, the computation keeps it and is sound, and what it
answers, and then has discovered, meets `Q`. -/
def Asks {α : Type} (x : Seeking ω ρ υ α) (Q : Except (Exc ω) α → Discoveries ω ρ υ → Prop) :
    Prop :=
  ∀ s, Sound s → Sound (x s).2 ∧ Extends s (x s).2 ∧ Q (x s).1 (x s).2

section Rules
variable {α β : Type} {x : Seeking ω ρ υ α} {s s' : Discoveries ω ρ υ}

omit [Unicode] [Installed ω ρ υ] in
theorem Extends.refl (s : Discoveries ω ρ υ) : Extends s s := fun _ _ _ h => h

omit [Unicode] [Installed ω ρ υ] in
theorem Extends.trans {u : Discoveries ω ρ υ} (h : Extends s s') (h' : Extends s' u) :
    Extends s u := fun t scheme a ha => h' t scheme a (h t scheme a ha)

theorem asks_lift {r : Except (Exc ω) α} {Q : Except (Exc ω) α → Discoveries ω ρ υ → Prop}
    (h : ∀ s, Q r s) : Asks (Stateful.lift r) Q := fun s hs => ⟨hs, .refl s, h s⟩

theorem Asks.bind {f : α → Seeking ω ρ υ β} {Q : Except (Exc ω) α → Discoveries ω ρ υ → Prop}
    {R : Except (Exc ω) β → Discoveries ω ρ υ → Prop} (hx : Asks x Q)
    (herror : ∀ e s, Q (.error e) s → R (.error e) s)
    (hok : ∀ a s, Q (.ok a) s → Sound s →
      Sound (f a s).2 ∧ Extends s (f a s).2 ∧ R (f a s).1 (f a s).2) : Asks (x >>= f) R := by
  intro s hs
  obtain ⟨hsound, hextends, hanswer⟩ := hx s hs
  rcases hr : x s with ⟨answer, t⟩
  rw [hr] at hsound hextends hanswer
  cases answer with
  | error e =>
    rw [Stateful.bind_of_error f hr]
    exact ⟨hsound, hextends, herror e t hanswer⟩
  | ok a =>
    rw [Stateful.bind_of_ok f hr]
    obtain ⟨hsound', hextends', hanswer'⟩ := hok a t hanswer hsound
    exact ⟨hsound', hextends.trans hextends', hanswer'⟩

end Rules

/-- What a factory answers does not tell which objects it is made of. -/
theorem asked_shift (k : Nat) (dsn : Dsn) (factory : Factory ω ρ υ) :
    ((Identity.shift k factory).asked dsn : Except (Exc ω) Bool) = factory.asked dsn :=
  askedOf_shift _ dsn k factory

theorem Alike.asked {known made : Factory ω ρ υ} (h : Alike known made) (dsn : Dsn) :
    (known.asked dsn : Except (Exc ω) Bool) = made.asked dsn := by
  obtain ⟨k, rfl⟩ := h
  exact asked_shift k dsn made

section Discovering
variable {t : Discovering} {dsn : Dsn} {entry : EntryPoint (Factory ω ρ υ)}
  {entries : List (EntryPoint (Factory ω ρ υ))} {made known : Factory ω ρ υ} {e : Exc ω}

/-- The first that recognises the DSN of what the entry points make, identities apart. -/
abbrev firstMade (t : Discovering) (dsn : Dsn) (entries : List (EntryPoint (Factory ω ρ υ))) :
    Except (Exc ω) (Option (Factory ω ρ υ)) :=
  Transport.firstBuilt (Factory.asked dsn) t.serializer entries

theorem made_of_some (h : entry.build t.serializer = (.ok (some made) : Except (Exc ω) _)) :
    firstMade t dsn (entry :: entries) = (do
      if ← made.asked dsn then return some made else firstMade t dsn entries) := by
  rw [firstMade, Transport.firstBuilt, h]
  rfl

theorem made_of_none (h : entry.build t.serializer = (.ok none : Except (Exc ω) _)) :
    firstMade t dsn (entry :: entries) = firstMade t dsn entries := by
  rw [firstMade, Transport.firstBuilt, h]
  rfl

theorem made_of_error (h : entry.build t.serializer = (.error e : Except (Exc ω) _)) :
    firstMade t dsn (entry :: entries) = .error e := by
  rw [firstMade, Transport.firstBuilt, h]
  rfl

/-- What is found says that it recognises the DSN; what is raised is a missing serializer, or what a
factory raised when it was asked. -/
inductive Ends (dsn : Dsn) (entries : List (EntryPoint (Factory ω ρ υ))) :
    Except (Exc ω) (Option (Factory ω ρ υ)) → Prop
  | missing (scheme : List Char) : Ends dsn entries (.error (missingSerializerError scheme))
  | raised {entry : EntryPoint (Factory ω ρ υ)} {given : Option Nat} {made : Factory ω ρ υ}
      {e : Exc ω} (hm : entry ∈ entries) (hmade : entry.made given = some made)
      (hasked : made.asked dsn = .error e) : Ends dsn entries (.error e)
  | none : Ends dsn entries (.ok none)
  | some {made : Factory ω ρ υ} (hasked : made.asked dsn = (.ok true : Except (Exc ω) Bool)) :
      Ends dsn entries (.ok (some made))

theorem Ends.cons {answer : Except (Exc ω) (Option (Factory ω ρ υ))} (h : Ends dsn entries answer) :
    Ends dsn (entry :: entries) answer := by
  cases h with
  | missing scheme => exact .missing scheme
  | raised hm hmade hasked => exact .raised (List.mem_cons_of_mem _ hm) hmade hasked
  | none => exact .none
  | some hasked => exact .some hasked

theorem firstMade_ends (t : Discovering) (dsn : Dsn) (entries : List (EntryPoint (Factory ω ρ υ))) :
    Ends dsn entries (firstMade t dsn entries) := by
  induction entries with
  | nil => exact .none
  | cons entry entries ih =>
    cases hbuild : (entry.build t.serializer : Except (Exc ω) _) with
    | error e =>
      rw [made_of_error hbuild]
      unfold EntryPoint.build at hbuild
      split_ifs at hbuild
      exact Except.error.inj hbuild ▸ .missing _
    | ok built =>
      cases built with
      | none =>
        rw [made_of_none hbuild]
        exact ih.cons
      | some made =>
        obtain ⟨given, hmade⟩ := made_of_build hbuild
        rw [made_of_some hbuild]
        rcases hasked : (made.asked dsn : Except (Exc ω) Bool) with e | _ | _
        · exact .raised List.mem_cons_self hmade hasked
        · exact ih.cons
        · exact .some hasked

theorem asked_of_made (h : firstMade t dsn entries = .ok (some made)) :
    made.asked dsn = (.ok true : Except (Exc ω) Bool) := by
  have hends := firstMade_ends t dsn entries
  rw [h] at hends
  cases hends with
  | some hasked => exact hasked

/-- But for the identities of objects, what is built is what the entry points make. -/
theorem firstBuilt_answers (t : Discovering) (dsn : Dsn)
    (entries : List (EntryPoint (Factory ω ρ υ))) (s : Discoveries ω ρ υ) :
    (firstBuilt t dsn entries s).2.discovered = s.discovered ∧ ∃ k,
      (firstBuilt t dsn entries s).1 =
        (firstMade t dsn entries).map (Option.map (Identity.shift k)) := by
  induction entries generalizing s with
  | nil => exact ⟨rfl, 0, rfl⟩
  | cons entry entries ih =>
    cases hbuild : (entry.build t.serializer : Except (Exc ω) _) with
    | error e =>
      have hb : build entry t s = (.error e, s) := by rw [build, hbuild]
      rw [firstBuilt, Stateful.bind_of_error _ hb, made_of_error hbuild]
      exact ⟨rfl, 0, rfl⟩
    | ok built =>
      cases built with
      | none =>
        have hb : build entry t s = (.ok none, s) := by rw [build, hbuild]
        rw [firstBuilt, Stateful.bind_of_ok _ hb, made_of_none hbuild]
        exact ih s
      | some made =>
        have hb : build entry t s = (.ok (some (Identity.shift s.built made)),
            { s with built := s.built + Identity.span made }) := by rw [build, hbuild]
        rw [firstBuilt, Stateful.bind_of_ok _ hb, made_of_some hbuild]
        dsimp only
        rw [asked_shift]
        rcases hasked : (made.asked dsn : Except (Exc ω) Bool) with e | _ | _
        · exact ⟨rfl, 0, rfl⟩
        · exact ih { s with built := s.built + Identity.span made }
        · exact ⟨rfl, s.built, rfl⟩

omit [Unicode] [Installed ω ρ υ] in
theorem get?_keep (s : Discoveries ω ρ υ) (t t' : Discovering) (scheme scheme' : List Char)
    (a : Factory ω ρ υ) : ((s.keep t scheme a).discovered t').get? scheme' =
      if t' = t ∧ scheme' = scheme then some a else (s.discovered t').get? scheme' := by
  unfold Discoveries.keep
  rcases eq_or_ne t' t with rfl | hne
  · simp [Dict.get?_set]
  · simp [hne]

omit [Unicode] [Installed ω ρ υ] in
theorem extends_keep {s : Discoveries ω ρ υ} {scheme : List Char}
    (h : (s.discovered t).get? scheme = none) (a : Factory ω ρ υ) :
    Extends s (s.keep t scheme a) := by
  intro t' scheme' a' ha
  rw [get?_keep, if_neg]
  · exact ha
  · rintro ⟨rfl, rfl⟩
    cases h.symm.trans ha

/-- What discovery finds for one DSN of a scheme it finds for every other, so it may be kept. -/
theorem Sound.keep (hs : SchemeOnly ω ρ υ) {s : Discoveries ω ρ υ} (h : Sound s)
    (hfound : Transport.factoryFor t dsn = (.ok (some made) : Except (Exc ω) _))
    (halike : Alike known made) : Sound (s.keep t dsn.scheme known) := by
  intro t' scheme a ha dsn' hdsn'
  rw [get?_keep] at ha
  split_ifs at ha with hit
  · obtain ⟨rfl, rfl⟩ := hit
    obtain rfl := Option.some.inj ha
    have hmade : Transport.factoryFor t' dsn' = (.ok (some made) : Except (Exc ω) _) :=
      (factoryFor_congr hs t' hdsn').trans hfound
    exact ⟨made, hmade, halike⟩
  · exact h t' scheme a ha dsn' hdsn'

/-- A discovery answers what there is to find, and keeps it. -/
inductive Found (t : Discovering) (dsn : Dsn) :
    Except (Exc ω) (Option (Factory ω ρ υ)) → Discoveries ω ρ υ → Prop
  | error {e : Exc ω} {s : Discoveries ω ρ υ} :
      Transport.factoryFor t dsn = (.error e : Except (Exc ω) (Option (Factory ω ρ υ))) →
      Found t dsn (.error e) s
  | none {s : Discoveries ω ρ υ} :
      Transport.factoryFor t dsn = (.ok none : Except (Exc ω) (Option (Factory ω ρ υ))) →
      Found t dsn (.ok none) s
  | some {made known : Factory ω ρ υ} {s : Discoveries ω ρ υ} :
      Transport.factoryFor t dsn = (.ok (some made) : Except (Exc ω) (Option (Factory ω ρ υ))) →
      Alike known made → (s.discovered t).get? dsn.scheme = some known →
      Found t dsn (.ok (some known)) s

theorem discover_asks (hs : SchemeOnly ω ρ υ) (t : Discovering) (dsn : Dsn) :
    Asks (discover t dsn) (Found (ω := ω) (ρ := ρ) (υ := υ) t dsn) := by
  intro s hsound
  unfold discover
  cases hknown : (s.discovered t).get? dsn.scheme with
  | some known =>
    obtain ⟨made, hmade, halike⟩ := hsound t _ known hknown dsn rfl
    exact ⟨hsound, .refl s, .some hmade halike hknown⟩
  | none =>
    obtain ⟨hkept, k, hanswer⟩ : (factoryFor t dsn s).2.discovered = s.discovered ∧ ∃ k,
        (factoryFor t dsn s).1 =
          (Transport.factoryFor t dsn).map (Option.map (Identity.shift k)) :=
      firstBuilt_answers t dsn (Installed.entryPoints dsn.scheme) s
    rcases hr : factoryFor t dsn s with ⟨answer, s'⟩
    rw [hr] at hkept hanswer
    dsimp only at hkept hanswer
    have hsound' : Sound s' := fun t' scheme a ha => hsound t' scheme a (hkept ▸ ha)
    have hextends : Extends s s' := fun t' scheme a ha => by rwa [hkept]
    cases hfound : (Transport.factoryFor t dsn : Except (Exc ω) (Option (Factory ω ρ υ))) with
    | error e =>
      rw [hfound] at hanswer
      obtain rfl : answer = .error e := hanswer
      exact ⟨hsound', hextends, .error hfound⟩
    | ok found =>
      rw [hfound] at hanswer
      cases found with
      | none =>
        obtain rfl : answer = .ok none := hanswer
        exact ⟨hsound', hextends, .none hfound⟩
      | some made =>
        obtain rfl : answer = .ok (some (Identity.shift k made)) := hanswer
        have hnew : (s'.discovered t).get? dsn.scheme = none := by rwa [hkept]
        have hkeeps := extends_keep hnew (Identity.shift k made)
        refine ⟨hsound'.keep hs hfound ⟨k, rfl⟩, hextends.trans hkeeps, .some hfound ⟨k, rfl⟩ ?_⟩
        rw [get?_keep, if_pos ⟨rfl, rfl⟩]

end Discovering

end Seeking
end XtrMessenger.Transport.Sharing
