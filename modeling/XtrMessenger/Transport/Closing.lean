import XtrMessenger.Transport.Serving
import XtrMessenger.Foundation.Traced

/-! `TransportFactory.close_publishers`: which of the factories behind one are closed. -/
namespace XtrMessenger.Transport
open Foundation Dsn
variable {ω ρ υ : Type}

/-- The adapters that implement `PublisherClosingInterface`, each with what its closing raises. -/
abbrev Closers (ω ρ υ : Type) := Adapter ω ρ υ → Option (Option (Exc ω))

/-- A transport factory as it stands: a `TransportFactory` holds the list it was given, or what it
discovered so far. -/
inductive Held (ω ρ υ : Type)
  | adapter (adapter : Adapter ω ρ υ)
  | delegating (id : Nat) (factories : List (Held ω ρ υ))
  | discovering (composite : Discovering) (discovered : List (Held ω ρ υ))

/-- How a factory stands, with what was discovered so far. -/
inductive Factory.Stands (d : Discovered ω ρ υ) : Factory ω ρ υ → Held ω ρ υ → Prop
  | adapter (a : Adapter ω ρ υ) : Stands d (.adapter a) (.adapter a)
  | delegating {id : Nat} {factories : List (Factory ω ρ υ)} {held : List (Held ω ρ υ)}
      (h : List.Forall₂ (Stands d) factories held) :
      Stands d (.delegating id factories) (.delegating id held)
  | discovering {t : Discovering} {held : List (Held ω ρ υ)}
      (h : List.Forall₂ (Stands d) (d t).values held) :
      Stands d (.discovering t) (.discovering t held)

/-- `_behind`: what was given, or what was discovered so far. -/
def Factory.behind (d : Discovered ω ρ υ) : Factory ω ρ υ → List (Factory ω ρ υ)
  | adapter _ => []
  | delegating _ factories => factories
  | discovering t => (d t).values

namespace Held

/-- `isinstance(factory, PublisherClosingInterface)`. -/
def Implements (c : Closers ω ρ υ) : Held ω ρ υ → Prop
  | adapter a => (c a).isSome = true
  | delegating _ _ | discovering _ _ => True

def behind : Held ω ρ υ → List (Held ω ρ υ)
  | adapter _ => []
  | delegating _ factories => factories
  | discovering _ discovered => discovered

/-- `close_publishers` of an adapter that implements it. -/
def closeAdapter (c : Closers ω ρ υ) (a : Adapter ω ρ υ) : Traced (Held ω ρ υ) (Exc ω) Unit :=
  match c a with
  | none => pure ()
  | some none => Traced.call (adapter a) (.ok ())
  | some (some error) => Traced.call (adapter a) (.error error)

mutual

/-- `close_publishers` of a factory that implements it. Each call of it is logged. -/
def close (c : Closers ω ρ υ) : Held ω ρ υ → Traced (Held ω ρ υ) (Exc ω) Unit
  | adapter a => closeAdapter c a
  | delegating id factories => do
    Traced.call (delegating id factories) (.ok ())
    closeEach c factories
  | discovering t discovered => do
    Traced.call (discovering t discovered) (.ok ())
    closeEach c discovered

def closeEach (c : Closers ω ρ υ) : List (Held ω ρ υ) → Traced (Held ω ρ υ) (Exc ω) Unit
  | [] => pure ()
  | factory :: factories => do
    close c factory
    closeEach c factories

end

def closePublishers (c : Closers ω ρ υ) (root : Held ω ρ υ) : Traced (Held ω ρ υ) (Exc ω) Unit :=
  closeEach c root.behind

/-- The factory is behind another, at some depth. -/
inductive Below (g : Held ω ρ υ) : Held ω ρ υ → Prop
  | held {f : Held ω ρ υ} (h : g ∈ f.behind) : Below g f
  | deeper {f mid : Held ω ρ υ} (h : mid ∈ f.behind) (hb : Below g mid) : Below g f

mutual

/-- What implements it of a factory and what is behind it, in the order held. -/
def implementing (c : Closers ω ρ υ) : Held ω ρ υ → List (Held ω ρ υ)
  | adapter a => if (c a).isSome then [adapter a] else []
  | delegating id factories => delegating id factories :: implementingAmong c factories
  | discovering t discovered => discovering t discovered :: implementingAmong c discovered

def implementingAmong (c : Closers ω ρ υ) : List (Held ω ρ υ) → List (Held ω ρ υ)
  | [] => []
  | factory :: factories => implementing c factory ++ implementingAmong c factories

end

/-- What closing a factory raises of its own. -/
def raisesClosing (c : Closers ω ρ υ) : Held ω ρ υ → Option (Exc ω)
  | adapter a => (c a).join
  | delegating _ _ | discovering _ _ => none

variable {c : Closers ω ρ υ} {d : Discovered ω ρ υ}

/-- What is behind a factory is behind it as it stands. -/
theorem stands_behind {factory : Factory ω ρ υ} {held : Held ω ρ υ} (h : factory.Stands d held) :
    List.Forall₂ (Factory.Stands d) (factory.behind d) held.behind := by
  cases h with
  | adapter a => exact .nil
  | delegating h => exact h
  | discovering h => exact h

theorem closeAdapter_tries (a : Adapter ω ρ υ) :
    Traced.Tries (raisesClosing c) (if (c a).isSome then [adapter a] else [])
      (closeAdapter c a) := by
  unfold closeAdapter
  cases hc : c a with
  | none => exact Traced.tries_pure
  | some raised =>
    cases raised with
    | none => exact Traced.tries_one rfl (by simp [raisesClosing, hc])
    | some error => exact Traced.tries_one rfl (by simp [raisesClosing, hc])

mutual

theorem close_tries : ∀ factory : Held ω ρ υ,
    Traced.Tries (raisesClosing c) (implementing c factory) (close c factory)
  | adapter a => closeAdapter_tries a
  | delegating id factories => by
    have hself : Traced.Tries (raisesClosing c) [delegating id factories]
        (Traced.call (delegating id factories) (.ok ()) : Traced _ (Exc ω) Unit) :=
      Traced.tries_one rfl (by simp [raisesClosing])
    exact hself.andThen (closeEach_tries factories)
  | discovering t discovered => by
    have hself : Traced.Tries (raisesClosing c) [discovering t discovered]
        (Traced.call (discovering t discovered) (.ok ()) : Traced _ (Exc ω) Unit) :=
      Traced.tries_one rfl (by simp [raisesClosing])
    exact hself.andThen (closeEach_tries discovered)

theorem closeEach_tries : ∀ factories : List (Held ω ρ υ),
    Traced.Tries (raisesClosing c) (implementingAmong c factories) (closeEach c factories)
  | [] => Traced.tries_pure
  | factory :: factories => (close_tries factory).andThen (closeEach_tries factories)

end

theorem below_iff {f g : Held ω ρ υ} :
    Below g f ↔ ∃ mid ∈ f.behind, g = mid ∨ Below g mid := by
  constructor
  · intro h
    cases h with
    | held h => exact ⟨g, h, .inl rfl⟩
    | deeper h hb => exact ⟨_, h, .inr hb⟩
  · intro h
    obtain ⟨mid, hm, rfl | hb⟩ := h
    · exact .held hm
    · exact .deeper hm hb

theorem mem_implementing_adapter {a : Adapter ω ρ υ} {g : Held ω ρ υ} :
    (g ∈ if (c a).isSome then [adapter a] else []) ↔ Implements c g ∧ g = adapter a := by
  constructor
  · intro h
    split_ifs at h with hc
    · obtain rfl := List.mem_singleton.mp h
      exact ⟨hc, rfl⟩
    · simp at h
  · intro h
    obtain ⟨hc, rfl⟩ := h
    have hsome : (c a).isSome = true := hc
    rw [if_pos hsome]
    exact List.mem_singleton_self _

/-- A composite and what implements closing behind it. -/
theorem mem_cons_implementing {f g : Held ω ρ υ} (hf : Implements c f) {l : List (Held ω ρ υ)}
    (hl : g ∈ l ↔ Implements c g ∧ ∃ mid ∈ f.behind, g = mid ∨ Below g mid) :
    g ∈ f :: l ↔ Implements c g ∧ (g = f ∨ Below g f) := by
  rw [List.mem_cons, hl, below_iff]
  constructor
  · intro h
    obtain rfl | ⟨hi, hm⟩ := h
    · exact ⟨hf, .inl rfl⟩
    · exact ⟨hi, .inr hm⟩
  · intro h
    obtain ⟨hi, hm⟩ := h
    exact hm.imp id fun hb => ⟨hi, hb⟩

mutual

theorem mem_implementing {g : Held ω ρ υ} : ∀ f : Held ω ρ υ,
    g ∈ implementing c f ↔ Implements c g ∧ (g = f ∨ Below g f)
  | adapter a => by
    have hnone : ¬Below g (adapter a) := by
      rw [below_iff]
      simp [behind]
    rw [implementing, mem_implementing_adapter]
    simp [hnone]
  | delegating id factories =>
    have himplements : Implements c (delegating id factories) := trivial
    mem_cons_implementing himplements (mem_implementingAmong factories)
  | discovering t discovered =>
    have himplements : Implements c (discovering t discovered) := trivial
    mem_cons_implementing himplements (mem_implementingAmong discovered)

theorem mem_implementingAmong {g : Held ω ρ υ} : ∀ factories : List (Held ω ρ υ),
    g ∈ implementingAmong c factories ↔ Implements c g ∧ ∃ f ∈ factories, g = f ∨ Below g f
  | [] => by simp [implementingAmong]
  | factory :: factories => by
    rw [implementingAmong, List.mem_append, mem_implementing factory,
      mem_implementingAmong factories]
    simp only [List.mem_cons, exists_eq_or_imp]
    exact and_or_left.symm

end

/-- Every factory behind the root that closes publishers is asked to exactly when whatever comes
after one that raises, in the order held, came before it too. -/
theorem closes_all_iff (c : Closers ω ρ υ) (root : Held ω ρ υ) :
    (∀ g, Below g root → Implements c g → g ∈ (closePublishers c root).calls) ↔
      ∀ pre g post, implementingAmong c root.behind = pre ++ g :: post →
        raisesClosing c g ≠ none → ∀ g' ∈ post, g' ∈ pre ++ [g] := by
  rw [← (closeEach_tries root.behind).mem_calls_iff]
  constructor
  · intro h g hg
    obtain ⟨hi, hm⟩ := (mem_implementingAmong _).mp hg
    exact h g (below_iff.mpr hm) hi
  · intro h g hb hi
    exact h g ((mem_implementingAmong _).mpr ⟨hi, below_iff.mp hb⟩)

end Held

section Samples

/-- An adapter with a connection of its own. -/
def connected (id : Nat) : Adapter Int Unit Unit := ⟨id, fun _ => true, fun _ => .ok .empty, none⟩

/-- The first of the two connections fails to close. -/
def firstFails : Closers Int Unit Unit := fun a =>
  some (if a.id = 0 then some (.exception "OSError" "closed") else none)

/-- The other connection stays open. -/
theorem other_left_open : ¬∀ (c : Closers Int Unit Unit) (root : Held Int Unit Unit),
    ∀ g, Held.Below g root → Held.Implements c g → g ∈ (Held.closePublishers c root).calls := by
  intro h
  have hcalled := h firstFails (.delegating 0 [.delegating 1 [.adapter (connected 0)],
    .adapter (connected 1)]) (.adapter (connected 1)) (.held (.tail _ (.head _))) rfl
  have hcalls : (Held.closePublishers firstFails (.delegating 0
      [.delegating 1 [.adapter (connected 0)], .adapter (connected 1)])).calls =
        [.delegating 1 [.adapter (connected 0)], .adapter (connected 0)] := rfl
  rw [hcalls] at hcalled
  simp only [List.mem_cons, List.not_mem_nil, or_false, reduceCtorEq, false_or,
    Held.adapter.injEq] at hcalled
  exact absurd (congrArg Adapter.id hcalled) (by decide)

end Samples

end XtrMessenger.Transport
