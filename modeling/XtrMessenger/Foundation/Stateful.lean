import Mathlib.Data.List.Forall2
import Mathlib.Order.Defs.Unbundled

/-! Computations that pass a state on, also when they raise, and those whose answer does not depend
on it. -/
namespace XtrMessenger.Foundation

def Stateful (σ ε α : Type) : Type := σ → Except ε α × σ

namespace Stateful
variable {σ ε α β : Type}

protected def bind (x : Stateful σ ε α) (f : α → Stateful σ ε β) : Stateful σ ε β := fun s =>
  match x s with
  | (.ok a, s') => f a s'
  | (.error e, s') => (.error e, s')

instance : Monad (Stateful σ ε) where
  pure a := fun s => (.ok a, s)
  bind := Stateful.bind

instance : LawfulMonad (Stateful σ ε) := LawfulMonad.mk' _
  (fun x => by
    funext s
    change Stateful.bind x _ s = x s
    rcases hx : x s with ⟨_ | a, t⟩
    · simp only [Stateful.bind, hx]
    · simp only [Stateful.bind, hx]
      rfl)
  (fun _ _ => rfl)
  (fun x f g => by
    funext s
    change Stateful.bind (Stateful.bind x f) g s =
      Stateful.bind x (fun a => Stateful.bind (f a) g) s
    rcases hx : x s with ⟨_ | a, t⟩ <;> simp only [Stateful.bind, hx])

def lift (r : Except ε α) : Stateful σ ε α := fun s => (r, s)

def get : Stateful σ ε σ := fun s => (.ok s, s)

def modify (f : σ → σ) : Stateful σ ε Unit := fun s => (.ok (), f s)

@[simp] theorem pure_apply (a : α) (s : σ) : (pure a : Stateful σ ε α) s = (.ok a, s) := rfl

@[simp] theorem lift_apply (r : Except ε α) (s : σ) : (lift r : Stateful σ ε α) s = (r, s) := rfl

@[simp] theorem get_bind_apply (f : σ → Stateful σ ε β) (s : σ) :
    (Stateful.get >>= f) s = f s s := rfl

@[simp] theorem modify_bind_apply (g : σ → σ) (f : Unit → Stateful σ ε β) (s : σ) :
    (Stateful.modify g >>= f) s = f () (g s) := rfl

theorem lift_eq_ok_iff {r : Except ε α} {s s' : σ} {a : α} :
    (lift r : Stateful σ ε α) s = (.ok a, s') ↔ r = .ok a ∧ s = s' := by
  simp

theorem bind_of_ok {x : Stateful σ ε α} {s s' : σ} {a : α} (f : α → Stateful σ ε β)
    (h : x s = (.ok a, s')) : (x >>= f) s = f a s' := by
  change Stateful.bind x f s = _
  simp only [Stateful.bind, h]

theorem bind_of_error {x : Stateful σ ε α} {s s' : σ} {e : ε} (f : α → Stateful σ ε β)
    (h : x s = (.error e, s')) : (x >>= f) s = (.error e, s') := by
  change Stateful.bind x f s = _
  simp only [Stateful.bind, h]

theorem bind_eq_ok_iff {x : Stateful σ ε α} {f : α → Stateful σ ε β} {s s' : σ} {b : β} :
    (x >>= f) s = (.ok b, s') ↔ ∃ a t, x s = (.ok a, t) ∧ f a t = (.ok b, s') := by
  change Stateful.bind x f s = _ ↔ _
  rcases hx : x s with ⟨_ | a, t⟩ <;> simp [Stateful.bind, hx]

/-- From the states of `I` the computation answers `r`, and leaves one of them. -/
def Answers (I : σ → Prop) (x : Stateful σ ε α) (r : Except ε α) : Prop :=
  ∀ s, I s → (x s).1 = r ∧ I (x s).2

/-- What the computation answers does not depend on which state of `I` it starts from. -/
def Steady (I : σ → Prop) (x : Stateful σ ε α) : Prop := ∃ r, Answers I x r

variable {I : σ → Prop}

theorem steady_lift (r : Except ε α) : Steady I (lift r : Stateful σ ε α) :=
  ⟨r, fun _ hs => ⟨rfl, hs⟩⟩

theorem steady_pure (a : α) : Steady I (pure a : Stateful σ ε α) := steady_lift (.ok a)

theorem Answers.bind {x : Stateful σ ε α} {f : α → Stateful σ ε β} {r : Except ε α}
    {r' : Except ε β} (hx : Answers I x r) (herror : ∀ e, r = .error e → r' = .error e)
    (hok : ∀ a, r = .ok a → Answers I (f a) r') : Answers I (x >>= f) r' := by
  intro s hs
  obtain ⟨hanswer, hkept⟩ := hx s hs
  rcases hr : x s with ⟨answer, s'⟩
  rw [hr] at hanswer hkept
  obtain rfl : answer = r := hanswer
  cases answer with
  | error e =>
    rw [bind_of_error f hr, herror e rfl]
    exact ⟨rfl, hkept⟩
  | ok a =>
    rw [bind_of_ok f hr]
    exact hok a rfl s' hkept

theorem Steady.bind {x : Stateful σ ε α} {f : α → Stateful σ ε β} (hx : Steady I x)
    (hf : ∀ a, Steady I (f a)) : Steady I (x >>= f) := by
  obtain ⟨r, hr⟩ := hx
  cases r with
  | error e => exact ⟨.error e, hr.bind (fun _ he => Except.error.inj he ▸ rfl) (by simp)⟩
  | ok a =>
    obtain ⟨r', hr'⟩ := hf a
    refine ⟨r', hr.bind (by simp) fun b hb => ?_⟩
    exact Except.ok.inj hb ▸ hr'

theorem Steady.mapM {γ : Type} {f : γ → Stateful σ ε α} (hf : ∀ c, Steady I (f c)) (l : List γ) :
    Steady I (l.mapM f) := by
  induction l with
  | nil => exact steady_pure []
  | cons c l ih =>
    rw [List.mapM_cons]
    apply (hf c).bind
    intro a
    apply ih.bind
    intro as
    exact steady_pure (a :: as)

/-- A steady computation answers the same from any two states. -/
theorem Steady.answer_eq {x : Stateful σ ε α} (hx : Steady I x) {s t : σ} (hs : I s) (ht : I t) :
    (x s).1 = (x t).1 := by
  obtain ⟨r, hr⟩ := hx
  rw [(hr s hs).1, (hr t ht).1]

theorem Steady.kept {x : Stateful σ ε α} (hx : Steady I x) {s : σ} (hs : I s) : I (x s).2 := by
  obtain ⟨r, hr⟩ := hx
  exact (hr s hs).2

theorem mapM_answers {γ : Type} {f : γ → Stateful σ ε α} (hf : ∀ c, Steady I (f c)) {l : List γ}
    {s s' : σ} {as : List α} (hs : I s) (h : (l.mapM f) s = (.ok as, s')) :
    List.Forall₂ (fun c a => (f c s).1 = .ok a) l as := by
  induction l generalizing as s s' with
  | nil =>
    obtain ⟨rfl, -⟩ : as = [] ∧ s' = s := by simpa [eq_comm] using h
    exact .nil
  | cons c l ih =>
    -- the rest starts from another state, from which it answers the same
    rw [List.mapM_cons] at h
    obtain ⟨a, t, ha, h⟩ := bind_eq_ok_iff.mp h
    obtain ⟨as', u, has, h⟩ := bind_eq_ok_iff.mp h
    obtain ⟨rfl, -⟩ : as = a :: as' ∧ s' = u := by simpa [eq_comm] using h
    have ht : I t := by
      have hkept := (hf c).kept hs
      rwa [ha] at hkept
    apply List.Forall₂.cons
    · rw [ha]
    · apply (ih ht has).imp
      intro c a hc
      rw [(hf c).answer_eq hs ht, hc]

/-- From the states of `I` the computation leaves one of them, and what it returns meets `Q`. -/
def Yields (I : σ → Prop) (x : Stateful σ ε α) (Q : α → Prop) : Prop :=
  ∀ s, I s → I (x s).2 ∧ ∀ a, (x s).1 = .ok a → Q a

section Yields
variable {x : Stateful σ ε α} {Q : α → Prop}

theorem yields_lift {r : Except ε α} (h : ∀ a, r = .ok a → Q a) :
    Yields I (lift r : Stateful σ ε α) Q := fun _ hs => ⟨hs, h⟩

theorem yields_pure {a : α} (h : Q a) : Yields I (pure a : Stateful σ ε α) Q := by
  apply yields_lift
  intro b hb
  exact Except.ok.inj hb ▸ h

theorem Yields.mono (h : Yields I x Q) {R : α → Prop} (himp : ∀ a, Q a → R a) : Yields I x R :=
  fun s hs => ⟨(h s hs).1, fun a ha => himp a ((h s hs).2 a ha)⟩

theorem Yields.bind {f : α → Stateful σ ε β} {R : β → Prop} (hx : Yields I x Q)
    (hf : ∀ a, Q a → Yields I (f a) R) : Yields I (x >>= f) R := by
  intro s hs
  obtain ⟨hkept, hreturned⟩ := hx s hs
  rcases hr : x s with ⟨answer, t⟩
  rw [hr] at hkept hreturned
  cases answer with
  | error e =>
    rw [bind_of_error f hr]
    exact ⟨hkept, by simp⟩
  | ok a =>
    rw [bind_of_ok f hr]
    exact hf a (hreturned a rfl) t hkept

theorem Yields.mapM {γ : Type} {f : γ → Stateful σ ε α} {R : γ → α → Prop}
    (hf : ∀ c, Yields I (f c) (R c)) (l : List γ) : Yields I (l.mapM f) (List.Forall₂ R l) := by
  induction l with
  | nil => exact yields_pure .nil
  | cons c l ih =>
    rw [List.mapM_cons]
    apply (hf c).bind
    intro a ha
    apply ih.bind
    intro as has
    exact yields_pure (.cons ha has)

theorem Yields.returned (h : Yields I x Q) {s s' : σ} {a : α} (hs : I s)
    (hr : x s = (.ok a, s')) : Q a := by
  apply (h s hs).2
  rw [hr]

end Yields

/-- From the states of `I` the computation leaves one of them, later than where it started, and what
it returns meets `Q` there. -/
def Grows (I : σ → Prop) (later : σ → σ → Prop) (x : Stateful σ ε α) (Q : α → σ → Prop) : Prop :=
  ∀ s, I s → I (x s).2 ∧ later s (x s).2 ∧ ∀ a, (x s).1 = .ok a → Q a (x s).2

section Grows
variable {later : σ → σ → Prop} {x : Stateful σ ε α} {Q : α → σ → Prop}

theorem Grows.mono (h : Grows I later x Q) {R : α → σ → Prop} (himp : ∀ a s, Q a s → R a s) :
    Grows I later x R := fun s hs => by
  obtain ⟨hkept, hlater, hreturned⟩ := h s hs
  exact ⟨hkept, hlater, fun a ha => himp a _ (hreturned a ha)⟩

variable [IsPreorder σ later]

theorem grows_lift {r : Except ε α} (h : ∀ a, r = .ok a → ∀ s, Q a s) :
    Grows I later (lift r : Stateful σ ε α) Q :=
  fun s hs => ⟨hs, refl s, fun a ha => h a ha s⟩

theorem grows_pure {a : α} (h : ∀ s, Q a s) : Grows I later (pure a : Stateful σ ε α) Q := by
  refine grows_lift fun b hb s => ?_
  obtain rfl := Except.ok.inj hb
  exact h s

/-- The rest of the computation may use what was returned before, for as long as that holds. -/
theorem Grows.bind {f : α → Stateful σ ε β} {R : β → σ → Prop} (hx : Grows I later x Q)
    (hf : ∀ a s, I s → Q a s → I (f a s).2 ∧ later s (f a s).2 ∧
      ∀ b, (f a s).1 = .ok b → R b (f a s).2) : Grows I later (x >>= f) R := by
  intro s hs
  obtain ⟨hkept, hlater, hreturned⟩ := hx s hs
  rcases hr : x s with ⟨answer, t⟩
  rw [hr] at hkept hlater hreturned
  cases answer with
  | error e =>
    rw [bind_of_error f hr]
    exact ⟨hkept, hlater, by simp⟩
  | ok a =>
    rw [bind_of_ok f hr]
    obtain ⟨hkept', hlater', hreturned'⟩ := hf a t hkept (hreturned a rfl)
    exact ⟨hkept', trans_of later hlater hlater', hreturned'⟩

theorem Grows.bind_pure {f : α → β} {R : β → σ → Prop} (hx : Grows I later x Q)
    (h : ∀ a s, Q a s → R (f a) s) : Grows I later (x >>= fun a => pure (f a)) R := by
  refine hx.bind fun a s hs ha => ⟨hs, refl s, fun b hb => ?_⟩
  obtain rfl := Except.ok.inj hb
  exact h a s ha

/-- The rest of the computation may use what was returned before, whenever later it starts. -/
theorem Grows.bind_later {f : α → Stateful σ ε β} {R : β → σ → Prop} (hx : Grows I later x Q)
    (hf : ∀ a s, Q a s → Grows (fun t => I t ∧ later s t) later (f a) R) :
    Grows I later (x >>= f) R := by
  refine hx.bind fun a s hs ha => ?_
  obtain ⟨⟨hkept, _⟩, hlater, hreturned⟩ := hf a s ha s ⟨hs, refl s⟩
  exact ⟨hkept, hlater, hreturned⟩

theorem Grows.bind_lift {r : Except ε α} {f : α → Stateful σ ε β} {R : β → σ → Prop}
    (h : ∀ a, r = .ok a → Grows I later (f a) R) : Grows I later (lift r >>= f) R := by
  intro s hs
  cases r with
  | error e =>
    have hr : (lift (.error e) : Stateful σ ε α) s = (.error e, s) := rfl
    rw [bind_of_error f hr]
    exact ⟨hs, refl s, by simp⟩
  | ok a =>
    have hr : (lift (.ok a) : Stateful σ ε α) s = (.ok a, s) := rfl
    rw [bind_of_ok f hr]
    exact h a rfl s hs

/-- What holds of each thing returned, and holds for good, holds of all of them in the end. -/
theorem Grows.mapM {γ : Type} {f : γ → Stateful σ ε α} {R : γ → α → σ → Prop}
    (hstable : ∀ c a s t, R c a s → later s t → R c a t) {l : List γ}
    (hf : ∀ c ∈ l, Grows I later (f c) (R c)) :
    Grows I later (l.mapM f) fun as s => List.Forall₂ (fun c a => R c a s) l as := by
  induction l with
  | nil => exact grows_pure fun _ => .nil
  | cons c l ih =>
    have hrest := ih fun c hc => hf c (List.mem_cons_of_mem _ hc)
    rw [List.mapM_cons]
    refine (hf c List.mem_cons_self).bind fun a s hs ha => ?_
    obtain ⟨hkept, hlater, hreturned⟩ := hrest s hs
    rcases hr : (l.mapM f) s with ⟨answer, t⟩
    rw [hr] at hkept hlater hreturned
    cases answer with
    | error e =>
      rw [bind_of_error _ hr]
      exact ⟨hkept, hlater, by simp⟩
    | ok as =>
      rw [bind_of_ok _ hr]
      refine ⟨hkept, hlater, fun b hb => ?_⟩
      obtain rfl := Except.ok.inj hb
      exact .cons (hstable c a s t ha hlater) (hreturned as rfl)

end Grows

end Stateful
end XtrMessenger.Foundation
