import Mathlib.Data.List.Basic
import Mathlib.Tactic.Tauto

/-! Computations that log the calls they make and end by returning or raising. -/
namespace XtrMessenger.Foundation

/-- The calls made, in order, and how the computation ended. -/
structure Traced (κ ε α : Type) where
  calls : List κ
  result : Except ε α

namespace Traced
variable {κ ε ε' α β : Type}

protected def pure (a : α) : Traced κ ε α := ⟨[], .ok a⟩

protected def bind (x : Traced κ ε α) (f : α → Traced κ ε β) : Traced κ ε β :=
  match x.result with
  | .ok a => ⟨x.calls ++ (f a).calls, (f a).result⟩
  | .error e => ⟨x.calls, .error e⟩

instance : Monad (Traced κ ε) where
  pure := Traced.pure
  bind := Traced.bind

/-- One call, with its answer. -/
def call (c : κ) (answer : Except ε α) : Traced κ ε α := ⟨[c], answer⟩

def lift (r : Except ε α) : Traced κ ε α := ⟨[], r⟩

/-- `try: x` with whatever it raised handed on as a value. -/
def attempt (x : Traced κ ε α) : Traced κ ε' (Except ε α) := ⟨x.calls, .ok x.result⟩

def mapError (f : ε → ε') (x : Traced κ ε α) : Traced κ ε' α := ⟨x.calls, x.result.mapError f⟩

def mapCalls {κ' : Type} (f : κ → κ') (x : Traced κ ε α) : Traced κ' ε α :=
  ⟨x.calls.map f, x.result⟩

/-- `try: x finally: y`: what `y` raises takes the place of how `x` ended. -/
def finallyDo (x : Traced κ ε α) (y : Traced κ ε Unit) : Traced κ ε α :=
  ⟨x.calls ++ y.calls, match y.result with
    | .ok _ => x.result
    | .error e => .error e⟩

@[simp] theorem pure_calls (a : α) : (pure a : Traced κ ε α).calls = [] := rfl
@[simp] theorem pure_result (a : α) : (pure a : Traced κ ε α).result = .ok a := rfl

@[simp] theorem call_calls (c : κ) (r : Except ε α) : (call c r).calls = [c] := rfl
@[simp] theorem call_result (c : κ) (r : Except ε α) : (call c r).result = r := rfl

@[simp] theorem lift_calls (r : Except ε α) : (lift r : Traced κ ε α).calls = [] := rfl
@[simp] theorem lift_result (r : Except ε α) : (lift r : Traced κ ε α).result = r := rfl

@[simp] theorem attempt_calls (x : Traced κ ε α) :
    (attempt x : Traced κ ε' (Except ε α)).calls = x.calls := rfl
@[simp] theorem attempt_result (x : Traced κ ε α) :
    (attempt x : Traced κ ε' (Except ε α)).result = .ok x.result := rfl

@[simp] theorem mapError_calls (f : ε → ε') (x : Traced κ ε α) :
    (x.mapError f).calls = x.calls := rfl
@[simp] theorem mapError_result (f : ε → ε') (x : Traced κ ε α) :
    (x.mapError f).result = x.result.mapError f := rfl

@[simp] theorem mapCalls_calls {κ' : Type} (f : κ → κ') (x : Traced κ ε α) :
    (x.mapCalls f).calls = x.calls.map f := rfl
@[simp] theorem mapCalls_result {κ' : Type} (f : κ → κ') (x : Traced κ ε α) :
    (x.mapCalls f).result = x.result := rfl

@[simp] theorem finallyDo_calls (x : Traced κ ε α) (y : Traced κ ε Unit) :
    (x.finallyDo y).calls = x.calls ++ y.calls := rfl

theorem bind_of_ok {x : Traced κ ε α} {a : α} (f : α → Traced κ ε β) (h : x.result = .ok a) :
    x >>= f = ⟨x.calls ++ (f a).calls, (f a).result⟩ := by
  change Traced.bind x f = _
  simp only [Traced.bind, h]

theorem bind_of_error {x : Traced κ ε α} {e : ε} (f : α → Traced κ ε β)
    (h : x.result = .error e) : x >>= f = ⟨x.calls, .error e⟩ := by
  change Traced.bind x f = _
  simp only [Traced.bind, h]

theorem mem_bind_iff {x : Traced κ ε α} {f : α → Traced κ ε β} {c : κ} :
    c ∈ (x >>= f).calls ↔ c ∈ x.calls ∨ ∃ a, x.result = .ok a ∧ c ∈ (f a).calls := by
  rcases hx : x.result with e | a
  · rw [bind_of_error f hx]
    simp
  · rw [bind_of_ok f hx]
    simp

theorem mem_bind_calls {x : Traced κ ε α} {c : κ} (h : c ∈ x.calls) (f : α → Traced κ ε β) :
    c ∈ (x >>= f).calls := mem_bind_iff.mpr (.inl h)

@[simp] theorem pure_bind (a : α) (f : α → Traced κ ε β) : pure a >>= f = f a := rfl

@[simp] theorem attempt_bind (x : Traced κ ε α) (f : Except ε α → Traced κ ε' β) :
    attempt x >>= f = ⟨x.calls ++ (f x.result).calls, (f x.result).result⟩ := rfl

theorem bind_pure (x : Traced κ ε α) (g : α → β) :
    x >>= (fun a => pure (g a)) = ⟨x.calls, x.result.map g⟩ := by
  rcases h : x.result with e | a
  · rw [bind_of_error _ h]
    rfl
  · rw [bind_of_ok _ h]
    simp [Except.map]

section Ensures

/-- Whatever the computation returns meets `Q`. -/
def Ensures (x : Traced κ ε α) (Q : α → Prop) : Prop := ∀ a, x.result = .ok a → Q a

variable {x : Traced κ ε α} {Q : α → Prop} {R : β → Prop}

theorem Ensures.mono (h : x.Ensures Q) {Q' : α → Prop} (himp : ∀ a, Q a → Q' a) : x.Ensures Q' :=
  fun a ha => himp a (h a ha)

theorem ensures_pure {a : α} (h : Q a) : (pure a : Traced κ ε α).Ensures Q := by
  intro b hb
  exact Except.ok.inj hb ▸ h

theorem ensures_error (e : ε) : (lift (.error e) : Traced κ ε α).Ensures Q := by
  intro a ha
  simp at ha

/-- The rule of sequencing: what the first returns is what the rest starts from. -/
theorem Ensures.bind {f : α → Traced κ ε β} (hx : x.Ensures Q) (hf : ∀ a, Q a → (f a).Ensures R) :
    (x >>= f).Ensures R := by
  intro b hb
  rcases hr : x.result with e | a
  · rw [bind_of_error f hr] at hb
    simp at hb
  · rw [bind_of_ok f hr] at hb
    exact hf a (hx a hr) b hb

theorem ensures_true (x : Traced κ ε α) : x.Ensures fun _ => True := fun _ _ => trivial

theorem ensures_call {c : κ} {answer : Except ε α} (h : ∀ a, answer = .ok a → Q a) :
    (call c answer).Ensures Q := h

/-- What is done about a value and returns nothing. -/
theorem Ensures.andThen (h : x.Ensures Q) (f : α → Except ε Unit) :
    (do let a ← x; lift (f a); return a).Ensures Q :=
  h.bind fun a ha => (ensures_true (lift (f a))).bind fun _ _ => ensures_pure ha

theorem Ensures.finallyDo (h : x.Ensures Q) (y : Traced κ ε Unit) : (x.finallyDo y).Ensures Q := by
  intro a ha
  rcases hy : y.result with e | u
  · simp [Traced.finallyDo, hy] at ha
  · exact h a (by simpa [Traced.finallyDo, hy] using ha)

end Ensures

section Follows

/-- One computation is another, but that something may be raised once it returned, where it is not
`quiet`. -/
structure Follows (quiet : Prop) (run inner : Traced κ ε α) : Prop where
  calls : run.calls = inner.calls
  result : run.result = inner.result ∨
    ¬quiet ∧ ∃ a e, inner.result = .ok a ∧ run.result = .error e

variable {quiet : Prop} {run mid inner : Traced κ ε α}

theorem Follows.refl (run : Traced κ ε α) : Follows quiet run run := ⟨rfl, .inl rfl⟩

theorem Follows.trans (h : Follows quiet run mid) (h' : Follows quiet mid inner) :
    Follows quiet run inner := by
  refine ⟨h.calls.trans h'.calls, ?_⟩
  obtain hr | ⟨hq, a, e, hmid, hrun⟩ := h.result
  · rw [hr]
    exact h'.result
  · obtain hm | ⟨-, b, e', -, hmid'⟩ := h'.result
    · exact .inr ⟨hq, a, e, hm ▸ hmid, hrun⟩
    · simp [hmid] at hmid'

/-- What is made of the values returned follows too. -/
theorem Follows.map (h : Follows quiet run inner) (g : α → β) :
    Follows quiet (run >>= fun a => pure (g a)) ⟨inner.calls, inner.result.map g⟩ := by
  rw [bind_pure]
  refine ⟨h.calls, ?_⟩
  obtain hr | ⟨hq, a, e, ha, he⟩ := h.result
  · exact .inl (congrArg (Except.map g) hr)
  · exact .inr ⟨hq, g a, e, by simp [ha, Except.map], by simp [he, Except.map]⟩

theorem follows_andThen (x : Traced κ ε α) {f : α → Except ε Unit}
    (h : quiet → ∀ a, f a = .ok ()) :
    Follows quiet (do let a ← x; lift (f a); return a) x := by
  rcases hx : x.result with e | a
  · rw [bind_of_error _ hx]
    exact ⟨rfl, .inl hx.symm⟩
  · rw [bind_of_ok _ hx]
    rcases hf : f a with e | u
    · rw [bind_of_error (e := e) _ rfl]
      refine ⟨by simp, .inr ⟨fun hq => ?_, a, e, hx, rfl⟩⟩
      simp [h hq a] at hf
    · rw [bind_of_ok (a := u) _ rfl]
      exact ⟨by simp, .inl hx.symm⟩

/-- What is returned was returned before. -/
theorem Follows.returned (h : Follows quiet run inner) {a : α} (ha : run.result = .ok a) :
    inner.result = .ok a := by
  obtain hr | ⟨-, b, e, -, he⟩ := h.result
  · exact hr.symm.trans ha
  · simp [ha] at he

theorem Follows.result_eq (h : Follows quiet run inner) (hq : quiet) : run.result = inner.result :=
  h.result.elim id fun hr => absurd hq hr.1

theorem Follows.raised (h : Follows quiet run inner) {e : ε} (he : inner.result = .error e) :
    run = inner := by
  obtain hr | ⟨-, b, e', hb, -⟩ := h.result
  · obtain ⟨calls, result⟩ := run
    obtain ⟨calls', result'⟩ := inner
    obtain rfl : calls = calls' := h.calls
    obtain rfl : result = result' := hr
    rfl
  · simp [he] at hb

end Follows

section Tries
variable {raises : κ → Option ε} {l l' : List κ} {x : Traced κ ε Unit}

/-- The calls of `l` are made in order, up to the first that raises. -/
inductive Tries (raises : κ → Option ε) (l : List κ) (x : Traced κ ε Unit) : Prop
  | all (hnone : ∀ c ∈ l, raises c = none) (hcalls : x.calls = l) (hresult : x.result = .ok ())
  | stopped {pre post : List κ} {c : κ} {e : ε} (hl : l = pre ++ c :: post)
      (hnone : ∀ c ∈ pre, raises c = none) (hraises : raises c = some e)
      (hcalls : x.calls = pre ++ [c]) (hresult : x.result = .error e)

theorem tries_pure : Tries raises [] (pure () : Traced κ ε Unit) := .all (by simp) rfl rfl

theorem tries_one {c : κ} (hcalls : x.calls = [c])
    (h : ∀ e, raises c = some e ↔ x.result = .error e) : Tries raises [c] x := by
  cases hx : x.result with
  | error e =>
    have hnone : ∀ c ∈ ([] : List κ), raises c = none := by simp
    exact .stopped rfl hnone ((h e).mpr hx) hcalls hx
  | ok u =>
    refine .all (fun c' hc => ?_) hcalls hx
    rw [List.mem_singleton.mp hc, Option.eq_none_iff_forall_ne_some]
    intro e he
    have herror := (h e).mp he
    rw [hx] at herror
    exact absurd herror (by simp)

theorem Tries.andThen (hx : Tries raises l x) {y : Traced κ ε Unit} (hy : Tries raises l' y) :
    Tries raises (l ++ l') (do x; y) := by
  cases hx with
  | stopped hl hnone hraises hcalls hresult =>
    rw [bind_of_error _ hresult]
    refine .stopped (by rw [hl, List.append_assoc]; rfl) hnone hraises hcalls rfl
  | all hnone hcalls hresult =>
    rw [bind_of_ok _ hresult, hcalls]
    cases hy with
    | all hnone' hcalls' hresult' =>
      exact .all (List.forall_mem_append.mpr ⟨hnone, hnone'⟩) (by rw [hcalls']) hresult'
    | stopped hl' hnone' hraises' hcalls' hresult' =>
      refine .stopped (by rw [hl', ← List.append_assoc])
        (List.forall_mem_append.mpr ⟨hnone, hnone'⟩) hraises' ?_ hresult'
      simp [hcalls']

theorem Tries.forM {α : Type} {calls : α → List κ} {f : α → Traced κ ε Unit}
    (h : ∀ a, Tries raises (calls a) (f a)) (as : List α) :
    Tries raises (as.flatMap calls) (as.forM f) := by
  induction as with
  | nil => exact tries_pure
  | cons a as ih =>
    rw [List.flatMap_cons]
    exact (h a).andThen ih

/-- Every call is made exactly when what comes after one that raises was made before it. -/
theorem Tries.mem_calls_iff (h : Tries raises l x) : (∀ c ∈ l, c ∈ x.calls) ↔
    ∀ pre c post, l = pre ++ c :: post → raises c ≠ none → ∀ c' ∈ post, c' ∈ pre ++ [c] := by
  cases h with
  | all hnone hcalls _ =>
    rw [hcalls]
    apply iff_of_true (fun c hc => hc)
    intro pre c post hl hraises
    exact absurd (hnone c (by simp [hl])) hraises
  | @stopped first rest stop e hl hnone hraises hcalls _ =>
    rw [hcalls]
    constructor
    · intro hall pre c post hl' hraises' c' hc'
      have hmem : c' ∈ first ++ [stop] := hall c' (by simp [hl', hc'])
      -- the first that raises comes no later than this one
      obtain ⟨as, hpre, htail⟩ | ⟨bs, hfirst, htail⟩ := List.append_eq_append_iff.mp (hl ▸ hl')
      · cases as with
        | nil =>
          obtain rfl : stop = c := by simpa using congrArg List.head? htail
          simpa [hpre] using hmem
        | cons a as =>
          obtain rfl : stop = a := by simpa using congrArg List.head? htail
          rw [hpre]
          simp only [List.mem_append, List.mem_cons, List.not_mem_nil, or_false] at hmem ⊢
          tauto
      · cases bs with
        | nil =>
          obtain rfl : c = stop := by simpa using congrArg List.head? htail
          simpa [hfirst] using hmem
        | cons b bs =>
          obtain rfl : c = b := by simpa using congrArg List.head? htail
          exact absurd (hnone c (by simp [hfirst])) hraises'
    · intro hall c hc
      rw [hl, List.mem_append, List.mem_cons] at hc
      obtain hc | rfl | hc := hc
      · exact List.mem_append_left _ hc
      · exact List.mem_append_right _ (List.mem_singleton_self c)
      · exact hall first stop rest hl (by simp [hraises]) c hc

end Tries

end Traced
end XtrMessenger.Foundation
