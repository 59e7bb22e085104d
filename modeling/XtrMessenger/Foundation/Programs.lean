import XtrMessenger.Foundation.Traced

/-! Computations that may hand their work on and go on with what comes of it. -/
namespace XtrMessenger.Foundation

inductive Program (κ ε α : Type)
  | finish (result : Except ε α)
  | call (call : κ) (rest : Program κ ε α)
  /-- The work is handed on, as `a`. -/
  | next (a : α) (rest : Except ε α → Program κ ε α)

namespace Program
variable {κ ε α β : Type}

/-- What it does, where handing on does `next`. -/
def within (next : α → Traced κ ε α) : Program κ ε α → Traced κ ε α
  | finish result => Traced.lift result
  | call c rest => ⟨c :: (rest.within next).calls, (rest.within next).result⟩
  | .next a rest =>
    let after := (rest (next a).result).within next
    ⟨(next a).calls ++ after.calls, after.result⟩

/-- It hands nothing on. -/
def Ends : Program κ ε α → Prop
  | finish _ => True
  | call _ rest => rest.Ends
  | next _ _ => False

/-- It hands its work on once at most, whatever comes of it. -/
def Once : Program κ ε α → Prop
  | finish _ => True
  | call _ rest => rest.Once
  | next _ rest => ∀ result, (rest result).Ends

/-- Each in turn, the work of one handed on to the next; past the last it is what it is. -/
def composed : List (α → Program κ ε α) → α → Traced κ ε α
  | [], a => pure a
  | program :: rest, a => (program a).within (composed rest)

/-- What is done with what was returned; what was raised is raised on. -/
def onward (k : β → Program κ ε α) : Except ε β → Program κ ε α
  | .ok b => k b
  | .error e => finish (.error e)

/-- A computation, then what is to be done with what it returned. -/
def after (x : Traced κ ε β) (k : β → Program κ ε α) : Program κ ε α :=
  x.calls.foldr call (onward k x.result)

theorem within_calls (next : α → Traced κ ε α) (calls : List κ) (p : Program κ ε α) :
    (calls.foldr call p).within next =
      ⟨calls ++ (p.within next).calls, (p.within next).result⟩ := by
  induction calls with
  | nil => rfl
  | cons c calls ih => simp [within, ih]

theorem within_after (next : α → Traced κ ε α) (x : Traced κ ε β) (k : β → Program κ ε α) :
    (after x k).within next = x >>= fun b => (k b).within next := by
  unfold after
  rw [within_calls]
  cases hx : x.result with
  | error e =>
    rw [Traced.bind_of_error _ hx]
    exact congrArg (Traced.mk · _) (List.append_nil _)
  | ok b =>
    rw [Traced.bind_of_ok _ hx]
    rfl

theorem within_ite (next : α → Traced κ ε α) (c : Prop) [Decidable c] (p q : Program κ ε α) :
    (if c then p else q).within next = if c then p.within next else q.within next :=
  apply_ite (within next) c p q

theorem once_ite {c : Prop} [Decidable c] {p q : Program κ ε α} (hp : p.Once) (hq : q.Once) :
    (if c then p else q).Once := by
  split_ifs
  · exact hp
  · exact hq

theorem once_after (x : Traced κ ε β) {k : β → Program κ ε α} (h : ∀ b, (k b).Once) :
    (after x k).Once := by
  unfold after
  induction x.calls with
  | nil =>
    cases x.result with
    | error e => trivial
    | ok b => exact h b
  | cons c calls ih => exact ih

end Program
end XtrMessenger.Foundation
