import Mathlib.Data.List.Basic

/-! Labelled machines with an executable step, and the states reached by runs whose
every step meets a guard. -/
namespace XtrMessenger.Foundation

/-- Initial states, and what an action makes of a state in which it can happen. -/
structure Machine (σ α : Type*) where
  init : σ → Prop
  step : σ → α → Option σ

namespace Machine
variable {σ α : Type*} (M : Machine σ α)

/-- The states of the runs from an initial state whose every step meets `ok`. -/
inductive Reach (ok : σ → α → Prop) : σ → Prop
  | start {s : σ} : M.init s → Reach ok s
  | next {s t : σ} {a : α} : Reach ok s → ok s a → M.step s a = some t → Reach ok t

/-- The states of all runs. -/
abbrev Reachable : σ → Prop := M.Reach fun _ _ => True

/-- The state a list of actions leads to, when each can happen where it is taken. -/
def run : σ → List α → Option σ
  | s, [] => some s
  | s, a :: as => (M.step s a).bind fun t => run t as

/-- As `run`, refusing every step that does not meet `ok`. -/
def runWhen (ok : σ → α → Prop) [∀ s a, Decidable (ok s a)] : σ → List α → Option σ
  | s, [] => some s
  | s, a :: as => if ok s a then (M.step s a).bind fun t => runWhen ok t as else none

variable {M} {ok ok' : σ → α → Prop} {s t : σ}

/-- The invariant rule: what holds initially and is kept by every allowed step holds
of every state reached. The step may use that its source is reached. -/
theorem Reach.invariant {P : σ → Prop} (h : M.Reach ok s) (h0 : ∀ s, M.init s → P s)
    (hstep : ∀ s a t, M.Reach ok s → P s → ok s a → M.step s a = some t → P t) : P s := by
  induction h with
  | start hi => exact h0 _ hi
  | next hr hok hs ih => exact hstep _ _ _ hr ih hok hs

theorem Reach.mono (h : M.Reach ok s) (himp : ∀ s a, ok s a → ok' s a) : M.Reach ok' s := by
  induction h with
  | start hi => exact .start hi
  | next _ hok hs ih => exact .next ih (himp _ _ hok) hs

theorem Reach.reachable (h : M.Reach ok s) : M.Reachable s := h.mono fun _ _ _ => trivial

/-- A part of a system goes through states of its own machine, when each step of the whole is
one of its own or leaves it as it is. -/
theorem Reach.part {τ β : Type*} {N : Machine τ β} {okN : τ → β → Prop} (h : M.Reach ok s)
    (part : σ → τ) (h0 : ∀ s, M.init s → N.init (part s))
    (hstep : ∀ s a t, ok s a → M.step s a = some t →
      part t = part s ∨ ∃ b, okN (part s) b ∧ N.step (part s) b = some (part t)) :
    N.Reach okN (part s) := by
  induction h with
  | start hi => exact .start (h0 _ hi)
  | next _ hok hs ih =>
    rcases hstep _ _ _ hok hs with heq | ⟨b, hb, hn⟩
    · exact heq ▸ ih
    · exact .next ih hb hn

theorem Reach.run (h : M.Reach ok s) (as : List α) (hok : ∀ s, ∀ a ∈ as, ok s a)
    (hr : M.run s as = some t) : M.Reach ok t := by
  induction as generalizing s with
  | nil => exact Option.some.inj hr ▸ h
  | cons a as ih =>
    obtain ⟨u, hu, ht⟩ := Option.bind_eq_some_iff.mp hr
    exact ih (h.next (hok s a (by simp)) hu) (fun s b hb => hok s b (by simp [hb])) ht

theorem Reachable.run (h : M.Reachable s) (as : List α) (hr : M.run s as = some t) :
    M.Reachable t := Reach.run h as (fun _ _ _ => trivial) hr

theorem Reach.runWhen [∀ s a, Decidable (ok s a)] (h : M.Reach ok s) (as : List α)
    (hr : M.runWhen ok s as = some t) : M.Reach ok t := by
  induction as generalizing s with
  | nil => exact Option.some.inj hr ▸ h
  | cons a as ih =>
    simp only [Machine.runWhen] at hr
    split_ifs at hr with hok
    obtain ⟨u, hu, ht⟩ := Option.bind_eq_some_iff.mp hr
    exact ih (h.next hok hu) ht

end Machine
end XtrMessenger.Foundation
