import Mathlib.Data.List.Induction

/-! Histories: lists of events, oldest first, in which each event is judged by what
came before it. -/
namespace XtrMessenger.Foundation
variable {ε : Type*}

/-- Every event of the history meets `P` with the events before it. -/
def Justified (P : List ε → ε → Prop) (log : List ε) : Prop :=
  ∀ pre x post, log = pre ++ x :: post → P pre x

variable {P Q : List ε → ε → Prop} {log : List ε}

theorem Justified.nil : Justified P [] := by
  intro pre x post h
  simp at h

theorem justified_concat {x : ε} :
    Justified P (log ++ [x]) ↔ Justified P log ∧ P log x := by
  constructor
  · intro h
    refine ⟨fun pre y post hy => h pre y (post ++ [x]) (by simp [hy]), h log x [] rfl⟩
  · rintro ⟨h, hx⟩ pre y post hy
    rcases List.eq_nil_or_concat post with rfl | ⟨post', z, rfl⟩
    · obtain ⟨rfl, hxy⟩ := List.append_inj' hy rfl
      obtain rfl : x = y := by simpa using hxy
      exact hx
    · have hlog : log ++ [x] = (pre ++ y :: post') ++ [z] := by simpa using hy
      obtain ⟨rfl, _⟩ := List.append_inj' hlog rfl
      exact h pre y post' rfl

theorem Justified.mono (h : Justified P log) (himp : ∀ pre x, P pre x → Q pre x) :
    Justified Q log := fun pre x post hl => himp pre x (h pre x post hl)

theorem filterMap_concat {α β : Type*} (f : α → Option β) (l : List α) (x : α) :
    (l ++ [x]).filterMap f = l.filterMap f ++ (f x).toList := by
  cases hx : f x <;> simp [hx]

/-- What each event relates to all that came before it relates each of them to all later ones. -/
theorem Justified.pairwise {β : Type*} {R : β → β → Prop} {f : ε → Option β}
    (h : Justified P log)
    (hR : ∀ pre x b, P pre x → f x = some b → ∀ a ∈ pre.filterMap f, R a b) :
    (log.filterMap f).Pairwise R := by
  induction log using List.reverseRecOn with
  | nil => exact .nil
  | append_singleton log x ih =>
    obtain ⟨hlog, hx⟩ := justified_concat.mp h
    rw [filterMap_concat, List.pairwise_append]
    refine ⟨ih hlog, ?_, fun a ha b hb => hR log x b hx (Option.mem_toList.mp hb) a ha⟩
    cases f x <;> simp

theorem filterMap_sublist {α β : Type*} {f g : α → Option β}
    (h : ∀ x b, f x = some b → g x = some b) (l : List α) :
    (l.filterMap f).Sublist (l.filterMap g) := by
  induction l with
  | nil => exact .slnil
  | cons x l ih =>
    cases hf : f x with
    | some b =>
      rw [List.filterMap_cons_some hf, List.filterMap_cons_some (h x b hf)]
      exact ih.cons_cons b
    | none =>
      rw [List.filterMap_cons_none hf]
      cases hg : g x with
      | none => rwa [List.filterMap_cons_none hg]
      | some b => exact (List.filterMap_cons_some hg) ▸ ih.cons b

end XtrMessenger.Foundation
