import Mathlib.Logic.Function.Basic
import Mathlib.Data.List.Nodup
import Mathlib.Data.List.Induction
import Mathlib.Algebra.BigOperators.Group.Finset.Piecewise

/-! One list merged from several, each of which keeps its order. -/
namespace XtrMessenger.Foundation
variable {ι α β : Type*} [DecidableEq ι]

/-- The whole grows by one element at a time, which is also the next of one part. -/
inductive Interleaved : List α → (ι → List α) → Prop
  | nil : Interleaved [] fun _ => []
  | concat {whole : List α} {parts : ι → List α} (i : ι) (x : α) : Interleaved whole parts →
    Interleaved (whole ++ [x]) (Function.update parts i (parts i ++ [x]))

namespace Interleaved
variable {whole : List α} {parts : ι → List α} {i j : ι} {x : α}

theorem append (h : Interleaved whole parts) (i : ι) (more : List α) :
    Interleaved (whole ++ more) (Function.update parts i (parts i ++ more)) := by
  induction more using List.reverseRecOn with
  | nil => simpa using h
  | append_singleton more x ih =>
    simpa [List.append_assoc] using ih.concat i x

theorem sublist (h : Interleaved whole parts) (i : ι) : (parts i).Sublist whole := by
  induction h with
  | nil => exact .slnil
  | concat k x _ ih =>
    rcases eq_or_ne i k with rfl | hk
    · rw [Function.update_self]
      exact ih.append_right [x]
    · rw [Function.update_of_ne hk]
      exact ih.trans (List.sublist_append_left _ _)

theorem mem_iff (h : Interleaved whole parts) : x ∈ whole ↔ ∃ i, x ∈ parts i := by
  refine ⟨fun hx => ?_, fun ⟨i, hx⟩ => (h.sublist i).subset hx⟩
  induction h with
  | nil => simp at hx
  | concat k y _ ih =>
    rcases List.mem_append.mp hx with hx | hx
    · obtain ⟨i, hi⟩ := ih hx
      refine ⟨i, ?_⟩
      rcases eq_or_ne i k with rfl | hk
      · rw [Function.update_self]
        exact List.mem_append_left _ hi
      · rwa [Function.update_of_ne hk]
    · refine ⟨k, ?_⟩
      rw [Function.update_self]
      exact List.mem_append_right _ hx

/-- Where nothing is repeated, no two parts share an element. -/
theorem part_unique (h : Interleaved whole parts) (hn : whole.Nodup) (hi : x ∈ parts i)
    (hj : x ∈ parts j) : i = j := by
  induction h with
  | nil => simp at hi
  | @concat whole parts k y h ih =>
    have hold := hn.of_append_left
    have hy := List.disjoint_of_nodup_append hn
    -- what another part has was there before
    have hother : ∀ l, l ≠ k → x ∈ Function.update parts k (parts k ++ [y]) l → x ≠ y := by
      rintro l hl hx rfl
      rw [Function.update_of_ne hl] at hx
      exact hy ((h.sublist l).subset hx) (List.mem_singleton_self x)
    have hbefore : ∀ l, x ≠ y → x ∈ Function.update parts k (parts k ++ [y]) l →
        x ∈ parts l := by
      intro l hne hx
      rcases eq_or_ne l k with rfl | hl
      · rw [Function.update_self, List.mem_append, List.mem_singleton] at hx
        exact hx.resolve_right hne
      · rwa [Function.update_of_ne hl] at hx
    by_cases hxy : x = y
    · have hik : i = k := by
        by_contra hne
        exact hother i hne hi hxy
      have hjk : j = k := by
        by_contra hne
        exact hother j hne hj hxy
      exact hik.trans hjk.symm
    · exact ih hold (hbefore i hxy hi) (hbefore j hxy hj)

theorem map (h : Interleaved whole parts) (f : α → β) :
    Interleaved (whole.map f) fun i => (parts i).map f := by
  induction h with
  | nil => exact .nil
  | @concat whole parts k x _ ih =>
    have hparts : (fun i => (Function.update parts k (parts k ++ [x]) i).map f) =
        Function.update (fun i => (parts i).map f) k ((parts k).map f ++ [f x]) := by
      funext i
      rcases eq_or_ne i k with rfl | hk
      · simp
      · simp [Function.update_of_ne hk]
    rw [hparts, List.map_append]
    exact ih.concat k (f x)

theorem length [Fintype ι] (h : Interleaved whole parts) :
    whole.length = ∑ i, (parts i).length := by
  induction h with
  | nil => simp
  | @concat whole parts k x _ ih =>
    have hgrown : ∀ i, (Function.update parts k (parts k ++ [x]) i).length =
        (parts i).length + if i = k then 1 else 0 := by
      intro i
      rcases eq_or_ne i k with rfl | hk
      · simp
      · simp [hk]
    simp [hgrown, Finset.sum_add_distrib, ih]

end Interleaved
end XtrMessenger.Foundation
