import Mathlib.Data.List.DropRight

/-! Cutting a list at the first or the last place a separator stands. -/
namespace XtrMessenger.Foundation
variable {α : Type}

section Stop
variable {p : α → Bool} {s t : List α} {c : α}

theorem takeWhile_append_stop (hs : ∀ x ∈ s, p x) (hc : p c = false) :
    (s ++ c :: t).takeWhile p = s := by
  rw [List.takeWhile_append_of_pos hs, List.takeWhile_cons_of_neg (by simp [hc]), List.append_nil]

theorem dropWhile_append_stop (hs : ∀ x ∈ s, p x) (hc : p c = false) :
    (s ++ c :: t).dropWhile p = c :: t := by
  rw [List.dropWhile_append_of_pos hs, List.dropWhile_cons_of_neg (by simp [hc])]

theorem exists_stop (h : ∃ x ∈ s, p x = false) :
    ∃ d rest, s = s.takeWhile p ++ d :: rest ∧ p d = false := by
  induction s with
  | nil => simp at h
  | cons x xs ih =>
    by_cases hx : p x
    · obtain ⟨y, hy, hp⟩ := h
      have hmem : y ∈ xs := by
        rcases List.mem_cons.1 hy with rfl | hmem
        · simp [hx] at hp
        · exact hmem
      obtain ⟨d, rest, hxs, hd⟩ := ih ⟨y, hmem, hp⟩
      refine ⟨d, rest, ?_, hd⟩
      rw [List.takeWhile_cons_of_pos hx, List.cons_append, ← hxs]
    · exact ⟨x, xs, by rw [List.takeWhile_cons_of_neg hx]; rfl, by simpa using hx⟩

theorem exists_last (h : c ∈ s) : ∃ before after, s = before ++ c :: after ∧ c ∉ after := by
  obtain ⟨after, before, hreverse, hafter⟩ := List.eq_append_cons_of_mem (List.mem_reverse.mpr h)
  refine ⟨before.reverse, after.reverse, ?_, by simpa using hafter⟩
  rw [← List.reverse_reverse s, hreverse]
  simp

theorem filter_takeWhile {q : α → Bool} (h : ∀ x ∈ s, q x = false → p x = true) :
    (s.takeWhile p).filter q = (s.filter q).takeWhile p ∧
      (s.dropWhile p).filter q = (s.filter q).dropWhile p := by
  induction s with
  | nil => simp
  | cons x xs ih =>
    have hxs := ih fun y hy => h y (List.mem_cons_of_mem x hy)
    by_cases hp : p x = true
    · by_cases hq : q x = true
      · simp [hp, hq, hxs]
      · simp [hp, hq, hxs]
    · have hq : q x = true := by
        by_contra hq
        exact hp (h x List.mem_cons_self (by simpa using hq))
      simp [hp, hq]

end Stop

section Cut
variable [DecidableEq α] {c x : α} {s t : List α}

/-- What stands before the first `c`, and after it: all of `s` and nothing where there is none. -/
def cut (c : α) (s : List α) : List α × List α :=
  (s.takeWhile fun x => decide (x ≠ c), (s.dropWhile fun x => decide (x ≠ c)).drop 1)

/-- What stands after the last `c`: all of `s` where there is none. -/
def afterLast (c : α) (s : List α) : List α :=
  s.rtakeWhile fun x => decide (x ≠ c)

/-- What stands before the last `c`: nothing where there is none. -/
def beforeLast (c : α) (s : List α) : List α :=
  (s.rdropWhile fun x => decide (x ≠ c)).dropLast

theorem ne_of_notMem (h : c ∉ s) : ∀ x ∈ s, decide (x ≠ c) = true := by
  intro x hx
  have hxc : x ≠ c := fun heq => h (heq ▸ hx)
  simp [hxc]

theorem cut_append_cons (h : c ∉ s) : cut c (s ++ c :: t) = (s, t) := by
  unfold cut
  rw [takeWhile_append_stop (ne_of_notMem h) (by simp),
    dropWhile_append_stop (ne_of_notMem h) (by simp)]
  rfl

theorem cut_of_notMem (h : c ∉ s) : cut c s = (s, []) := by
  unfold cut
  rw [List.takeWhile_eq_self_iff.2 (ne_of_notMem h), List.dropWhile_eq_nil_iff.2 (ne_of_notMem h)]
  rfl

theorem cut_append_of_notMem (h : c ∉ s) : cut c (s ++ t) = (s ++ (cut c t).1, (cut c t).2) := by
  unfold cut
  rw [List.takeWhile_append_of_pos (ne_of_notMem h), List.dropWhile_append_of_pos (ne_of_notMem h)]

theorem mem_cut (hx : x ≠ c) : x ∈ s ↔ x ∈ (cut c s).1 ∨ x ∈ (cut c s).2 := by
  by_cases hc : c ∈ s
  · obtain ⟨before, after, rfl, hbefore⟩ := List.eq_append_cons_of_mem hc
    simp [cut_append_cons hbefore, hx]
  · simp [cut_of_notMem hc]

theorem afterLast_append_cons (h : c ∉ t) : afterLast c (s ++ c :: t) = t := by
  have ht : c ∉ t.reverse := by simpa using h
  unfold afterLast List.rtakeWhile
  rw [List.reverse_append, List.reverse_cons, List.append_assoc, List.singleton_append,
    takeWhile_append_stop (ne_of_notMem ht) (by simp), List.reverse_reverse]

theorem afterLast_notMem : c ∉ afterLast c s := by
  intro h
  simpa using List.mem_rtakeWhile_imp h

end Cut

end XtrMessenger.Foundation
