import Mathlib.Data.List.Basic

/-! What a list holds beyond another, repeats counted, up to an equivalence `==`. -/
namespace XtrMessenger.Foundation
variable {α : Type*} [BEq α]

/-- Each element of `unmatched` accounts for one equal element of the list, the first left. -/
def surplus (unmatched : List α) : List α → List α
  | [] => []
  | a :: rest =>
    if unmatched.contains a then surplus (unmatched.erase a) rest
    else a :: surplus unmatched rest

/-- The same in turns, with what is left over so far. -/
def matching (turn : List α × List α) (a : α) : List α × List α :=
  if turn.1.contains a then (turn.1.erase a, turn.2) else (turn.1, turn.2 ++ [a])

/-- How often `a` occurs. -/
def copies (a : α) (l : List α) : Nat := l.countP (· == a)

@[simp] theorem copies_nil (a : α) : copies a [] = 0 := rfl

theorem copies_cons (a b : α) (l : List α) :
    copies a (b :: l) = copies a l + if b == a then 1 else 0 := List.countP_cons

theorem surplus_sublist (unmatched l : List α) : (surplus unmatched l).Sublist l := by
  induction l generalizing unmatched with
  | nil => exact .slnil
  | cons a rest ih =>
    unfold surplus
    split_ifs
    · exact (ih _).cons a
    · exact (ih _).cons_cons a

/-- The turns leave over what the recursion does, after what was left over before. -/
theorem foldl_matching (unmatched added l : List α) :
    (l.foldl matching (unmatched, added)).2 = added ++ surplus unmatched l := by
  induction l generalizing unmatched added with
  | nil => simp [surplus]
  | cons a rest ih =>
    rw [List.foldl_cons, matching, surplus]
    dsimp only
    split_ifs
    · exact ih _ _
    · rw [ih, List.append_assoc, List.singleton_append]

theorem surplus_nil (l : List α) : surplus [] l = l := by
  induction l with
  | nil => rfl
  | cons a l ih => simp [surplus, ih]

section Equivalence
variable [EquivBEq α]

theorem copies_congr {a b : α} (h : (a == b) = true) (l : List α) : copies a l = copies b l := by
  unfold copies
  congr 1
  funext c
  exact BEq.congr_right h

theorem copies_pos_iff {a : α} {l : List α} : 0 < copies a l ↔ l.contains a = true := by
  induction l with
  | nil => simp
  | cons b l ih =>
    rw [copies_cons, List.contains_cons, Bool.or_eq_true, ← ih, BEq.comm]
    split_ifs with h <;> simp [h]

theorem copies_erase {a : α} {l : List α} (h : l.contains a = true) (b : α) :
    copies b (l.erase a) = copies b l - if a == b then 1 else 0 := by
  induction l with
  | nil => simp at h
  | cons c l ih =>
    rw [List.erase_cons]
    split_ifs with hc hab hab
    · have hcb : (c == b) = true := BEq.trans hc hab
      simp [copies_cons, hcb]
    · have hcb : (c == b) = false := by
        rw [BEq.congr_left hc]
        simpa using hab
      simp [copies_cons, hcb]
    · have hm : l.contains a = true := by
        rw [List.contains_cons, BEq.comm] at h
        simpa [hc] using h
      have hpos : 0 < copies b l := by
        rw [← copies_congr hab]
        exact copies_pos_iff.mpr hm
      rw [copies_cons, copies_cons, ih hm, if_pos hab]
      omega
    · have hm : l.contains a = true := by
        rw [List.contains_cons, BEq.comm] at h
        simpa [hc] using h
      rw [copies_cons, copies_cons, ih hm, if_neg hab]
      omega

/-- An element is left over as often as the list holds more copies of it. -/
theorem copies_surplus (a : α) (unmatched l : List α) :
    copies a (surplus unmatched l) = copies a l - copies a unmatched := by
  induction l generalizing unmatched with
  | nil => simp [surplus]
  | cons b rest ih =>
    unfold surplus
    split_ifs with h
    · rw [ih, copies_erase h, copies_cons]
      split_ifs with hba
      · have hpos : 0 < copies a unmatched := by
          rw [← copies_congr hba]
          exact copies_pos_iff.mpr h
        omega
      · omega
    · rw [copies_cons, copies_cons, ih]
      split_ifs with hba
      · have hnone : copies a unmatched = 0 := by
          rw [← copies_congr hba]
          by_contra hne
          exact h (copies_pos_iff.mp (Nat.pos_of_ne_zero hne))
        omega
      · omega

/-- After a list that equals `before` element by element, everything is left over. -/
theorem surplus_append {before start : List α} (h : (start == before) = true) (l : List α) :
    surplus before (start ++ l) = l := by
  induction start generalizing before with
  | nil =>
    cases before with
    | nil => exact surplus_nil l
    | cons b before => simp at h
  | cons a start ih =>
    cases before with
    | nil => simp at h
    | cons b before =>
      rw [List.cons_beq_cons, Bool.and_eq_true] at h
      have hba : (b == a) = true := BEq.symm h.1
      have hm : (b :: before).contains a = true := by simp [h.1]
      rw [List.cons_append, surplus, if_pos hm, List.erase_cons, if_pos hba]
      exact ih h.2

end Equivalence
end XtrMessenger.Foundation
