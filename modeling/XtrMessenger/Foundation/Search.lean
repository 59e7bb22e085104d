import Mathlib.Data.List.Nodup
import Mathlib.Data.List.Perm.Subperm
import Mathlib.Data.List.Range

/-! Loops that try one key after the other until one is not taken. -/
namespace XtrMessenger.Foundation
variable {κ : Type*} [DecidableEq κ]

/-- Trying `key n`, then `key (n + 1)` and so on ends, with the first that is not taken. -/
inductive Search (key : Nat → κ) (taken : List κ) : Nat → κ → Prop
  | free {n : Nat} : key n ∉ taken → Search key taken n (key n)
  | next {n : Nat} {k : κ} : key n ∈ taken → Search key taken (n + 1) k → Search key taken n k

/-- The first of the keys up to the number taken that is free. -/
def firstFree (key : Nat → κ) (taken : List κ) : κ :=
  (((List.range (taken.length + 1)).map key).find? fun k => k ∉ taken).getD (key 0)

variable {key : Nat → κ} {taken : List κ}

omit [DecidableEq κ] in
theorem Search.notMem {n : Nat} {k : κ} (h : Search key taken n k) : k ∉ taken := by
  induction h with
  | free h => exact h
  | next _ _ ih => exact ih

omit [DecidableEq κ] in
theorem Search.exists_eq {n : Nat} {k : κ} (h : Search key taken n k) : ∃ m, k = key m := by
  induction h with
  | @free n _ => exact ⟨n, rfl⟩
  | next _ _ ih => exact ih

omit [DecidableEq κ] in
/-- Distinct keys are not all taken. -/
theorem exists_free (hkey : Function.Injective key) (taken : List κ) :
    ∃ n ≤ taken.length, key n ∉ taken := by
  by_contra h
  have hall : ∀ n ≤ taken.length, key n ∈ taken := fun n hn => by_contra fun hk => h ⟨n, hn, hk⟩
  have hsub : (List.range (taken.length + 1)).map key ⊆ taken := by
    intro k hk
    obtain ⟨n, hn, rfl⟩ := List.mem_map.mp hk
    have hlt := List.mem_range.mp hn
    exact hall n (by omega)
  have hnodup : ((List.range (taken.length + 1)).map key).Nodup :=
    List.nodup_range.map hkey
  have hle := (List.subperm_of_subset hnodup hsub).length_le
  rw [List.length_map, List.length_range] at hle
  omega

omit [DecidableEq κ] in
theorem Search.of_all {n m : Nat} (hn : n ≤ m) (hm : key m ∉ taken)
    (h : ∀ i, n ≤ i → i < m → key i ∈ taken) : Search key taken n (key m) := by
  obtain ⟨d, rfl⟩ := Nat.exists_eq_add_of_le hn
  induction d generalizing n with
  | zero => exact .free hm
  | succ d ih =>
    have hshift : n + (d + 1) = n + 1 + d := by omega
    rw [hshift] at hm h ⊢
    refine .next (h n le_rfl (by omega)) (ih (by omega) hm fun i hi hlt => ?_)
    exact h i (by omega) hlt

/-- The search ends, whatever is taken, with the key `firstFree` finds. -/
theorem search_firstFree (hkey : Function.Injective key) (taken : List κ) :
    Search key taken 0 (firstFree key taken) := by
  obtain ⟨n, hn, hfree⟩ := exists_free hkey taken
  unfold firstFree
  cases hf : ((List.range (taken.length + 1)).map key).find? fun k => k ∉ taken with
  | none =>
    have hmem : key n ∈ (List.range (taken.length + 1)).map key :=
      List.mem_map_of_mem (List.mem_range.mpr (by omega))
    exact absurd (List.find?_eq_none.mp hf _ hmem) (by simpa using hfree)
  | some k =>
    rw [List.find?_map, Option.map_eq_some_iff] at hf
    obtain ⟨m, hm, rfl⟩ := hf
    have hbefore := List.find?_range_eq_some.mp hm
    rw [Option.getD_some]
    refine .of_all (Nat.zero_le m) (by simpa using hbefore.1) fun i _ hi => ?_
    simpa using hbefore.2.2 i hi

end XtrMessenger.Foundation
