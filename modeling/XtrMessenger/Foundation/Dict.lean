import Mathlib.Data.List.Nodup
import Mathlib.Data.List.Induction
import Mathlib.Data.List.Forall2
import Mathlib.Tactic.Tauto

/-! Insertion-ordered dictionaries, and what grouping a list by a key makes of one. -/
namespace XtrMessenger.Foundation

/-- The entries in the order their keys were first set. -/
structure Dict (κ ν : Type*) where
  entries : List (κ × ν)
  nodup : (entries.map Prod.fst).Nodup

namespace Dict
variable {κ ν : Type*}

def empty : Dict κ ν := ⟨[], List.nodup_nil⟩

def keys (d : Dict κ ν) : List κ := d.entries.map Prod.fst

def values (d : Dict κ ν) : List ν := d.entries.map Prod.snd

variable [DecidableEq κ]

def get? (d : Dict κ ν) (k : κ) : Option ν :=
  (d.entries.find? fun e => e.1 = k).map Prod.snd

/-- The entries once `k` is set to `v`: a key that is there keeps its place. -/
def setEntries (entries : List (κ × ν)) (k : κ) (v : ν) : List (κ × ν) :=
  if k ∈ entries.map Prod.fst then entries.map fun e => if e.1 = k then (k, v) else e
  else entries ++ [(k, v)]

theorem setEntries_keys (entries : List (κ × ν)) (k : κ) (v : ν) :
    (setEntries entries k v).map Prod.fst =
      if k ∈ entries.map Prod.fst then entries.map Prod.fst else entries.map Prod.fst ++ [k] := by
  unfold setEntries
  split_ifs with h
  · rw [List.map_map]
    refine List.map_congr_left fun e _ => ?_
    simp only [Function.comp_apply]
    split_ifs with he <;> simp [he]
  · simp

/-- `d[k] = v`. -/
def set (d : Dict κ ν) (k : κ) (v : ν) : Dict κ ν where
  entries := setEntries d.entries k v
  nodup := by
    rw [setEntries_keys]
    split_ifs with h
    · exact d.nodup
    · exact List.nodup_append.mpr ⟨d.nodup, by simp, fun a ha b hb he =>
        h (List.mem_singleton.mp hb ▸ he ▸ ha)⟩

/-- `d.update(entries)`. -/
def update (d : Dict κ ν) (entries : List (κ × ν)) : Dict κ ν :=
  entries.foldl (fun d e => d.set e.1 e.2) d

theorem get?_eq_some_iff (d : Dict κ ν) {k : κ} {v : ν} :
    d.get? k = some v ↔ (k, v) ∈ d.entries := by
  obtain ⟨entries, hn⟩ := d
  simp only [get?]
  induction entries with
  | nil => simp
  | cons e es ih =>
    rw [List.map_cons, List.nodup_cons] at hn
    by_cases he : e.1 = k
    · have hnot : (k, v) ∉ es := fun hm => hn.1 (he ▸ List.mem_map_of_mem (f := Prod.fst) hm)
      obtain ⟨k', v'⟩ := e
      obtain rfl : k' = k := he
      simp [hnot, eq_comm]
    · have hne : (k, v) ≠ e := by
        rintro rfl
        exact he rfl
      rw [List.find?_cons_of_neg (by simpa using he), ih hn.2, List.mem_cons]
      simp [hne]

theorem get?_eq_none_iff (d : Dict κ ν) {k : κ} : d.get? k = none ↔ k ∉ d.keys := by
  simp only [get?, keys, Option.map_eq_none_iff, List.find?_eq_none, List.mem_map]
  constructor
  · rintro h ⟨e, he, rfl⟩
    exact absurd (h e he) (by simp)
  · intro h e he
    simpa using fun hk => h ⟨e, he, hk⟩

theorem mem_keys_of_get? (d : Dict κ ν) {k : κ} {v : ν} (h : d.get? k = some v) : k ∈ d.keys :=
  List.mem_map_of_mem (f := Prod.fst) (d.get?_eq_some_iff.mp h)

theorem get?_of_mem_keys (d : Dict κ ν) {k : κ} (h : k ∈ d.keys) : ∃ v, d.get? k = some v := by
  rcases hv : d.get? k with _ | v
  · exact absurd h ((get?_eq_none_iff d).mp hv)
  · exact ⟨v, rfl⟩

theorem get?_set (d : Dict κ ν) (k k' : κ) (v : ν) :
    (d.set k v).get? k' = if k' = k then some v else d.get? k' := by
  have hmem : ∀ w, (k', w) ∈ (d.set k v).entries ↔
      if k' = k then w = v else (k', w) ∈ d.entries := by
    intro w
    simp only [set, setEntries]
    split_ifs with hk hk' hk'
    · subst hk'
      obtain ⟨e, he, rfl⟩ := List.mem_map.mp hk
      simp only [List.mem_map]
      constructor
      · rintro ⟨e', -, he'⟩
        split_ifs at he' with h
        · simpa using he'.symm
        · exact absurd (congrArg Prod.fst he') h
      · rintro rfl
        exact ⟨e, he, by simp⟩
    · simp only [List.mem_map]
      constructor
      · rintro ⟨e', hm, he'⟩
        split_ifs at he' with h
        · exact absurd (congrArg Prod.fst he').symm hk'
        · exact he' ▸ hm
      · intro hm
        exact ⟨(k', w), hm, by simp [hk']⟩
    · subst hk'
      have hnot : (k', w) ∉ d.entries := fun hm => hk (List.mem_map_of_mem (f := Prod.fst) hm)
      simp [hnot]
    · simp [hk']
  ext w
  rw [get?_eq_some_iff, hmem]
  split_ifs with hk
  · simp [eq_comm]
  · rw [get?_eq_some_iff]

theorem mem_keys_set (d : Dict κ ν) (k : κ) (v : ν) {k' : κ} :
    k' ∈ (d.set k v).keys ↔ k' = k ∨ k' ∈ d.keys := by
  rw [keys, set, setEntries_keys]
  split_ifs with hk
  · constructor
    · exact Or.inr
    · rintro (rfl | h)
      · exact hk
      · exact h
  · simp [keys, or_comm]

theorem mem_keys_update (d : Dict κ ν) (entries : List (κ × ν)) {k : κ} :
    k ∈ (d.update entries).keys ↔ k ∈ d.keys ∨ k ∈ entries.map Prod.fst := by
  induction entries generalizing d with
  | nil => simp [update]
  | cons e es ih =>
    have hstep : d.update (e :: es) = (d.set e.1 e.2).update es := rfl
    rw [hstep, ih, mem_keys_set, List.map_cons, List.mem_cons]
    tauto

theorem isSome_get? (d : Dict κ ν) (k : κ) : (d.get? k).isSome = true ↔ k ∈ d.keys := by
  rw [← not_iff_not, Bool.not_eq_true, Option.isSome_eq_false_iff, Option.isNone_iff_eq_none]
  exact d.get?_eq_none_iff

/-- Of the keys asked for, those that are there. -/
theorem mem_keys_filterMap {keys : List κ} {get : κ → Option ν} {k : κ} :
    k ∈ (Dict.update .empty (keys.filterMap fun k' => (get k').map fun v => (k', v))).keys ↔
      k ∈ keys ∧ (get k).isSome = true := by
  rw [Dict.mem_keys_update]
  simp only [Dict.keys, Dict.empty, List.map_nil, List.not_mem_nil, false_or, List.mem_map,
    List.mem_filterMap, Option.map_eq_some_iff]
  constructor
  · intro h
    obtain ⟨entry, ⟨k', hk', v, hv, rfl⟩, rfl⟩ := h
    exact ⟨hk', by simp [hv]⟩
  · intro h
    obtain ⟨hk, hsome⟩ := h
    obtain ⟨v, hv⟩ := Option.isSome_iff_exists.mp hsome
    exact ⟨(k, v), ⟨k, hk, v, hv, rfl⟩, rfl⟩

/-- What a key reads after an update: what the last entry of its name sets, else what was there. -/
theorem get?_update (d : Dict κ ν) (entries : List (κ × ν)) (k : κ) : (d.update entries).get? k =
    ((entries.filter fun e => e.1 = k).getLast?.map Prod.snd).or (d.get? k) := by
  induction entries using List.reverseRecOn with
  | nil => rfl
  | append_singleton entries e ih =>
    have hstep : d.update (entries ++ [e]) = (d.update entries).set e.1 e.2 := by simp [update]
    rw [hstep, get?_set, List.filter_append]
    split_ifs with hk
    · simp [hk]
    · rw [ih, List.filter_cons_of_neg (by simpa using Ne.symm hk)]
      simp

theorem get?_update_cases (d : Dict κ ν) {entries : List (κ × ν)} {k : κ} {v : ν}
    (h : (d.update entries).get? k = some v) : (k, v) ∈ entries ∨ d.get? k = some v := by
  rw [get?_update] at h
  cases hlast : (entries.filter fun e => e.1 = k).getLast? with
  | none => exact .inr (by simpa [hlast] using h)
  | some e =>
    left
    obtain ⟨hm, hk⟩ := List.mem_filter.mp (List.mem_of_getLast? hlast)
    obtain rfl : e.2 = v := by simpa [hlast] using h
    obtain rfl : e.1 = k := by simpa using hk
    exact hm

theorem set_entries_of_notMem (d : Dict κ ν) {k : κ} (h : k ∉ d.keys) (v : ν) :
    (d.set k v).entries = d.entries ++ [(k, v)] := if_neg h

theorem update_entries (d : Dict κ ν) {entries : List (κ × ν)}
    (h : (d.keys ++ entries.map Prod.fst).Nodup) :
    (d.update entries).entries = d.entries ++ entries := by
  induction entries generalizing d with
  | nil => simp [update]
  | cons e es ih =>
    have he : e.1 ∉ d.keys := fun hm =>
      (List.nodup_append.mp h).2.2 e.1 hm e.1 (by simp) rfl
    have hkeys : (d.set e.1 e.2).keys = d.keys ++ [e.1] := by
      simp [keys, set_entries_of_notMem d he]
    have hnext := ih (d.set e.1 e.2) (by rw [hkeys]; simpa using h)
    rw [set_entries_of_notMem d he] at hnext
    simpa [update] using hnext

/-- `{**d, k: (*d.get(k, ()), v)}`. -/
def extend (d : Dict κ (List ν)) (k : κ) (v : ν) : Dict κ (List ν) :=
  d.set k ((d.get? k).getD [] ++ [v])

theorem getD_extend (d : Dict κ (List ν)) (k k' : κ) (v : ν) :
    ((d.extend k v).get? k').getD [] = (d.get? k').getD [] ++ if k' = k then [v] else [] := by
  rw [extend, get?_set]
  split_ifs with hk
  · rw [hk]
    rfl
  · rw [List.append_nil]

theorem update_empty (d : Dict κ ν) : Dict.update .empty d.entries = d := by
  have hentries : (Dict.update .empty d.entries).entries = d.entries := by
    rw [update_entries _ (by simpa [keys, empty] using d.nodup)]
    rfl
  cases hd : Dict.update .empty d.entries with
  | mk entries nodup =>
    rw [hd] at hentries
    subst hentries
    rfl

end Dict

section Grouping
variable {α κ : Type*} [DecidableEq κ]

/-- `d.setdefault(k, []).append(a)`: a group is never empty, so it has a first member. -/
def Dict.add (d : Dict κ (α × List α)) (k : κ) (a : α) : Dict κ (α × List α) :=
  d.set k (match d.get? k with
    | none => (a, [])
    | some (first, rest) => (first, rest ++ [a]))

/-- The members of a list, grouped by key. -/
def groupBy (f : α → κ) (l : List α) : Dict κ (α × List α) :=
  l.foldl (fun d a => d.add (f a) a) .empty

/-- The groups, each with all of its members. -/
def Dict.groups (d : Dict κ (α × List α)) : List (κ × List α) :=
  d.entries.map fun e => (e.1, e.2.1 :: e.2.2)

theorem Dict.groups_add (d : Dict κ (α × List α)) (k : κ) (a : α) :
    (d.add k a).groups = if k ∈ d.keys then
      d.groups.map fun g => if g.1 = k then (k, g.2 ++ [a]) else g
    else d.groups ++ [(k, [a])] := by
  split_ifs with h
  · obtain ⟨⟨k', first, rest⟩, hm, rfl⟩ := List.mem_map.mp h
    have hget : d.get? k' = some (first, rest) := d.get?_eq_some_iff.mpr hm
    have hk : k' ∈ d.entries.map Prod.fst := h
    simp only [groups, add, set, setEntries, hget, if_pos hk, List.map_map]
    refine List.map_congr_left fun e he => ?_
    simp only [Function.comp_apply]
    split_ifs with hk
    · -- the entry that is replaced is the one just read
      have hread : e.2 = (first, rest) := by
        have hget' := d.get?_eq_some_iff.mpr (show (e.1, e.2) ∈ d.entries from he)
        rw [hk, hget] at hget'
        exact (Option.some.inj hget').symm
      simp [hread]
    · rfl
  · simp only [groups, add, (d.get?_eq_none_iff).mpr h, set_entries_of_notMem d h]
    simp

omit [DecidableEq κ] in
theorem Dict.keys_groups (d : Dict κ (α × List α)) : d.groups.map Prod.fst = d.keys := by
  simp [groups, keys, Function.comp_def]

theorem groupBy_concat (f : α → κ) (l : List α) (a : α) :
    groupBy f (l ++ [a]) = (groupBy f l).add (f a) a := by
  simp [groupBy]

theorem eraseDups_concat (l : List κ) (k : κ) :
    (l ++ [k]).eraseDups = if k ∈ l then l.eraseDups else l.eraseDups ++ [k] := by
  rw [List.eraseDups_append]
  split_ifs with h <;> simp [List.removeAll, h, List.eraseDups_cons]

theorem nodup_eraseDups (l : List κ) : l.eraseDups.Nodup := by
  induction l using List.reverseRecOn with
  | nil => exact List.nodup_nil
  | append_singleton l k ih =>
    rw [eraseDups_concat]
    split_ifs with h
    · exact ih
    · refine List.nodup_append.mpr ⟨ih, List.nodup_singleton k, fun a ha b hb he => h ?_⟩
      rw [← List.mem_singleton.mp hb, ← he]
      exact List.mem_eraseDups.mp ha

theorem eraseDups_eq_self_iff {l : List κ} : l.eraseDups = l ↔ l.Nodup := by
  constructor
  · intro h
    exact h ▸ nodup_eraseDups l
  · induction l using List.reverseRecOn with
    | nil => exact fun _ => rfl
    | append_singleton l k ih =>
      intro h
      obtain ⟨hl, -, hk⟩ := List.nodup_append.mp h
      have hnot : k ∉ l := fun hm => hk k hm k (List.mem_singleton_self k) rfl
      rw [eraseDups_concat, if_neg hnot, ih hl]

theorem eraseDups_filter (l : List κ) (p : κ → Bool) :
    (l.filter p).eraseDups = l.eraseDups.filter p := by
  induction l using List.reverseRecOn with
  | nil => rfl
  | append_singleton l k ih =>
    rw [List.filter_append, eraseDups_concat]
    by_cases hp : p k = true
    · have hmem : k ∈ l.filter p ↔ k ∈ l := by simp [hp]
      rw [List.filter_cons_of_pos hp, List.filter_nil, eraseDups_concat, ih]
      simp only [hmem]
      split_ifs <;> simp [hp]
    · rw [List.filter_cons_of_neg hp, List.filter_nil, List.append_nil, ih]
      split_ifs <;> simp [hp]

/-- Grouping puts the keys in the order they first appear, and the members of each in their
order. -/
theorem groups_groupBy (f : α → κ) (l : List α) : (groupBy f l).groups =
    (l.map f).eraseDups.map fun k => (k, l.filter fun a => f a = k) := by
  induction l using List.reverseRecOn with
  | nil => rfl
  | append_singleton l a ih =>
    have hkeys : (groupBy f l).keys = (l.map f).eraseDups := by
      rw [← Dict.keys_groups, ih]
      simp [Function.comp_def]
    rw [groupBy_concat, Dict.groups_add, ih, hkeys, List.map_append, List.map_singleton,
      eraseDups_concat]
    simp only [List.mem_eraseDups]
    split_ifs with h
    · rw [List.map_map]
      refine List.map_congr_left fun k _ => ?_
      by_cases hk : k = f a
      · simp [hk]
      · simp [hk, Ne.symm hk]
    · rw [List.map_append]
      congr 1
      · refine List.map_congr_left fun k hk => ?_
        have hne : f a ≠ k := fun he => h (he ▸ List.mem_eraseDups.mp hk)
        simp [hne]
      · have hnone : l.filter (fun b => f b = f a) = [] :=
          List.filter_eq_nil_iff.mpr fun b hb => by
            simpa using fun he : f b = f a => h (he ▸ List.mem_map_of_mem hb)
        simp [hnone]

theorem group_of_mem {f : α → κ} {l : List α} {a : α} (ha : a ∈ l) :
    (f a, l.filter fun b => f b = f a) ∈ (groupBy f l).groups := by
  rw [groups_groupBy]
  exact List.mem_map_of_mem (List.mem_eraseDups.mpr (List.mem_map_of_mem ha))

theorem mem_groups_iff {f : α → κ} {l : List α} {a : α} :
    (∃ group ∈ (groupBy f l).groups, a ∈ group.2) ↔ a ∈ l := by
  constructor
  · rintro ⟨group, hg, ha⟩
    rw [groups_groupBy] at hg
    obtain ⟨k, -, rfl⟩ := List.mem_map.mp hg
    exact (List.mem_filter.mp ha).1
  · intro ha
    exact ⟨_, group_of_mem ha, by simp [ha]⟩

theorem first_of_group {f : α → κ} {l : List α} {group : κ × α × List α}
    (h : group ∈ (groupBy f l).entries) : group.2.1 ∈ l ∧ f group.2.1 = group.1 := by
  have hg : (group.1, group.2.1 :: group.2.2) ∈ (groupBy f l).groups := List.mem_map_of_mem h
  rw [groups_groupBy] at hg
  obtain ⟨k, -, heq⟩ := List.mem_map.mp hg
  simp only [Prod.mk.injEq] at heq
  obtain ⟨rfl, hmembers⟩ := heq
  have hfirst := hmembers ▸ List.mem_cons_self (a := group.2.1) (l := group.2.2)
  simpa using List.mem_filter.mp hfirst

/-- The members of a list, those of one class after those of another that appears before. -/
def regrouped (f : α → κ) (l : List α) : List α :=
  (l.map f).eraseDups.flatMap fun k => l.filter fun a => f a = k

theorem mem_regrouped {f : α → κ} {l : List α} {a : α} (h : a ∈ regrouped f l) : a ∈ l := by
  obtain ⟨k, -, ha⟩ := List.mem_flatMap.mp h
  exact (List.mem_filter.mp ha).1

omit [DecidableEq κ] in
theorem flatMap_filter (p : κ → Bool) (F : κ → List α) (l : List κ) :
    (l.filter p).flatMap F = l.flatMap fun k => if p k then F k else [] := by
  induction l with
  | nil => rfl
  | cons k l ih => by_cases hp : p k = true <;> simp [hp, ih]

theorem regrouped_filter (f : α → κ) (p : κ → Bool) (l : List α) :
    regrouped f (l.filter fun a => p (f a)) =
      (groupBy f l).groups.flatMap fun group => if p group.1 then group.2 else [] := by
  have hkeys : ((l.filter fun a => p (f a)).map f).eraseDups = (l.map f).eraseDups.filter p := by
    rw [← eraseDups_filter, List.filter_map]
    rfl
  rw [regrouped, hkeys, groups_groupBy, flatMap_filter, List.flatMap_map]
  apply List.flatMap_congr
  intro k hk
  by_cases hp : p k = true
  · simp only [hp, if_true, List.filter_filter]
    apply List.filter_congr
    intro a ha
    by_cases hf : f a = k <;> simp [hf, hp]
  · simp [hp]

theorem eraseDups_of_const {k : κ} {l : List κ} (h : ∀ a ∈ l, a = k) (hne : l ≠ []) :
    l.eraseDups = [k] := by
  obtain ⟨a, l, rfl⟩ := List.exists_cons_of_ne_nil hne
  have hnone : l.filter (fun b => !b == a) = [] := by
    refine List.filter_eq_nil_iff.mpr fun b hb => ?_
    simp [h a List.mem_cons_self, h b (List.mem_cons_of_mem _ hb)]
  rw [List.eraseDups_cons, hnone, h a List.mem_cons_self]
  rfl

/-- Blocks of equal members, each of another value, have the blocks' values. -/
theorem eraseDups_blocks {ks : List κ} (hks : ks.Nodup) {block : κ → List κ}
    (hne : ∀ k ∈ ks, block k ≠ []) (h : ∀ k ∈ ks, ∀ a ∈ block k, a = k) :
    (ks.flatMap block).eraseDups = ks := by
  induction ks using List.reverseRecOn with
  | nil => rfl
  | append_singleton ks k ih =>
    obtain ⟨hks, -, hk⟩ := List.nodup_append.mp hks
    have hlast := h k (by simp)
    have hnew : (block k).removeAll (ks.flatMap block) = block k := by
      refine List.filter_eq_self.mpr fun a ha => ?_
      have hnot : a ∉ ks.flatMap block := by
        intro hm
        obtain ⟨k', hk', ha'⟩ := List.mem_flatMap.mp hm
        have hsame : k' = k := (h k' (by simp [hk']) a ha').symm.trans (hlast a ha)
        exact hk k' hk' k (List.mem_singleton_self k) hsame
      simpa using hnot
    rw [List.flatMap_append, List.flatMap_singleton, List.eraseDups_append, hnew,
      eraseDups_of_const hlast (hne k (by simp)),
      ih hks (fun k' hk' => hne k' (by simp [hk'])) fun k' hk' => h k' (by simp [hk'])]

theorem filter_regrouped (f : α → κ) (l : List α) (k : κ) :
    (regrouped f l).filter (fun a => f a = k) = l.filter fun a => f a = k := by
  have hblock : ∀ k' : κ, (l.filter fun a => f a = k').filter (fun a => f a = k) =
      if k' = k then l.filter (fun a => f a = k) else [] := by
    intro k'
    split_ifs with hk
    · simp [hk, List.filter_filter]
    · rw [List.filter_filter]
      refine List.filter_eq_nil_iff.mpr fun a _ => ?_
      simp only [Bool.and_eq_true, decide_eq_true_eq, not_and]
      exact fun ha ha' => hk (ha'.symm.trans ha)
  have hpick : ∀ {ks : List κ}, ks.Nodup → (ks.flatMap fun k' =>
      if k' = k then l.filter (fun a => f a = k) else []) =
        if k ∈ ks then l.filter (fun a => f a = k) else [] := by
    intro ks hks
    induction ks with
    | nil => rfl
    | cons k' ks ih =>
      obtain ⟨hnot, hks⟩ := List.nodup_cons.mp hks
      rw [List.flatMap_cons, ih hks]
      by_cases hk : k' = k
      · subst hk
        simp [hnot]
      · simp [hk, Ne.symm hk]
  rw [regrouped, List.filter_flatMap]
  simp only [hblock]
  rw [hpick (nodup_eraseDups _)]
  split_ifs with hk
  · rfl
  · refine (List.filter_eq_nil_iff.mpr fun a ha => ?_).symm
    simpa using fun hf : f a = k => hk (hf ▸ List.mem_eraseDups.mpr (List.mem_map_of_mem ha))

/-- Members that are regrouped are grouped as they were. -/
theorem groups_regrouped (f : α → κ) (l : List α) :
    (groupBy f (regrouped f l)).groups = (groupBy f l).groups := by
  have hkeys : ((regrouped f l).map f).eraseDups = (l.map f).eraseDups := by
    rw [regrouped, List.map_flatMap]
    refine eraseDups_blocks (nodup_eraseDups _) (fun k hk => ?_) fun k _ b hb => ?_
    · obtain ⟨a, ha, rfl⟩ := List.mem_map.mp (List.mem_eraseDups.mp hk)
      refine List.ne_nil_of_mem (List.mem_map_of_mem (a := a) ?_)
      simp [ha]
    · obtain ⟨a, ha, rfl⟩ := List.mem_map.mp hb
      simpa using (List.mem_filter.mp ha).2
  rw [groups_groupBy, groups_groupBy, hkeys]
  simp only [filter_regrouped]

theorem groups_filter (f : α → κ) (p : κ → Bool) (l : List α) :
    (groupBy f (l.filter fun a => p (f a))).groups =
      (groupBy f l).groups.filter fun group => p group.1 := by
  have hkeys : ((l.filter fun a => p (f a)).map f).eraseDups = (l.map f).eraseDups.filter p := by
    rw [← eraseDups_filter, List.filter_map]
    rfl
  rw [groups_groupBy, groups_groupBy, hkeys, List.filter_map]
  refine List.map_congr_left fun k hk => ?_
  have hp : p k = true := (List.mem_filter.mp hk).2
  have hsame : (l.filter fun a => p (f a)).filter (fun a => f a = k) =
      l.filter fun a => f a = k := by
    rw [List.filter_filter]
    refine List.filter_congr fun a _ => ?_
    by_cases hf : f a = k <;> simp [hf, hp]
  rw [hsame]

omit [DecidableEq κ] in
theorem group_injective :
    Function.Injective fun e : κ × α × List α => (e.1, e.2.1 :: e.2.2) := by
  rintro ⟨k, a, l⟩ ⟨k', a', l'⟩ he
  simpa using he

theorem entries_regrouped (f : α → κ) (l : List α) :
    (groupBy f (regrouped f l)).entries = (groupBy f l).entries :=
  List.map_injective_iff.mpr group_injective (groups_regrouped f l)

theorem entries_filter (f : α → κ) (p : κ → Bool) (l : List α) :
    (groupBy f (l.filter fun a => p (f a))).entries =
      (groupBy f l).entries.filter fun e => p e.1 := by
  refine List.map_injective_iff.mpr group_injective ((groups_filter f p l).trans ?_)
  rw [Dict.groups, List.filter_map]
  rfl

/-- Regrouping members that were regrouped changes nothing more. -/
theorem regrouped_regrouped_filter (f : α → κ) (p : κ → Bool) (l : List α) :
    regrouped f ((regrouped f l).filter fun a => p (f a)) =
      regrouped f (l.filter fun a => p (f a)) := by
  rw [regrouped_filter, regrouped_filter, groups_regrouped]

section Naming
variable {β : Type*} [DecidableEq β] {f : α → κ} {g : κ → β} {l : List α}

theorem eraseDups_comp (hg : ∀ a ∈ l, ∀ b ∈ l, g (f a) = g (f b) → f a = f b) :
    (l.map fun a => g (f a)).eraseDups = (l.map f).eraseDups.map g := by
  induction l using List.reverseRecOn with
  | nil => rfl
  | append_singleton l a ih =>
    have hiff : g (f a) ∈ l.map (fun a => g (f a)) ↔ f a ∈ l.map f := by
      simp only [List.mem_map]
      constructor
      · rintro ⟨b, hb, he⟩
        exact ⟨b, hb, hg b (by simp [hb]) a (by simp) he⟩
      · rintro ⟨b, hb, he⟩
        exact ⟨b, hb, by rw [he]⟩
    rw [List.map_append, List.map_append, List.map_singleton, List.map_singleton,
      eraseDups_concat, eraseDups_concat,
      ih fun b hb c hc => hg b (by simp [hb]) c (by simp [hc])]
    by_cases h : f a ∈ l.map f
    · simp only [if_pos (hiff.mpr h), if_pos h]
    · simp only [if_neg (fun hb => h (hiff.mp hb)), if_neg h, List.map_append, List.map_singleton]

/-- Grouping by the names of classes that have different names is grouping by class. -/
theorem groups_groupBy_comp (hg : ∀ a ∈ l, ∀ b ∈ l, g (f a) = g (f b) → f a = f b) :
    (groupBy (fun a => g (f a)) l).groups =
      (l.map f).eraseDups.map fun k => (g k, l.filter fun a => f a = k) := by
  rw [groups_groupBy, eraseDups_comp hg, List.map_map]
  refine List.map_congr_left fun k hk => ?_
  obtain ⟨b, hb, rfl⟩ := List.mem_map.mp (List.mem_eraseDups.mp hk)
  have hsame : l.filter (fun a => g (f a) = g (f b)) = l.filter fun a => f a = f b :=
    List.filter_congr fun a ha => by simpa using ⟨hg a ha b hb, fun he => by rw [he]⟩
  simp [hsame]

theorem regrouped_comp (hg : ∀ a ∈ l, ∀ b ∈ l, g (f a) = g (f b) → f a = f b) :
    regrouped (fun a => g (f a)) l = regrouped f l := by
  have hgroups : ∀ {γ : Type _} [DecidableEq γ] (h : α → γ),
      regrouped h l = (groupBy h l).groups.flatMap Prod.snd := by
    intro γ _ h
    rw [groups_groupBy, List.flatMap_map]
    rfl
  rw [hgroups, groups_groupBy_comp hg, List.flatMap_map]
  rfl

end Naming
end Grouping

theorem bind_eq_ok_iff {α β ε : Type*} {x : Except ε α} {f : α → Except ε β} {b : β} :
    x.bind f = .ok b ↔ ∃ a, x = .ok a ∧ f a = .ok b := by
  cases x <;> simp [Except.bind]

theorem map_eq_ok_iff {α β ε : Type*} {x : Except ε α} {f : α → β} {b : β} :
    x.map f = .ok b ↔ ∃ a, x = .ok a ∧ f a = b := by
  cases x <;> simp [Except.map]

theorem map_eq_error_iff {α β ε : Type*} {x : Except ε α} {f : α → β} {e : ε} :
    x.map f = .error e ↔ x = .error e := by
  cases x <;> simp [Except.map]

theorem mapError_eq_ok_iff {α ε ε' : Type*} {x : Except ε α} {f : ε → ε'} {a : α} :
    x.mapError f = .ok a ↔ x = .ok a := by
  cases x <;> simp [Except.mapError]

namespace Dict
variable {κ ν μ ε : Type*}

/-- The same keys, with other values. -/
def map (g : ν → μ) (d : Dict κ ν) : Dict κ μ where
  entries := d.entries.map fun e => (e.1, g e.2)
  nodup := by simpa [List.map_map, Function.comp_def] using d.nodup

variable [DecidableEq κ]

theorem get?_map (g : ν → μ) (d : Dict κ ν) (k : κ) : (d.map g).get? k = (d.get? k).map g := by
  simp only [get?, map, List.find?_map, Option.map_map]
  rfl

/-- `{k: f(v) for k, v in d.items()}`, of an `f` that may raise. -/
def mapM (f : ν → Except ε μ) (d : Dict κ ν) : Except ε (Dict κ μ) :=
  (d.entries.mapM fun e => (f e.2).map fun v => (e.1, v)).map (Dict.update .empty)

end Dict

theorem exists_of_mem_right {α β : Type*} {R : α → β → Prop} {l : List α} {bs : List β}
    (h : List.Forall₂ R l bs) {b : β} (hb : b ∈ bs) : ∃ a ∈ l, R a b := by
  induction h with
  | nil => simp at hb
  | @cons a b' l bs hr _ ih =>
    rcases List.mem_cons.mp hb with rfl | hb
    · exact ⟨a, by simp, hr⟩
    · obtain ⟨a', ha', hr'⟩ := ih hb
      exact ⟨a', by simp [ha'], hr'⟩

theorem exists_forall₂ {α β : Type*} {R : α → β → Prop} {l : List α} (h : ∀ a ∈ l, ∃ b, R a b) :
    ∃ bs, List.Forall₂ R l bs := by
  induction l with
  | nil => exact ⟨[], .nil⟩
  | cons a l ih =>
    obtain ⟨b, hb⟩ := h a List.mem_cons_self
    obtain ⟨bs, hbs⟩ := ih fun a ha => h a (List.mem_cons_of_mem _ ha)
    exact ⟨b :: bs, .cons hb hbs⟩

theorem forall₂_of_map_eq {α β γ δ : Type*} {F : α → γ} {G : β → γ} {R : α → δ → Prop}
    {l : List α} {l' : List β} {ds : List δ} (h : List.Forall₂ R l ds) (hm : l.map F = l'.map G) :
    List.Forall₂ (fun b d => ∃ a, F a = G b ∧ R a d) l' ds := by
  induction h generalizing l' with
  | nil =>
    obtain rfl := List.map_eq_nil_iff.mp hm.symm
    exact .nil
  | @cons a d l ds hr _ ih =>
    cases l' with
    | nil => simp at hm
    | cons b l' =>
      rw [List.map_cons, List.map_cons, List.cons.injEq] at hm
      exact .cons ⟨a, hm.1, hr⟩ (ih hm.2)

theorem mapM_eq_ok_iff {α β ε : Type*} {f : α → Except ε β} {l : List α} {bs : List β} :
    l.mapM f = .ok bs ↔ List.Forall₂ (fun a b => f a = .ok b) l bs := by
  induction l generalizing bs with
  | nil =>
    cases bs <;> simp [pure, Except.pure]
  | cons a l ih =>
    rw [List.mapM_cons]
    cases ha : f a with
    | error e => cases bs <;> simp [ha, bind, Except.bind]
    | ok b =>
      cases hl : l.mapM f with
      | error e =>
        cases bs with
        | nil => simp [bind, Except.bind]
        | cons c cs =>
          have hno : ¬List.Forall₂ (fun a b => f a = .ok b) l cs := fun h => by
            simp [ih.mpr h] at hl
          simp [hno, bind, Except.bind]
      | ok cs' =>
        cases bs with
        | nil => simp [bind, Except.bind, pure, Except.pure]
        | cons c cs =>
          have hiff := @ih cs
          rw [hl, Except.ok.injEq] at hiff
          simp [bind, Except.bind, pure, Except.pure, ha, ← hiff]

/-- A pass over a list returns where its function does on every element. -/
theorem mapM_returns_iff {α β ε : Type*} {f : α → Except ε β} {l : List α} :
    (∃ bs, l.mapM f = .ok bs) ↔ ∀ a ∈ l, ∃ b, f a = .ok b := by
  constructor
  · intro h a ha
    obtain ⟨bs, hbs⟩ := h
    obtain ⟨b, -, hb⟩ := exists_of_mem_right (mapM_eq_ok_iff.mp hbs).flip ha
    exact ⟨b, hb⟩
  · intro h
    obtain ⟨bs, hbs⟩ := exists_forall₂ h
    exact ⟨bs, mapM_eq_ok_iff.mpr hbs⟩

/-- What a pass over a list raises, its function raised on an element. -/
theorem exists_of_mapM_eq_error {α β ε : Type*} {f : α → Except ε β} {l : List α} {e : ε}
    (h : l.mapM f = .error e) : ∃ a ∈ l, f a = .error e := by
  induction l with
  | nil => simp [pure, Except.pure] at h
  | cons a l ih =>
    rw [List.mapM_cons] at h
    cases ha : f a with
    | error e' =>
      have hsame : e' = e := by simpa [ha, bind, Except.bind] using h
      exact ⟨a, List.mem_cons_self, hsame ▸ ha⟩
    | ok b =>
      cases hl : l.mapM f with
      | error e' =>
        have hsame : e' = e := by simpa [ha, hl, bind, Except.bind] using h
        obtain ⟨a', hmem, hraised⟩ := ih (hsame ▸ hl)
        exact ⟨a', List.mem_cons_of_mem _ hmem, hraised⟩
      | ok bs => simp [ha, hl, bind, Except.bind, pure, Except.pure] at h

theorem mapM_of_ok {α β ε : Type*} {f : α → Except ε β} {g : α → β} (h : ∀ a, f a = .ok (g a))
    (l : List α) : l.mapM f = .ok (l.map g) := by
  apply mapM_eq_ok_iff.mpr
  induction l with
  | nil => exact .nil
  | cons a l ih => exact .cons (h a) ih

namespace Dict
variable {κ ν μ ε : Type*} [DecidableEq κ]

theorem mapM_of_ok {f : ν → Except ε μ} {g : ν → μ} (h : ∀ v, f v = .ok (g v)) (d : Dict κ ν) :
    d.mapM f = .ok (d.map g) := by
  have hentry : ∀ e : κ × ν, ((f e.2).map fun v => (e.1, v)) = .ok (e.1, g e.2) := fun e => by
    rw [h]
    rfl
  rw [mapM, Foundation.mapM_of_ok hentry]
  exact congrArg Except.ok (update_empty (d.map g))

theorem mapM_returns_iff {f : ν → Except ε μ} {d : Dict κ ν} :
    (∃ d', d.mapM f = .ok d') ↔ ∀ v ∈ d.values, ∃ w, f v = .ok w := by
  have hmap : (∃ d', d.mapM f = .ok d') ↔
      ∃ es, (d.entries.mapM fun e => (f e.2).map fun v => (e.1, v)) = .ok es := by
    simp only [mapM, map_eq_ok_iff]
    exact ⟨fun h => ⟨h.choose_spec.choose, h.choose_spec.choose_spec.1⟩,
      fun h => ⟨_, h.choose, h.choose_spec, rfl⟩⟩
  rw [hmap, Foundation.mapM_returns_iff]
  simp only [values, map_eq_ok_iff, List.mem_map, Prod.forall, Prod.exists, exists_eq_right]
  constructor
  · intro h v hv
    obtain ⟨k, hk⟩ := hv
    obtain ⟨-, -, w, hw, -⟩ := h k v hk
    exact ⟨w, hw⟩
  · intro h k v hv
    obtain ⟨w, hw⟩ := h v ⟨k, hv⟩
    exact ⟨k, w, w, hw, rfl⟩

end Dict

end XtrMessenger.Foundation
