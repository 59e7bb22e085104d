import XtrMessenger.Receiver.Conservation
import Mathlib.Algebra.BigOperators.Group.Finset.Basic
import Mathlib.Algebra.Order.BigOperators.Group.Finset

/-! How long a message that was delivered waits to be handed out: no receiver, however much it
delivers, is served more than twice ahead of it. -/
namespace XtrMessenger.ChainedReceiver
open Foundation
variable {n : Nat} {ω : Type}

/-- The positions served while a message of `p` waits, after one more event. -/
def Event.serving (p : Fin n) (served : Option (List (Fin n))) :
    Event n ω → Option (List (Fin n))
  | .delivered q _ => if q = p then some [] else served
  | .yielded q _ _ _ => if q = p then none else served.map fun served => served ++ [q]
  | _ => served

/-- The positions served since the message that waits at `p` was delivered, if one waits. -/
def servedSince (p : Fin n) (log : List (Event n ω)) : Option (List (Fin n)) :=
  log.foldl (Event.serving p) none

theorem servedSince_concat (p : Fin n) (log : List (Event n ω)) (x : Event n ω) :
    servedSince p (log ++ [x]) = x.serving p (servedSince p log) := by
  simp [servedSince]

/-- A batch being served takes `q` ahead of `p` no more than twice in all, and once before a batch
that has `p` in it. -/
def InBatch (p q : Fin n) (served : Nat) (batch : List (Fin n)) : Prop :=
  if p ∈ batch then served + (batch.takeWhile fun x => x ≠ p).count q ≤ 2
  else served + batch.count q ≤ 1

/-- How often `q` may have been served while a fetched message waits. -/
def Behind (p q : Fin n) (served : Nat) : Phase n ω → Prop
  | .waiting => served ≤ 1
  | .yielding batch => InBatch p q served batch
  | .abandoning _ => served ≤ 2
  | _ => False

/-- The message of `p` is fetched. A fetch of `q` begun before its own was not served since. -/
def Ready (s : State n ω) (p q : Fin n) (served : Nat) : Prop :=
  ∃ older younger e, s.fetching = older ++ (p, some (.delivered e)) :: younger ∧
    (q ∈ older.map Prod.fst → served = 0)

/-- Where the message that waits at `p` is. -/
inductive Queued (s : State n ω) (p q : Fin n) (served : Nat) : Prop
  | fetched (ready : Ready s p q served) (behind : Behind p q served s.phase)
  | left (older younger : List (Fin n × Envelope ω)) (e : Envelope ω)
      (hl : s.leftovers = older ++ (p, e) :: younger)
      (hk : served + (older.map Prod.fst).count q ≤ 2)

/-- A batch holds fetches that have ended, each once. -/
structure Batched (s : State n ω) (batch : List (Fin n)) : Prop where
  nodup : batch.Nodup
  ended : ∀ x ∈ batch, ∃ o, (x, some o) ∈ s.fetching

/-- What is told of every message that waits. -/
def EachWaiting (log : List (Event n ω)) (P : Fin n → Fin n → Nat → Prop) : Prop :=
  ∀ p served, servedSince p log = some served → p ∉ served ∧ ∀ q, q ≠ p → P p q (served.count q)

structure Waits (s : State n ω) : Prop extends Inv s where
  batched : ∀ batch, s.phase = .yielding batch → Batched s batch
  queued : EachWaiting s.log (Queued s)

variable {s t : State n ω} {chained : ChainedReceiver n} {p q x : Fin n} {k : Nat}

section Lists

theorem EachWaiting.mono {log : List (Event n ω)} {P Q : Fin n → Fin n → Nat → Prop}
    (h : EachWaiting log P) (himp : ∀ p q k, P p q k → Q p q k) : EachWaiting log Q := by
  intro p served hs
  obtain ⟨hp, hall⟩ := h p served hs
  exact ⟨hp, fun q hq => himp p q _ (hall q hq)⟩

/-- A position has one fetch. -/
theorem outcome_of_mem (hn : (s.fetching.map Prod.fst).Nodup) {o : Option (Fetched ω)}
    (h : (p, o) ∈ s.fetching) : s.outcome p = o := by
  have hunique : ∀ f ∈ s.fetching, f.1 = p → f = (p, o) := by
    intro f hf hp
    exact List.inj_on_of_nodup_map hn hf h hp
  unfold State.outcome
  cases hfind : s.fetching.find? fun f => decide (f.1 = p) with
  | none => simpa using List.find?_eq_none.mp hfind _ h
  | some f =>
    have hp : f.1 = p := by simpa using List.find?_some hfind
    rw [hunique f (List.mem_of_find?_eq_some hfind) hp]
    rfl

theorem Ready.mem (h : Ready s p q k) : ∃ e, (p, some (.delivered e)) ∈ s.fetching := by
  obtain ⟨older, younger, e, hf, -⟩ := h
  exact ⟨e, by simp [hf]⟩

theorem Ready.of_eq (h : Ready s p q k) (hf : t.fetching = s.fetching) : Ready t p q k := by
  obtain ⟨older, younger, e, hs, ho⟩ := h
  exact ⟨older, younger, e, hf.trans hs, ho⟩

/-- The fetch of another is over. -/
theorem Ready.pop (h : Ready s p q k) (hx : x ≠ p) : Ready (s.pop x) p q k := by
  obtain ⟨older, younger, e, hf, ho⟩ := h
  refine ⟨older.filter fun f => f.1 ≠ x, younger.filter fun f => f.1 ≠ x, e, ?_, fun hq => ho ?_⟩
  · simp [State.pop, hf, List.filter_append, hx.symm]
  · obtain ⟨f, hm, rfl⟩ := List.mem_map.mp hq
    exact List.mem_map_of_mem (List.mem_filter.mp hm).1

/-- Another is served: its next fetch is begun after the one that waits. -/
theorem Ready.renew (h : Ready s p q k) (hx : x ≠ p)
    (hf : t.fetching = (s.pop x).fetching ++ [(x, none)]) :
    Ready t p q (k + [x].count q) := by
  obtain ⟨older, younger, e, hs, ho⟩ := h
  refine ⟨older.filter fun f => f.1 ≠ x, (younger.filter fun f => f.1 ≠ x) ++ [(x, none)], e, ?_,
    fun hq => ?_⟩
  · rw [hf]
    simp [State.pop, hs, List.filter_append, hx.symm]
  · obtain ⟨f, hm, rfl⟩ := List.mem_map.mp hq
    obtain ⟨hm, hne⟩ := List.mem_filter.mp hm
    have hold : k = 0 := ho (List.mem_map_of_mem hm)
    have hother : [x].count f.1 = 0 := by
      have hx : f.1 ≠ x := by simpa using hne
      simpa [List.count_cons] using hx.symm
    rw [hold, hother]

/-- The message at the head of a batch is served. -/
theorem InBatch.serve {batch : List (Fin n)} (h : InBatch p q k (x :: batch)) (hx : x ≠ p) :
    InBatch p q (k + [x].count q) batch := by
  unfold InBatch at h ⊢
  have hhead : decide (x ≠ p) = true := by simpa using hx
  have hmem : p ∈ x :: batch ↔ p ∈ batch := by simp [hx.symm]
  rw [List.takeWhile_cons, if_pos hhead] at h
  simp only [hmem, List.count_cons, List.count_nil, Nat.zero_add] at h ⊢
  split_ifs at h ⊢ <;> omega

theorem InBatch.le {batch : List (Fin n)} (h : InBatch p q k batch) : k ≤ 2 := by
  unfold InBatch at h
  split_ifs at h <;> omega

theorem InBatch.tail {batch : List (Fin n)} (h : InBatch p q k (x :: batch)) (hx : x ≠ p) :
    InBatch p q k batch := by
  have hserved := h.serve hx
  unfold InBatch at hserved ⊢
  split_ifs at hserved ⊢ <;> omega

end Lists

section Steps

theorem Batched.pop {batch : List (Fin n)} (h : Batched s (x :: batch)) :
    Batched (s.pop x) batch := by
  obtain ⟨hx, hnodup⟩ := List.nodup_cons.mp h.nodup
  refine ⟨hnodup, fun y hy => ?_⟩
  obtain ⟨o, ho⟩ := h.ended y (List.mem_cons_of_mem _ hy)
  have hne : y ≠ x := fun he => hx (he ▸ hy)
  exact ⟨o, List.mem_filter.mpr ⟨ho, by simpa using hne⟩⟩

theorem EachWaiting.yielded {log : List (Event n ω)} {P Q : Fin n → Fin n → Nat → Prop}
    (h : EachWaiting log P) (himp : ∀ p q k, x ≠ p → P p q k → Q p q (k + [x].count q))
    (ticket : Int) (collected e : Envelope ω) :
    EachWaiting (log ++ [.yielded x ticket collected e]) Q := by
  intro p served hs
  rw [servedSince_concat] at hs
  simp only [Event.serving] at hs
  split_ifs at hs with hx
  obtain ⟨before, hb, rfl⟩ := Option.map_eq_some_iff.mp hs
  obtain ⟨hp, hall⟩ := h p before hb
  refine ⟨by simpa [hp] using Ne.symm hx, fun q hq => ?_⟩
  rw [List.count_append]
  exact himp p q _ hx (hall q hq)

/-- Abandoned, what was fetched keeps its place. -/
theorem abandon_waits (hb : Balanced s) (hk : s.leftovers = []) (ending : Ending ω)
    (hq : EachWaiting s.log fun p q k => Ready s p q k ∧ k ≤ 2) :
    Waits (s.enter (.abandoning ending)) := by
  refine ⟨⟨hb.of_eq rfl rfl rfl, hk⟩, ?_, ?_⟩
  · rintro batch hphase
    cases hphase
  · exact hq.mono fun p q k h => .fetched (h.1.of_eq rfl) h.2

theorem serve_waits (hb : Balanced s) (hk : s.leftovers = []) (batch : List (Fin n))
    (hbatch : Batched s batch)
    (hq : EachWaiting s.log fun p q k => Ready s p q k ∧ InBatch p q k batch) :
    Waits (s.serve chained batch) := by
  induction batch generalizing s with
  | nil =>
    refine ⟨hb.wait hk, fun b hb => ?_, hq.mono fun p q k h => ?_⟩
    · change (s.wait).phase = _ at hb
      unfold State.wait State.enter at hb
      dsimp only at hb
      split_ifs at hb
    · obtain ⟨e, hm⟩ := h.1.mem
      have hwait : (s.serve chained []).phase = .waiting := by
        change (s.wait).phase = _
        simp [State.wait, State.enter, List.ne_nil_of_mem hm]
      refine .fetched (h.1.of_eq rfl) ?_
      rw [hwait]
      simpa [InBatch, Behind] using h.2
  | cons x batch ih =>
    -- a fetch that delivered nothing is not the one of a message that waits
    have hother : ∀ {p q k o}, s.outcome x = some o → heldBy (some o) = none →
        Ready s p q k → x ≠ p := by
      rintro p q k o ho hnone hr rfl
      obtain ⟨e, hm⟩ := hr.mem
      rw [outcome_of_mem hb.nodup hm] at ho
      obtain rfl := Option.some.inj ho
      simp [heldBy] at hnone
    have hpopped : ∀ {o}, s.outcome x = some o → heldBy (some o) = none →
        EachWaiting s.log fun p q k => Ready (s.pop x) p q k ∧ InBatch p q k batch := by
      intro o ho hnone
      refine hq.mono fun p q k h => ?_
      have hx := hother ho hnone h.1
      exact ⟨h.1.pop hx, h.2.tail hx⟩
    unfold State.serve
    split
    · rename_i e ho
      refine ⟨hb.yield hk ho batch, ?_, ?_⟩
      · rintro b hphase
        obtain rfl : batch = b := by simpa [State.hand] using hphase
        refine ⟨hbatch.pop.nodup, fun y hy => ?_⟩
        obtain ⟨o, hm⟩ := hbatch.pop.ended y hy
        exact ⟨o, List.mem_append_left _ hm⟩
      · refine EachWaiting.yielded hq (fun p q k hx h => ?_) s.tickets e _
        exact .fetched (h.1.renew hx rfl) (h.2.serve hx)
    · rename_i ho
      exact ih (hb.pop ho rfl) hk hbatch.pop (hpopped ho rfl)
    · rename_i error ho
      exact abandon_waits (hb.pop ho rfl) hk _
        ((hpopped ho rfl).mono fun p q k h => ⟨h.1, h.2.le⟩)
    · rename_i ho
      exact abandon_waits (hb.pop ho rfl) hk _
        ((hpopped ho rfl).mono fun p q k h => ⟨h.1, h.2.le⟩)
    · rename_i ho
      obtain ⟨o, hm⟩ := hbatch.ended x List.mem_cons_self
      rw [outcome_of_mem hb.nodup hm] at ho
      cases ho

theorem Queued.left_of_idle (h : Queued s p q k) (hf : s.fetching = []) :
    ∃ older younger e, s.leftovers = older ++ (p, e) :: younger ∧
      k + (older.map Prod.fst).count q ≤ 2 := by
  cases h with
  | fetched ready behind =>
    obtain ⟨e, hm⟩ := ready.mem
    simp [hf] at hm
  | left older younger e hl hk => exact ⟨older, younger, e, hl, hk⟩

theorem Queued.ready_of_drained (h : Queued s p q k) (hl : s.leftovers = []) :
    Ready s p q k ∧ Behind p q k s.phase := by
  cases h with
  | fetched ready behind => exact ⟨ready, behind⟩
  | left older younger e hold hk => simp [hl] at hold

/-- The fetches of a batch that is woken have ended. -/
theorem done_batched (hb : Balanced s) : Batched s s.done := by
  have hperm := List.perm_insertionSort (· ≤ ·)
    (s.fetching.filterMap fun fetch => fetch.2.map fun _ => fetch.1)
  constructor
  · refine hperm.nodup_iff.mpr (hb.nodup.sublist ?_)
    have hmap : s.fetching.map Prod.fst = s.fetching.filterMap fun f => some f.1 := by simp
    rw [hmap]
    refine filterMap_sublist (fun f x hx => ?_) _
    obtain ⟨o, -, rfl⟩ := Option.map_eq_some_iff.mp hx
    rfl
  · intro x hx
    obtain ⟨⟨y, o⟩, hm, hy⟩ := List.mem_filterMap.mp (hperm.mem_iff.mp hx)
    obtain ⟨o, rfl, rfl⟩ := Option.map_eq_some_iff.mp hy
    exact ⟨o, hm⟩

theorem Ready.mem_done (h : Ready s p q k) : p ∈ s.done := by
  obtain ⟨e, hm⟩ := h.mem
  refine (List.perm_insertionSort _ _).mem_iff.mpr (List.mem_filterMap.mpr ?_)
  exact ⟨_, hm, rfl⟩

theorem woken_waits (hi : Waits s) (hph : s.phase = .waiting) :
    Waits (s.serve chained s.done) := by
  have hp := hi.phase
  rw [hph] at hp
  have hbatch := done_batched hi.toBalanced
  refine serve_waits hi.toBalanced hp _ hbatch (hi.queued.mono fun p q k h => ?_)
  obtain ⟨ready, behind⟩ := h.ready_of_drained hp
  rw [hph] at behind
  have hk : k ≤ 1 := behind
  have hcount : (s.done.takeWhile fun x => x ≠ p).count q ≤ 1 := by
    refine List.nodup_iff_count_le_one.mp (hbatch.nodup.sublist ?_) q
    exact List.takeWhile_sublist _
  refine ⟨ready, ?_⟩
  rw [InBatch, if_pos ready.mem_done]
  omega

theorem EachWaiting.quiet {log : List (Event n ω)} {P : Fin n → Fin n → Nat → Prop}
    {y : Event n ω} (h : EachWaiting log P) (hy : ∀ p served, y.serving p served = served) :
    EachWaiting (log ++ [y]) P := by
  intro p served hs
  rw [servedSince_concat, hy] at hs
  exact h p served hs

theorem drain_waits (hb : Balanced s) (hf : s.fetching = []) (hq : EachWaiting s.log (Queued s)) :
    Waits (s.drain chained) := by
  have hinv : Inv (s.drain chained) := hb.drain hf
  unfold State.drain at hinv ⊢
  split at hinv
  · rename_i x e leftovers hl
    refine ⟨hinv, by simp [State.hand], ?_⟩
    refine EachWaiting.yielded hq (fun p q k hx h => ?_) s.tickets e _
    obtain ⟨older, younger, e', hold, hk⟩ := h.left_of_idle hf
    rw [hl] at hold
    cases older with
    | nil =>
      obtain ⟨⟨rfl, -⟩, -⟩ := by simpa using hold
      exact absurd rfl hx
    | cons first older =>
      obtain ⟨rfl, hrest⟩ := List.cons_eq_cons.mp hold
      refine .left older younger e' hrest ?_
      simp only [List.map_cons, List.count_cons, List.count_nil, Nat.zero_add] at hk ⊢
      omega
  · rename_i hl
    have hnone : ∀ p q k, ¬Queued s p q k := by
      intro p q k h
      obtain ⟨older, younger, e, hold, -⟩ := h.left_of_idle hf
      simp [hl] at hold
    refine ⟨hinv, fun batch hphase => ?_, hq.mono fun p q k h => absurd h (hnone p q k)⟩
    unfold State.wait State.enter at hphase
    dsimp only at hphase
    split_ifs at hphase

theorem keep_waits (hi : Waits s) {ending : Ending ω} (hph : s.phase = .abandoning ending) :
    Waits (s.keep ending) := by
  have hnone : s.leftovers = [] := by
    have hp := hi.phase
    rw [hph] at hp
    exact hp
  refine ⟨hi.keep ending, by simp [State.keep], hi.queued.mono fun p q k h => ?_⟩
  obtain ⟨⟨older, younger, e, hf, ho⟩, behind⟩ := h.ready_of_drained hnone
  rw [hph] at behind
  have hkept : (s.keep ending).leftovers =
      (older.filterMap fun f => (heldBy f.2).map fun e => (f.1, e)) ++
        (p, e) :: younger.filterMap fun f => (heldBy f.2).map fun e => (f.1, e) := by
    simp [State.keep, hnone, hf, heldBy]
  refine .left _ _ e hkept ?_
  have hsub : ((older.filterMap fun f => (heldBy f.2).map fun e => (f.1, e)).map
      Prod.fst).Sublist (older.map Prod.fst) := by
    have hmap : older.map Prod.fst = older.filterMap fun f => some f.1 := by simp
    rw [List.map_filterMap, hmap]
    refine filterMap_sublist (fun f x hx => ?_) _
    cases hheld : heldBy f.2 with
    | none =>
      rw [hheld] at hx
      cases hx
    | some e =>
      rw [hheld] at hx
      exact hx
  have hnodup := hi.nodup
  rw [hf, List.map_append] at hnodup
  have hone := List.nodup_iff_count_le_one.mp (hnodup.of_append_left.sublist hsub) q
  by_cases hq : q ∈ older.map Prod.fst
  · rw [ho hq]
    omega
  · rw [List.count_eq_zero.mpr fun hm => hq (hsub.subset hm)]
    exact behind

theorem finish_waits (hi : Waits s) (hf : s.fetching = []) (ending : Ending ω) :
    Waits (s.finish ending) := by
  refine ⟨hi.finish hf ending, by simp [State.finish, State.enter], ?_⟩
  refine (hi.queued.mono fun p q k h => ?_).quiet fun _ _ => rfl
  obtain ⟨older, younger, e, hl, hk⟩ := h.left_of_idle hf
  exact .left older younger e hl hk

/-- A fetch in flight is not one that has ended. -/
theorem ne_of_ended (hn : (s.fetching.map Prod.fst).Nodup) (hx : (x, none) ∈ s.fetching)
    {o : Fetched ω} (hp : (p, some o) ∈ s.fetching) : p ≠ x := by
  rintro rfl
  have hnone := outcome_of_mem hn hx
  rw [outcome_of_mem hn hp] at hnone
  cases hnone

theorem Ready.arrive (h : Ready s p q k) (hx : p ≠ x) (fetch : Fetched ω) :
    Ready (s.arrive x fetch) p q k := by
  obtain ⟨older, younger, e, hf, ho⟩ := h
  set arrived := fun f : Fin n × Option (Fetched ω) => if f.1 = x then (x, some fetch) else f
  refine ⟨older.map arrived, younger.map arrived, e, ?_, fun hq => ho ?_⟩
  · simp [State.arrive, hf, arrived, hx]
  · obtain ⟨_, ha, rfl⟩ := List.mem_map.mp hq
    obtain ⟨f, hm, rfl⟩ := List.mem_map.mp ha
    refine List.mem_map.mpr ⟨f, hm, ?_⟩
    dsimp only [arrived]
    split_ifs with he
    · exact he
    · rfl

/-- Delivered, a message has been passed by none. -/
theorem ready_of_delivered (hx : (p, none) ∈ s.fetching) (e : Envelope ω) (q : Fin n) :
    Ready (s.arrive p (.delivered e)) p q 0 := by
  obtain ⟨older, younger, hf⟩ := List.append_of_mem hx
  set arrived := fun f : Fin n × Option (Fetched ω) =>
    if f.1 = p then (p, some (.delivered e)) else f
  refine ⟨older.map arrived, younger.map arrived, e, ?_, fun _ => rfl⟩
  simp [State.arrive, hf, arrived]

theorem Batched.arrive {batch : List (Fin n)} (h : Batched s batch)
    (hn : (s.fetching.map Prod.fst).Nodup) (hx : (x, none) ∈ s.fetching) (fetch : Fetched ω) :
    Batched (s.arrive x fetch) batch := by
  refine ⟨h.nodup, fun y hy => ?_⟩
  obtain ⟨o, ho⟩ := h.ended y hy
  exact ⟨o, List.mem_map.mpr ⟨_, ho, if_neg (ne_of_ended hn hx ho)⟩⟩

/-- Where a message that was just delivered waits. -/
theorem behind_of_delivered (hi : Waits s) (hx : (p, none) ∈ s.fetching) (q : Fin n) :
    Behind p q 0 s.phase := by
  have hne : s.fetching ≠ [] := List.ne_nil_of_mem hx
  have hp := hi.phase
  cases hph : s.phase with
  | idle => exact absurd (hph ▸ hp : InPhase s .idle) hne
  | draining => exact absurd (hph ▸ hp : InPhase s .draining) hne
  | closing ending => exact absurd (hph ▸ hp : InPhase s (.closing ending)) hne
  | waiting => exact Nat.zero_le 1
  | abandoning ending => exact Nat.zero_le 2
  | yielding batch =>
    have hbatch := hi.batched batch hph
    have hout : p ∉ batch := by
      intro hm
      obtain ⟨o, ho⟩ := hbatch.ended p hm
      exact ne_of_ended hi.nodup hx ho rfl
    have hone := List.nodup_iff_count_le_one.mp hbatch.nodup q
    rw [Behind, InBatch, if_neg hout]
    omega

theorem arrive_waits (hi : Waits s) (hx : (x, none) ∈ s.fetching) (fetch : Fetched ω)
    (hinv : Inv (s.arrive x fetch)) : Waits (s.arrive x fetch) := by
  have hkept : EachWaiting s.log fun p q k => p ≠ x → Queued (s.arrive x fetch) p q k := by
    refine hi.queued.mono fun p q k h hp => ?_
    cases h with
    | fetched ready behind => exact .fetched (ready.arrive hp fetch) behind
    | left older younger e hl hk => exact .left older younger e hl hk
  have hwaits : ∀ p q k, Queued s p q k → p ≠ x := by
    rintro p q k h rfl
    cases h with
    | fetched ready behind =>
      obtain ⟨e, hm⟩ := ready.mem
      exact ne_of_ended hi.nodup hx hm rfl
    | left older younger e hl hk =>
      -- nothing is left over while something is fetched
      have hbehind := behind_of_delivered hi hx q
      have hp := hi.phase
      cases hph : s.phase <;> simp_all [InPhase, Behind]
  refine ⟨hinv, fun batch hph => (hi.batched batch hph).arrive hi.nodup hx fetch, ?_⟩
  have hrest : EachWaiting s.log (Queued (s.arrive x fetch)) := by
    intro p served hs
    obtain ⟨hp, hall⟩ := hi.queued p served hs
    refine ⟨hp, fun q hq => ?_⟩
    exact (hkept p served hs).2 q hq (hwaits p q _ (hall q hq))
  cases fetch with
  | delivered e =>
    intro p served hs
    change servedSince p (s.log ++ [.delivered x e]) = some served at hs
    rw [servedSince_concat] at hs
    simp only [Event.serving] at hs
    split_ifs at hs with he
    · subst he
      obtain rfl := Option.some.inj hs
      refine ⟨List.not_mem_nil, fun q _ => ?_⟩
      exact .fetched (ready_of_delivered hx e q) (behind_of_delivered hi hx q)
    · exact hrest p served hs
  | exhausted => simpa [State.arrive, heldBy] using hrest
  | raised error => simpa [State.arrive, heldBy] using hrest
  | cancelled => simpa [State.arrive, heldBy] using hrest

theorem settle_waits (hi : Waits s) (settlement : Settlement) (e : Envelope ω)
    (hinv : Inv (s.settle settlement e)) : Waits (s.settle settlement e) := by
  have hstate : (s.settle settlement e).fetching = s.fetching ∧
      (s.settle settlement e).leftovers = s.leftovers ∧
      (s.settle settlement e).phase = s.phase ∧
      ∃ forwarded, (s.settle settlement e).log = s.log ++ [.settled settlement e forwarded] := by
    unfold State.settle
    split
    · exact ⟨rfl, rfl, rfl, _, rfl⟩
    · exact ⟨rfl, rfl, rfl, _, rfl⟩
  obtain ⟨hf, hl, hph, forwarded, hlog⟩ := hstate
  refine ⟨hinv, fun batch hb => ?_, ?_⟩
  · obtain ⟨hnodup, hended⟩ := hi.batched batch (hph.symm.trans hb)
    exact ⟨hnodup, hf ▸ hended⟩
  · rw [hlog]
    refine (hi.queued.mono fun p q k h => ?_).quiet fun _ _ => rfl
    cases h with
    | fetched ready behind => exact .fetched (ready.of_eq hf) (hph ▸ behind)
    | left older younger e hold hk => exact .left older younger e (hl.trans hold) hk

theorem step_waits {a : Action n ω} (hi : Waits s) (h : Steps chained s a t) : Waits t := by
  have hinv : Inv t := step_inv hi.toInv h
  have hp := hi.phase
  cases h with
  | settle k e => exact settle_waits hi k e hinv
  | fetched p fetch hm => exact arrive_waits hi hm fetch hinv
  | got hph =>
    rw [hph] at hp
    exact drain_waits (hi.toBalanced.note quiet_got) hp
      ((hi.queued.mono fun p q k h => by
        obtain ⟨older, younger, e, hl, hk⟩ := h.left_of_idle hp
        exact .left older younger e hl hk).quiet fun _ _ => rfl)
  | drain hph =>
    rw [hph] at hp
    exact drain_waits hi.toBalanced hp hi.queued
  | drainClosed hph =>
    rw [hph] at hp
    exact finish_waits hi hp _
  | woken hph => exact woken_waits hi hph
  | cancelled hph =>
    rw [hph] at hp
    refine abandon_waits hi.toBalanced hp _ (hi.queued.mono fun p q k h => ?_)
    obtain ⟨ready, behind⟩ := h.ready_of_drained hp
    rw [hph] at behind
    have hk : k ≤ 1 := behind
    exact ⟨ready, by omega⟩
  | serve batch hph =>
    rw [hph] at hp
    refine serve_waits hi.toBalanced hp batch (hi.batched batch hph)
      (hi.queued.mono fun p q k h => ?_)
    obtain ⟨ready, behind⟩ := h.ready_of_drained hp
    rw [hph] at behind
    exact ⟨ready, behind⟩
  | serveClosed batch hph =>
    rw [hph] at hp
    refine abandon_waits hi.toBalanced hp _ (hi.queued.mono fun p q k h => ?_)
    obtain ⟨ready, behind⟩ := h.ready_of_drained hp
    rw [hph] at behind
    exact ⟨ready, InBatch.le behind⟩
  | gathered ending hph hd => exact keep_waits hi hph
  | ended ending hph raised =>
    rw [hph] at hp
    exact finish_waits hi hp _

theorem reachable_waits (h : (machine ω chained).Reachable s) : Waits s := by
  refine h.invariant ?_ fun s a t _ hi _ hs => step_waits hi (steps_of_step hs)
  rintro s rfl
  have hstart : (machine ω chained).Reachable {} := .start rfl
  refine ⟨reachable_inv hstart, by simp, ?_⟩
  intro p served hs
  cases hs

end Steps

/-- What was served since a message of `p` was delivered that is not handed out yet. -/
structure Overtaken (p : Fin n) (served : List (Fin n)) : Prop where
  others : p ∉ served
  twice : ∀ q, served.count q ≤ 2
  length : served.length ≤ 2 * (n - 1)

theorem Queued.le (h : Queued s p q k) : k ≤ 2 := by
  cases h with
  | left older younger e hl hk => omega
  | fetched ready behind =>
    unfold Behind at behind
    split at behind
    · omega
    · exact InBatch.le behind
    · exact behind
    · exact behind.elim

/-- A bound on each position's count bounds the length. -/
theorem length_le_of_count {served : List (Fin n)} (hp : p ∉ served)
    (hk : ∀ q, served.count q ≤ 2) : served.length ≤ 2 * (n - 1) := by
  have hsub : served.toFinset ⊆ Finset.univ.erase p := by
    intro q hq
    refine Finset.mem_erase.mpr ⟨?_, Finset.mem_univ q⟩
    rintro rfl
    exact hp (List.mem_toFinset.mp hq)
  calc served.length = ∑ q ∈ served.toFinset, served.count q :=
        (List.sum_toFinset_count_eq_length served).symm
    _ ≤ served.toFinset.card • 2 := Finset.sum_le_card_nsmul _ _ 2 fun q _ => hk q
    _ ≤ (n - 1) * 2 := by
        have hcard := Finset.card_le_card hsub
        rw [Finset.card_erase_of_mem (Finset.mem_univ p), Finset.card_univ,
          Fintype.card_fin] at hcard
        change served.toFinset.card * 2 ≤ (n - 1) * 2
        exact Nat.mul_le_mul_right 2 hcard
    _ = 2 * (n - 1) := Nat.mul_comm _ _

/-- A message that was delivered is handed out before any other receiver is served a third
time, over however many sessions it waits. -/
theorem overtaken_twice (h : (machine ω chained).Reachable s) {served : List (Fin n)}
    (hs : servedSince p s.log = some served) : Overtaken p served := by
  obtain ⟨hp, hall⟩ := (reachable_waits h).queued p served hs
  have htwice : ∀ q, served.count q ≤ 2 := by
    intro q
    rcases eq_or_ne q p with rfl | hq
    · rw [List.count_eq_zero.mpr hp]
      omega
    · exact (hall q hq).le
  exact ⟨hp, htwice, length_le_of_count hp htwice⟩

/-- A message of `third`, delivered while a batch without it is served, is passed twice by one of
`second`: as what is left of that batch, and at the head of its own. -/
def passedTwice (first second third : Fin n) : List (Action n Nat) :=
  [.get, .fetched first (.delivered ⟨10, []⟩), .fetched second (.delivered ⟨20, []⟩), .wake,
    .fetched third (.delivered ⟨30, []⟩), .resume, .resume,
    .fetched second (.delivered ⟨21, []⟩), .wake]

theorem overtaken_twice_passedTwice :
    ∃ s, (machine Nat (n := 3) ⟨none⟩).run {} (passedTwice 0 1 2) = some s ∧
      servedSince 2 s.log = some [1, 1] ∧ Overtaken 2 [(1 : Fin 3), 1] :=
  ⟨_, rfl, rfl, overtaken_twice
    (Machine.Reachable.run (M := machine Nat ⟨none⟩) (.start rfl) (passedTwice 0 1 2) rfl) rfl⟩

end XtrMessenger.ChainedReceiver
