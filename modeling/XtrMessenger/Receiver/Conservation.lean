import XtrMessenger.Receiver.Chained

/-! What a receiver delivers is yielded once, in its order, or kept for the next session. -/
namespace XtrMessenger.ChainedReceiver
open Foundation
variable {n : Nat} {ω : Type}

def Event.deliveredAt (position : Fin n) : Event n ω → Option (Envelope ω)
  | .delivered q e => if q = position then some e else none
  | _ => none

def Event.yieldedAt (position : Fin n) : Event n ω → Option (Envelope ω)
  | .yielded q _ collected _ => if q = position then some collected else none
  | _ => none

/-- The envelopes the receiver at a position delivered, in order. -/
def deliveredAt (position : Fin n) (log : List (Event n ω)) : List (Envelope ω) :=
  log.filterMap (Event.deliveredAt position)

/-- The envelopes collected at a position that were yielded, in order. -/
def yieldedAt (position : Fin n) (log : List (Event n ω)) : List (Envelope ω) :=
  log.filterMap (Event.yieldedAt position)

def leftoversAt (position : Fin n) (leftovers : List (Fin n × Envelope ω)) : List (Envelope ω) :=
  leftovers.filterMap fun l => if l.1 = position then some l.2 else none

/-- What the fetches begun at a position hold. -/
def pendingAt (position : Fin n) (fetching : List (Fin n × Option (Fetched ω))) :
    List (Envelope ω) :=
  fetching.filterMap fun f => if f.1 = position then heldBy f.2 else none

/-- Nothing delivered is lost or yielded twice, and each receiver's order is kept: what it
delivered is what was yielded, then what is left over, then what a session in progress has
fetched and not yet handed out. -/
structure Conserved (s : State n ω) : Prop where
  each : ∀ p, deliveredAt p s.log =
    yieldedAt p s.log ++ (leftoversAt p s.leftovers ++ pendingAt p s.fetching)
  /-- Between sessions nothing but the leftovers is held. -/
  idle : s.phase = .idle → ∀ p, deliveredAt p s.log =
    yieldedAt p s.log ++ leftoversAt p s.leftovers

section Lists
variable {fetching : List (Fin n × Option (Fetched ω))} {p q : Fin n}

theorem pendingAt_append (l l' : List (Fin n × Option (Fetched ω))) :
    pendingAt p (l ++ l') = pendingAt p l ++ pendingAt p l' := List.filterMap_append

theorem pendingAt_of_notMem (h : p ∉ fetching.map Prod.fst) : pendingAt p fetching = [] := by
  refine List.filterMap_eq_nil_iff.mpr fun f hf => if_neg ?_
  rintro rfl
  exact h (List.mem_map_of_mem hf)

/-- A position has one fetch at most, so what is pending at it is what that fetch holds. -/
theorem pendingAt_of_mem (hn : (fetching.map Prod.fst).Nodup) {o : Option (Fetched ω)}
    (h : (p, o) ∈ fetching) : pendingAt p fetching = (heldBy o).toList := by
  induction fetching with
  | nil => simp at h
  | cons f fs ih =>
    rw [List.map_cons, List.nodup_cons] at hn
    rcases List.mem_cons.mp h with rfl | h
    · have hrest : pendingAt p fs = [] := pendingAt_of_notMem hn.1
      simp only [pendingAt] at hrest ⊢
      cases ho : heldBy o <;> simp [hrest, ho]
    · have hne : f.1 ≠ p := fun he => hn.1 (he ▸ List.mem_map_of_mem h)
      simpa [pendingAt, hne] using ih hn.2 h

theorem pendingAt_filter_self :
    pendingAt p (fetching.filter fun f => f.1 ≠ p) = [] :=
  pendingAt_of_notMem (by simp)

theorem pendingAt_filter_of_ne (h : q ≠ p) :
    pendingAt q (fetching.filter fun f => f.1 ≠ p) = pendingAt q fetching := by
  rw [pendingAt, List.filterMap_filter]
  refine List.filterMap_congr fun f _ => ?_
  by_cases hf : f.1 = q
  · simp [hf, h]
  · simp [hf]

theorem leftoversAt_append (l l' : List (Fin n × Envelope ω)) :
    leftoversAt p (l ++ l') = leftoversAt p l ++ leftoversAt p l' := List.filterMap_append

theorem leftoversAt_kept : leftoversAt p (fetching.filterMap fun f =>
    (heldBy f.2).map fun e => (f.1, e)) = pendingAt p fetching := by
  rw [leftoversAt, List.filterMap_filterMap]
  refine List.filterMap_congr fun f _ => ?_
  cases heldBy f.2 <;> simp

end Lists

theorem deliveredAt_concat (p : Fin n) (log : List (Event n ω)) (x : Event n ω) :
    deliveredAt p (log ++ [x]) = deliveredAt p log ++ (x.deliveredAt p).toList :=
  filterMap_concat _ _ _

theorem yieldedAt_concat (p : Fin n) (log : List (Event n ω)) (x : Event n ω) :
    yieldedAt p (log ++ [x]) = yieldedAt p log ++ (x.yieldedAt p).toList :=
  filterMap_concat _ _ _

/-- What holds of the lists in every phase. -/
structure Balanced (s : State n ω) : Prop where
  nodup : (s.fetching.map Prod.fst).Nodup
  each : ∀ p, deliveredAt p s.log =
    yieldedAt p s.log ++ (leftoversAt p s.leftovers ++ pendingAt p s.fetching)

/-- Leftovers are drained before a fetch begins, and kept once none is left. -/
def InPhase (s : State n ω) : Phase n ω → Prop
  | .idle | .draining | .closing _ => s.fetching = []
  | .waiting | .yielding _ | .abandoning _ => s.leftovers = []

structure Inv (s : State n ω) : Prop extends Balanced s where
  phase : InPhase s s.phase

variable {s t : State n ω} {chained : ChainedReceiver n}

theorem Balanced.of_eq (h : Balanced s) (hl : t.log = s.log) (hf : t.fetching = s.fetching)
    (hk : t.leftovers = s.leftovers) : Balanced t :=
  ⟨hf ▸ h.nodup, by rw [hl, hf, hk]; exact h.each⟩

/-- An event that neither delivers nor yields. -/
def Event.Quiet (x : Event n ω) : Prop := ∀ p, x.deliveredAt p = none ∧ x.yieldedAt p = none

theorem Balanced.note (h : Balanced s) {x : Event n ω} (hx : x.Quiet) : Balanced (s.note x) where
  nodup := h.nodup
  each p := by simpa [State.note, deliveredAt_concat, yieldedAt_concat, hx p] using h.each p

theorem quiet_got : (Event.got : Event n ω).Quiet := fun _ => ⟨rfl, rfl⟩
theorem quiet_ended (e : Ending ω) : (Event.ended e : Event n ω).Quiet := fun _ => ⟨rfl, rfl⟩
theorem quiet_settled (k : Settlement) (e : Envelope ω) (f : Option (Fin n × Envelope ω)) :
    (Event.settled k e f).Quiet := fun _ => ⟨rfl, rfl⟩

theorem Balanced.wait (h : Balanced s) (hk : s.leftovers = []) : Inv s.wait := by
  refine ⟨h.of_eq rfl rfl rfl, ?_⟩
  unfold State.wait State.enter
  dsimp only
  split_ifs <;> exact hk

theorem Balanced.finish (h : Balanced s) (hf : s.fetching = []) (e : Ending ω) :
    Inv (s.finish e) :=
  ⟨(h.note (quiet_ended e)).of_eq rfl rfl rfl, hf⟩

/-- A leftover handed out moves from the leftovers to what was yielded. -/
theorem Balanced.drain (h : Balanced s) (hf : s.fetching = []) : Inv (s.drain chained) := by
  unfold State.drain
  split
  · rename_i position envelope leftovers hk
    refine ⟨⟨h.nodup, fun p => ?_⟩, hf⟩
    have hp := h.each p
    simp only [State.hand, hf, hk, leftoversAt, deliveredAt_concat, yieldedAt_concat,
      Event.deliveredAt, Event.yieldedAt, Option.toList_none, List.append_nil] at hp ⊢
    rw [hp]
    by_cases hq : position = p <;> simp [hq, pendingAt]
  · rename_i hk
    refine Balanced.wait ⟨?_, fun p => ?_⟩ hk
    · simp [List.map_map, Function.comp_def, List.nodup_finRange]
    · have hnone : pendingAt p ((List.finRange n).map fun q => ((q, none) :
          Fin n × Option (Fetched ω))) = [] :=
        List.filterMap_eq_nil_iff.mpr fun f hm => by
          obtain ⟨q, -, rfl⟩ := List.mem_map.mp hm
          simp [heldBy]
      have hp := h.each p
      rw [hf] at hp
      exact hp.trans (by rw [hnone]; rfl)

theorem outcome_mem {p : Fin n} {o : Fetched ω} (h : s.outcome p = some o) :
    (p, some o) ∈ s.fetching := by
  obtain ⟨⟨q, o'⟩, hfind, ho⟩ := Option.bind_eq_some_iff.mp h
  have hq := List.find?_some hfind
  simp only [decide_eq_true_eq] at hq
  subst hq
  exact ho ▸ List.mem_of_find?_eq_some hfind

theorem Balanced.pop (h : Balanced s) {p : Fin n} {o : Fetched ω} (ho : s.outcome p = some o)
    (hn : heldBy (some o) = none) : Balanced (s.pop p) where
  nodup := h.nodup.sublist (List.filter_sublist.map _)
  each q := by
    have hq := h.each q
    by_cases hqp : q = p
    · subst hqp
      rw [pendingAt_of_mem h.nodup (outcome_mem ho), hn] at hq
      rw [State.pop, pendingAt_filter_self]
      exact hq
    · rw [State.pop, pendingAt_filter_of_ne hqp]
      exact hq

/-- A message handed out moves from its fetch to what was yielded, and the next fetch of its
stream begins. -/
theorem Balanced.yield (h : Balanced s) (hk : s.leftovers = []) {p : Fin n} {e : Envelope ω}
    (ho : s.outcome p = some (.delivered e)) (batch : List (Fin n)) :
    Inv (({ s.pop p with fetching := (s.pop p).fetching ++ [(p, none)] } : State n ω).hand chained
      p e (.yielding batch)) := by
  refine ⟨⟨?_, fun q => ?_⟩, hk⟩
  · have hmap : (s.fetching.filter fun f => f.1 ≠ p).map Prod.fst =
        (s.fetching.map Prod.fst).filter (· ≠ p) := by simp [List.filter_map, Function.comp_def]
    simp only [State.hand, State.pop, List.map_append, List.map_cons, List.map_nil, hmap]
    exact List.nodup_append.mpr ⟨h.nodup.filter _, by simp, by simp⟩
  · have hq := h.each q
    simp only [State.hand, State.pop, hk, leftoversAt, List.filterMap_nil, List.nil_append,
      deliveredAt_concat, yieldedAt_concat, Event.deliveredAt, Event.yieldedAt,
      Option.toList_none, List.append_nil, pendingAt_append] at hq ⊢
    by_cases hqp : q = p
    · subst hqp
      rw [pendingAt_of_mem h.nodup (outcome_mem ho)] at hq
      rw [pendingAt_filter_self, hq]
      simp [heldBy, pendingAt]
    · rw [pendingAt_filter_of_ne hqp, hq]
      simp [pendingAt, Ne.symm hqp]

theorem Balanced.serve (h : Balanced s) (hk : s.leftovers = []) (batch : List (Fin n)) :
    Inv (s.serve chained batch) := by
  induction batch generalizing s with
  | nil => exact h.wait hk
  | cons p batch ih =>
    unfold State.serve
    split
    · exact h.yield hk ‹_› batch
    · exact ih (h.pop ‹_› rfl) hk
    · exact ⟨(h.pop ‹_› rfl).of_eq rfl rfl rfl, hk⟩
    · exact ⟨(h.pop ‹_› rfl).of_eq rfl rfl rfl, hk⟩
    · exact ih h hk

theorem Balanced.arrive (h : Balanced s) {p : Fin n} (hp : (p, none) ∈ s.fetching)
    (fetch : Fetched ω) : Balanced (s.arrive p fetch) := by
  have hfst : (s.fetching.map fun f => if f.1 = p then (p, some fetch) else f).map Prod.fst =
      s.fetching.map Prod.fst := by
    rw [List.map_map]
    refine List.map_congr_left fun f _ => ?_
    simp only [Function.comp_apply]
    split_ifs with hf <;> simp [hf]
  refine ⟨by rw [State.arrive, hfst]; exact h.nodup, fun q => ?_⟩
  have hdelivered : deliveredAt q (s.arrive p fetch).log = deliveredAt q s.log ++
      if q = p then (heldBy (some fetch)).toList else [] := by
    cases fetch with
    | delivered e =>
      rcases eq_or_ne q p with rfl | hqp
      · simp [State.arrive, heldBy, deliveredAt_concat, Event.deliveredAt]
      · simp [State.arrive, heldBy, deliveredAt_concat, Event.deliveredAt, hqp, hqp.symm]
    | _ => simp [State.arrive, heldBy]
  have hyielded : yieldedAt q (s.arrive p fetch).log = yieldedAt q s.log := by
    cases fetch with
    | delivered e => simp [State.arrive, heldBy, yieldedAt_concat, Event.yieldedAt]
    | _ => simp [State.arrive, heldBy]
  have hpending : pendingAt q (s.arrive p fetch).fetching =
      pendingAt q s.fetching ++ if q = p then (heldBy (some fetch)).toList else [] := by
    split_ifs with hqp
    · subst hqp
      have hm : (q, some fetch) ∈ (s.arrive q fetch).fetching :=
        List.mem_map.mpr ⟨_, hp, by simp⟩
      rw [pendingAt_of_mem h.nodup hp,
        pendingAt_of_mem (by rw [State.arrive, hfst]; exact h.nodup) hm]
      simp [heldBy]
    · rw [List.append_nil, State.arrive, pendingAt, List.filterMap_map]
      refine List.filterMap_congr fun f _ => ?_
      by_cases hf : f.1 = p
      · simp [hf, Ne.symm hqp]
      · simp [hf]
  rw [hdelivered, hyielded, hpending, h.each q]
  simp [State.arrive]

theorem Balanced.keep (h : Balanced s) (ending : Ending ω) : Inv (s.keep ending) := by
  refine ⟨⟨by simp [State.keep], fun p => ?_⟩, rfl⟩
  simp only [State.keep, leftoversAt_append, leftoversAt_kept]
  simpa [pendingAt] using h.each p

theorem InPhase.of_eq {phase : Phase n ω} (h : InPhase s phase) (hf : t.fetching = s.fetching)
    (hk : t.leftovers = s.leftovers) : InPhase t phase := by
  cases phase <;> first | exact hf.trans h | exact hk.trans h

theorem step_inv {a : Action n ω} (hi : Inv s) (h : Steps chained s a t) : Inv t := by
  have hb := hi.toBalanced
  have hp := hi.phase
  cases h with
  | settle k e =>
    unfold State.settle
    split
    · exact ⟨(hb.note (quiet_settled k e none)).of_eq rfl rfl rfl, hp.of_eq rfl rfl⟩
    · exact ⟨(hb.note (quiet_settled k e _)).of_eq rfl rfl rfl, hp.of_eq rfl rfl⟩
  | fetched p fetch hm =>
    refine ⟨hb.arrive hm fetch, ?_⟩
    change InPhase _ s.phase
    -- with a fetch in flight only the phases that say nothing of the fetches are possible
    have hne : s.fetching ≠ [] := List.ne_nil_of_mem hm
    revert hp
    cases s.phase <;> intro hp <;> first | exact absurd hp hne | exact hp
  | got hph =>
    rw [hph] at hp
    exact (hb.note quiet_got).drain hp
  | drain hph =>
    rw [hph] at hp
    exact hb.drain hp
  | drainClosed hph =>
    rw [hph] at hp
    exact hb.finish hp _
  | woken hph =>
    rw [hph] at hp
    exact hb.serve hp _
  | cancelled hph =>
    rw [hph] at hp
    exact ⟨hb.of_eq rfl rfl rfl, hp⟩
  | serve batch hph =>
    rw [hph] at hp
    exact hb.serve hp batch
  | serveClosed batch hph =>
    rw [hph] at hp
    exact ⟨hb.of_eq rfl rfl rfl, hp⟩
  | gathered ending hph hd => exact hb.keep ending
  | ended ending hph raised =>
    rw [hph] at hp
    exact hb.finish hp _

theorem reachable_inv (h : (machine ω chained).Reachable s) : Inv s := by
  refine h.invariant ?_ fun s a t _ hi _ hs => step_inv hi (steps_of_step hs)
  rintro s rfl
  exact ⟨⟨by simp, fun p => by simp [deliveredAt, yieldedAt, leftoversAt, pendingAt]⟩, rfl⟩

/-- Over all sessions, however each ends, no envelope a receiver delivered is lost or yielded
twice, and each receiver's are yielded in the order it delivered them. -/
theorem delivered_conserved (h : (machine ω chained).Reachable s) : Conserved s := by
  have hi := reachable_inv h
  refine ⟨hi.each, fun hidle p => ?_⟩
  have hp := hi.phase
  rw [hidle] at hp
  have hf : s.fetching = [] := hp
  simpa [hf, pendingAt] using hi.each p

/-- A session closed at its first `yield`, with one message fetched and another delivered by
the fetch it cancels, and a second session that hands out the first of them. -/
def closedEarly : List (Action 2 Nat) :=
  [.get, .fetched 1 (.delivered ⟨10, []⟩), .fetched 0 (.delivered ⟨20, []⟩), .wake, .close,
    .fetched 0 (.delivered ⟨21, []⟩), .gathered, .streamsClosed none, .get]

theorem delivered_conserved_closedEarly : ∃ s, (machine Nat (n := 2) ⟨none⟩).run {} closedEarly =
    some s ∧ s.leftovers = [(0, ⟨21, []⟩)] ∧ Conserved s :=
  ⟨_, rfl, rfl, delivered_conserved (Machine.Reachable.run (.start rfl) closedEarly rfl)⟩

end XtrMessenger.ChainedReceiver
