import XtrMessenger.Receiver.Chained

/-! Settlements reach the receiver a message came from, once: the history of yields and
settlements says what is owed, and the outstanding table holds exactly that. -/
namespace XtrMessenger.ChainedReceiver
open Foundation
variable {n : Nat} {ω : Type}

def Event.ticket? : Event n ω → Option Int
  | .yielded _ ticket _ _ => some ticket
  | _ => none

/-- The tickets given, in order. -/
def ticketsOf (log : List (Event n ω)) : List Int := log.filterMap Event.ticket?

/-- The event is a settlement by the ticket. -/
def Event.settles (ticket : Int) : Event n ω → Bool
  | .settled _ envelope _ => ticketOf envelope = some ticket
  | _ => false

/-- The event is a settlement by the ticket that was forwarded. -/
def Event.forwards (ticket : Int) : Event n ω → Bool
  | .settled _ envelope (some _) => ticketOf envelope = some ticket
  | _ => false

/-- The message collected at the position was yielded with the ticket, and not settled by it
since. -/
def Owes (log : List (Event n ω)) (ticket : Int) (position : Fin n) (collected : Envelope ω) :
    Prop :=
  ∃ envelope pre post, log = pre ++ .yielded position ticket collected envelope :: post ∧
    ∀ x ∈ post, x.settles ticket = false

/-- The envelope handed over, with the origin's own last receipt again the last, if the origin
had minted one. -/
structure Restores (envelope collected forwarded : Envelope ω) : Prop where
  kept : collected.last (.shipped .ackReceipt) = none → forwarded = envelope
  restored : ∀ receipt, collected.last (.shipped .ackReceipt) = some receipt →
    forwarded = envelope.withStamps [receipt] ∧
      forwarded.last (.shipped .ackReceipt) = some receipt

/-- How an event must follow what happened before it. -/
def Follows (chained : ChainedReceiver n) (pre : List (Event n ω)) : Event n ω → Prop
  | .yielded p t c e => e = c.withStamps (chained.tags p t) ∧ ticketOf e = some t ∧
      t ∉ ticketsOf pre
  | .settled _ e forwarded =>
    (∀ t p c, ticketOf e = some t → Owes pre t p c →
      ∃ f, forwarded = some (p, f) ∧ Restores e c f) ∧
    ((∀ t p c, ticketOf e = some t → ¬Owes pre t p c) → forwarded = none)
  | _ => True

/-- Every settlement is forwarded to the origin of the message it settles, once. -/
structure Correlated (chained : ChainedReceiver n) (s : State n ω) : Prop where
  follows : Justified (Follows chained) s.log
  tickets : (ticketsOf s.log).Nodup
  once : ∀ t, s.log.countP (Event.forwards t) ≤ 1
  outstanding : ∀ t p c, s.outstanding.lookup t = some (p, c) ↔ Owes s.log t p c

theorem ticketOf_tagged (chained : ChainedReceiver n) (e : Envelope ω) (p : Fin n) (t : Int) :
    ticketOf (e.withStamps (chained.tags p t)) = some t := by
  have hlast := e.last_withStamps_of_isInstance (s := .shipped (.ackReceipt t))
    (b := .shipped .ackReceipt) rfl (chained.names.map fun names =>
      Stamp.shipped (.received names[p])).toList
  rw [ticketOf, tags, hlast]
  rfl

theorem restored_restores (e c : Envelope ω) : Restores e c (restored e c) := by
  unfold restored
  split
  · exact ⟨fun _ => rfl, by simp_all⟩
  · rename_i receipt hr
    refine ⟨by simp [hr], fun receipt' hr' => ?_⟩
    obtain rfl : receipt = receipt' := Option.some.inj (hr.symm.trans hr')
    exact ⟨rfl, e.last_withStamps_of_isInstance (Envelope.last_isInstance hr) []⟩

section Histories
variable {log : List (Event n ω)} {x : Event n ω} {t : Int} {p : Fin n} {c : Envelope ω}

/-- What is owed after one more event: what it yields, and what was owed unless it settles it. -/
theorem owes_concat : Owes (log ++ [x]) t p c ↔
    (∃ e, x = .yielded p t c e) ∨ Owes log t p c ∧ x.settles t = false := by
  constructor
  · rintro ⟨e, pre, post, heq, hpost⟩
    rcases List.eq_nil_or_concat post with rfl | ⟨post', y, rfl⟩
    · obtain ⟨-, hx⟩ := List.append_inj' heq rfl
      exact Or.inl ⟨e, by simpa using hx⟩
    · have hlog : log ++ [x] = (pre ++ .yielded p t c e :: post') ++ [y] := by simpa using heq
      obtain ⟨rfl, hxy⟩ := List.append_inj' hlog rfl
      obtain rfl : x = y := by simpa using hxy
      exact Or.inr ⟨⟨e, pre, post', rfl, fun z hz => hpost z (by simp [hz])⟩, hpost x (by simp)⟩
  · rintro (⟨e, rfl⟩ | ⟨⟨e, pre, post, rfl, hpost⟩, hx⟩)
    · exact ⟨e, log, [], rfl, by simp⟩
    · refine ⟨e, pre, post ++ [x], by simp, fun y hy => ?_⟩
      rcases List.mem_append.mp hy with hy | hy
      · exact hpost y hy
      · exact List.mem_singleton.mp hy ▸ hx

theorem ticketsOf_concat : ticketsOf (log ++ [x]) = ticketsOf log ++ x.ticket?.toList :=
  filterMap_concat _ _ _

theorem Owes.mem_ticketsOf (h : Owes log t p c) : t ∈ ticketsOf log := by
  obtain ⟨e, pre, post, rfl, -⟩ := h
  exact List.mem_filterMap.mpr ⟨.yielded p t c e, by simp, rfl⟩

end Histories

/-- What holds of the tickets, the table and the history of a state. -/
structure Ledger (chained : ChainedReceiver n) (s : State n ω) : Prop extends
    Correlated chained s where
  below : ∀ t ∈ ticketsOf s.log, t < s.tickets
  /-- A ticket that is yet to be given, or is still owed, was not forwarded by. -/
  unforwarded : ∀ t, (s.tickets ≤ t ∨ ∃ p c, Owes s.log t p c) →
    s.log.countP (Event.forwards t) = 0

variable {s t : State n ω} {chained : ChainedReceiver n}

theorem Ledger.of_eq (h : Ledger chained s) (hl : t.log = s.log)
    (ho : t.outstanding = s.outstanding) (ht : t.tickets = s.tickets) : Ledger chained t where
  follows := hl ▸ h.follows
  tickets := hl ▸ h.tickets
  once := hl ▸ h.once
  outstanding := by rw [hl, ho]; exact h.outstanding
  below := by rw [hl, ht]; exact h.below
  unforwarded := by rw [hl, ht]; exact h.unforwarded

/-- An event that neither yields nor settles. -/
def Event.Idle (x : Event n ω) : Prop :=
  x.ticket? = none ∧ (∀ t, x.settles t = false) ∧ ∀ chained log, Follows chained log x

theorem Event.Idle.owes_iff {x : Event n ω} (hx : x.Idle) {log : List (Event n ω)} {t : Int}
    {p : Fin n} {c : Envelope ω} : Owes (log ++ [x]) t p c ↔ Owes log t p c := by
  rw [owes_concat]
  refine ⟨?_, fun h => Or.inr ⟨h, hx.2.1 t⟩⟩
  rintro (⟨e, rfl⟩ | h)
  · simp [Event.Idle, Event.ticket?] at hx
  · exact h.1

theorem Event.Idle.forwards {x : Event n ω} (hx : x.Idle) (t : Int) : x.forwards t = false := by
  have hs := hx.2.1 t
  cases x with
  | settled k e f => cases f <;> simp_all [Event.forwards, Event.settles]
  | _ => rfl

theorem Ledger.note (h : Ledger chained s) {x : Event n ω} (hx : x.Idle) :
    Ledger chained (s.note x) where
  follows := justified_concat.mpr ⟨h.follows, hx.2.2 _ _⟩
  tickets := by simpa [State.note, ticketsOf_concat, hx.1] using h.tickets
  once t := by simpa [State.note, List.countP_append, hx.forwards] using h.once t
  outstanding t p c := (h.outstanding t p c).trans hx.owes_iff.symm
  below := by simpa [State.note, ticketsOf_concat, hx.1] using h.below
  unforwarded t ht := by
    have := h.unforwarded t (by simpa only [State.note, hx.owes_iff] using ht)
    simpa [State.note, List.countP_append, hx.forwards] using this

theorem idle_got : (Event.got : Event n ω).Idle := ⟨rfl, fun _ => rfl, fun _ _ => trivial⟩
theorem idle_ended (e : Ending ω) : (Event.ended e : Event n ω).Idle :=
  ⟨rfl, fun _ => rfl, fun _ _ => trivial⟩
theorem idle_delivered (p : Fin n) (e : Envelope ω) : (Event.delivered p e).Idle :=
  ⟨rfl, fun _ => rfl, fun _ _ => trivial⟩

/-- A yield gives a fresh ticket and records the message under it. -/
theorem Ledger.hand (h : Ledger chained s) (p : Fin n) (e : Envelope ω) (phase : Phase n ω) :
    Ledger chained (s.hand chained p e phase) := by
  have hfresh : s.tickets ∉ ticketsOf s.log := fun hm => (h.below _ hm).false
  have howes : ∀ t q c, Owes (s.hand chained p e phase).log t q c ↔
      (q = p ∧ t = s.tickets ∧ c = e) ∨ Owes s.log t q c := by
    intro t q c
    rw [State.hand, owes_concat]
    simp [Event.settles, eq_comm]
  have hcount : ∀ t, (s.hand chained p e phase).log.countP (Event.forwards t) =
      s.log.countP (Event.forwards t) := fun t => by
    simp [State.hand, List.countP_append, Event.forwards]
  have htickets : ticketsOf (s.hand chained p e phase).log = ticketsOf s.log ++ [s.tickets] :=
    ticketsOf_concat
  refine ⟨⟨?_, ?_, fun t => hcount t ▸ h.once t, fun t q c => ?_⟩, ?_, fun t ht => ?_⟩
  · exact justified_concat.mpr ⟨h.follows, rfl, ticketOf_tagged _ _ _ _, hfresh⟩
  · rw [htickets]
    exact List.nodup_append.mpr ⟨h.tickets, by simp, by
      rintro a ha b hb rfl
      exact hfresh (List.mem_singleton.mp hb ▸ ha)⟩
  · rw [howes]
    by_cases ht : t = s.tickets
    · subst ht
      have hnot : ¬Owes s.log s.tickets q c := fun ho => hfresh ho.mem_ticketsOf
      simp [State.hand, hnot, eq_comm]
    · simpa [State.hand, ht] using h.outstanding t q c
  · rw [htickets]
    intro t ht
    rcases List.mem_append.mp ht with ht | ht
    · exact (h.below t ht).trans (Int.lt_succ _)
    · exact List.mem_singleton.mp ht ▸ Int.lt_succ _
  · rw [hcount]
    rcases ht with ht | ⟨q, c, hq⟩
    · exact h.unforwarded t (Or.inl ((Int.lt_succ _).le.trans ht))
    · rcases (howes t q c).mp hq with ⟨-, rfl, -⟩ | hq
      · exact h.unforwarded _ (Or.inl le_rfl)
      · exact h.unforwarded t (Or.inr ⟨q, c, hq⟩)

/-- What `settle` forwards under a ticket. -/
def State.forwarded (s : State n ω) (ticket : Int) (e : Envelope ω) :
    Option (Fin n × Envelope ω) :=
  (s.outstanding.lookup ticket).map fun origin => (origin.1, restored e origin.2)

theorem Ledger.follows_settled (h : Ledger chained s) (k : Settlement) {e : Envelope ω}
    {ticket : Int} (he : ticketOf e = some ticket) :
    Follows chained s.log (.settled k e (s.forwarded ticket e)) := by
  refine ⟨fun t p c ht ho => ?_, fun hno => ?_⟩
  · obtain rfl : ticket = t := by simpa [he] using ht
    rw [State.forwarded, (h.outstanding _ _ _).mpr ho]
    exact ⟨_, rfl, restored_restores e c⟩
  · rw [State.forwarded, Option.map_eq_none_iff, Option.eq_none_iff_forall_not_mem]
    rintro ⟨p, c⟩ hl
    exact hno ticket p c he ((h.outstanding _ _ _).mp hl)

/-- A settlement is forwarded when its ticket is owed, and then it is no longer. -/
theorem Ledger.countP_forwards (h : Ledger chained s) (k : Settlement) {e : Envelope ω}
    {ticket : Int} (he : ticketOf e = some ticket) (t : Int) :
    ((s.log ++ [Event.settled k e (s.forwarded ticket e)]).countP (Event.forwards t) =
      s.log.countP (Event.forwards t)) ∨
    (t = ticket ∧ (∃ p c, Owes s.log t p c) ∧
      (s.log ++ [Event.settled k e (s.forwarded ticket e)]).countP (Event.forwards t) = 1) := by
  simp only [State.forwarded, List.countP_append]
  rcases hl : s.outstanding.lookup ticket with _ | ⟨p, c⟩
  · exact Or.inl (by simp [Event.forwards])
  · have ho := (h.outstanding _ _ _).mp hl
    by_cases ht : t = ticket
    · subst ht
      refine Or.inr ⟨rfl, ⟨p, c, ho⟩, ?_⟩
      rw [h.unforwarded t (Or.inr ⟨p, c, ho⟩)]
      simp [Event.forwards, he]
    · exact Or.inl (by simp [Event.forwards, he, Ne.symm ht])

theorem Ledger.settle (h : Ledger chained s) (k : Settlement) (e : Envelope ω) :
    Ledger chained (s.settle k e) := by
  unfold State.settle
  split
  · rename_i hnone
    have hidle : (Event.settled k e none : Event n ω).Idle := ⟨rfl, by simp [Event.settles, hnone],
      fun _ _ => ⟨by simp [hnone], fun _ => rfl⟩⟩
    exact h.note hidle
  · rename_i ticket hsome
    have howes : ∀ t q c x, Owes (s.log ++ [.settled k e x]) t q c ↔
        Owes s.log t q c ∧ t ≠ ticket := by
      intro t q c x
      rw [owes_concat]
      simp [Event.settles, hsome, eq_comm]
    refine ⟨⟨?_, ?_, fun t => ?_, fun t q c => ?_⟩, ?_, fun t ht => ?_⟩
    · exact justified_concat.mpr ⟨h.follows, h.follows_settled k hsome⟩
    · simpa [ticketsOf_concat, Event.ticket?] using h.tickets
    · rcases h.countP_forwards k hsome t with hc | ⟨-, -, hc⟩
      · exact hc.trans_le (h.once t)
      · exact hc.le
    · rw [howes]
      by_cases ht : t = ticket
      · subst ht
        simp
      · simpa [ht] using h.outstanding t q c
    · simpa [ticketsOf_concat, Event.ticket?] using h.below
    · have hold : s.tickets ≤ t ∨ ∃ p c, Owes s.log t p c ∧ t ≠ ticket := by
        simpa only [howes] using ht
      rcases h.countP_forwards k hsome t with hc | ⟨rfl, ⟨p, c, ho⟩, -⟩
      · refine hc.trans (h.unforwarded t ?_)
        exact hold.imp_right fun ⟨p, c, ho, _⟩ => ⟨p, c, ho⟩
      · -- a ticket that is owed was given, and settling by it ends that
        rcases hold with hle | ⟨_, _, _, hne⟩
        · exact absurd (h.below t ho.mem_ticketsOf) (by omega)
        · exact absurd rfl hne

theorem Ledger.drain (h : Ledger chained s) : Ledger chained (s.drain chained) := by
  unfold State.drain
  split
  · refine Ledger.hand ?_ _ _ _
    exact h.of_eq rfl rfl rfl
  · exact h.of_eq rfl rfl rfl

theorem Ledger.serve (h : Ledger chained s) (batch : List (Fin n)) :
    Ledger chained (s.serve chained batch) := by
  induction batch generalizing s with
  | nil => exact h.of_eq rfl rfl rfl
  | cons p batch ih =>
    have hpop : Ledger chained (s.pop p) := h.of_eq rfl rfl rfl
    unfold State.serve
    split
    · refine Ledger.hand ?_ _ _ _
      exact hpop.of_eq rfl rfl rfl
    · exact ih hpop
    · exact hpop.of_eq rfl rfl rfl
    · exact hpop.of_eq rfl rfl rfl
    · exact ih h

theorem Ledger.arrive (h : Ledger chained s) (p : Fin n) (fetch : Fetched ω) :
    Ledger chained (s.arrive p fetch) := by
  cases fetch with
  | delivered e => exact (h.note (idle_delivered p e)).of_eq rfl rfl rfl
  | exhausted => exact h.of_eq (List.append_nil _) rfl rfl
  | raised e => exact h.of_eq (List.append_nil _) rfl rfl
  | cancelled => exact h.of_eq (List.append_nil _) rfl rfl

theorem Ledger.finish (h : Ledger chained s) (ending : Ending ω) :
    Ledger chained (s.finish ending) :=
  (h.note (idle_ended ending)).of_eq rfl rfl rfl

theorem correlated_step {a : Action n ω} (hi : Ledger chained s) (h : Steps chained s a t) :
    Ledger chained t := by
  cases h with
  | settle k e => exact hi.settle k e
  | fetched p fetch hm => exact hi.arrive p fetch
  | got hph => exact (hi.note idle_got).drain
  | drain hph => exact hi.drain
  | drainClosed hph => exact hi.finish _
  | woken hph => exact hi.serve _
  | cancelled hph => exact hi.of_eq rfl rfl rfl
  | serve batch hph => exact hi.serve batch
  | serveClosed batch hph => exact hi.of_eq rfl rfl rfl
  | gathered ending hph hd => exact hi.of_eq rfl rfl rfl
  | ended ending hph raised => exact hi.finish _

theorem reachable_ledger (h : (machine ω chained).Reachable s) : Ledger chained s := by
  refine h.invariant (P := Ledger chained) ?_ fun s a t _ hi _ hs =>
    correlated_step hi (steps_of_step hs)
  rintro s rfl
  refine ⟨⟨.nil, by simp [ticketsOf], by simp, fun t p c => ?_⟩, by simp [ticketsOf], by simp⟩
  simp [Owes]

/-- What is yielded is what was collected, tagged with its ticket. -/
theorem yielded_tagged (h : (machine ω chained).Reachable s) {p : Fin n} {t : Int}
    {c e : Envelope ω} (hy : .yielded p t c e ∈ s.log) : e = c.withStamps (chained.tags p t) := by
  obtain ⟨pre, post, hlog⟩ := List.append_of_mem hy
  exact ((reachable_ledger h).follows pre _ post hlog).1

/-- Over any sessions and any settlements, tickets are never given twice, each settlement is
forwarded to the receiver its ticket's message came from, once for each message, and the
outstanding table holds what was yielded and not settled. -/
theorem settlements_correlated (h : (machine ω chained).Reachable s) : Correlated chained s :=
  (reachable_ledger h).toCorrelated

/-- Two messages yielded, the second settled first, then again, then the first after it went
through an envelope of another receiver's receipts. -/
def outOfOrder : List (Action 3 Nat) :=
  [.get, .fetched 0 (.delivered ⟨20, [.shipped (.ackReceipt 7)]⟩), .fetched 1 (.delivered ⟨10, []⟩),
    .wake, .resume, .settle .reject ⟨10, [.shipped (.ackReceipt 2)]⟩,
    .settle .ack ⟨10, [.shipped (.ackReceipt 2)]⟩,
    .settle .ack ⟨20, [.shipped (.ackReceipt 7), .shipped (.ackReceipt 1)]⟩]

theorem settlements_correlated_outOfOrder : ∃ s, (machine Nat (n := 3) ⟨none⟩).run {} outOfOrder =
    some s ∧ s.log.getLast? = some (.settled .ack
      ⟨20, [.shipped (.ackReceipt 7), .shipped (.ackReceipt 1)]⟩ (some (0,
        ⟨20, [.shipped (.ackReceipt 7), .shipped (.ackReceipt 1), .shipped (.ackReceipt 7)]⟩))) ∧
      Correlated ⟨none⟩ s :=
  ⟨_, rfl, rfl, settlements_correlated (Machine.Reachable.run (.start rfl) outOfOrder rfl)⟩

end XtrMessenger.ChainedReceiver
