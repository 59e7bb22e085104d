import XtrMessenger.Worker.Several
import XtrMessenger.Foundation.Cut

/-! What a worker leaves at the receivers it drains: every message that was handed out is settled
on the receiver it came from. -/
namespace XtrMessenger.Worker.Several
open Foundation
open ChainedReceiver (Owes Ledger Quiet Turned handedOut settlementsAsked ticketOf)
variable {n : Nat} {ω : Type} {worker : Worker} {chained : ChainedReceiver n}
  {s t : State n ω} {a : Action n ω}

/-- The ticket by which the message in hand is still to be settled. -/
def owedFor (hand : Option (Envelope ω × List (Call ω))) : Option Int :=
  hand.bind fun held => if held.2.any Call.isSettlement then none else ticketOf held.1

/-- The ticket that is owed, of the message in hand or of the one on its way. -/
def State.owed (s : State n ω) : Option Int :=
  if s.Late then (handedOut s.receiver.log).getLast?.bind ticketOf
  else owedFor (inHand s.worker.log)

/-- What was handed out and the worker does not have yet. -/
def State.late (s : State n ω) : List (Envelope ω) :=
  if s.Late then (handedOut s.receiver.log).getLast?.toList else []

/-- Nothing but `owed` is owed. -/
structure Owing (log : List (ChainedReceiver.Event n ω)) (owed : Option Int) : Prop where
  only : ∀ ticket p c, Owes log ticket p c → owed = some ticket
  due : ∀ ticket, owed = some ticket → ∃ p c, Owes log ticket p c

structure Linked (s : State n ω) : Prop where
  owing : Owing s.receiver.log s.owed
  delivered : handedOut s.receiver.log = deliveredOf s.worker.log ++ s.late
  settled : settlementsAsked s.receiver.log = settlementsOf s.worker.log
  forwarded : ∀ k e, .settled k e none ∉ s.receiver.log

theorem owedFor_dealt {e : Envelope ω} {calls : List (Call ω)} (h : Dealt worker e calls) :
    owedFor (some (e, calls)) = none := by
  obtain ⟨c, hc, hs⟩ := exists_settlement h.1.once
  have hany : calls.any Call.isSettlement = true := List.any_eq_true.mpr ⟨c, hc, hs⟩
  exact if_pos hany

/-- Moot events leave owed what was. -/
theorem owedFor_moot {log xs : List (Event ω)} (hf : Justified (Follows worker) (log ++ xs))
    (hxs : ∀ x ∈ xs, x.Moot) : owedFor (inHand (log ++ xs)) = owedFor (inHand log) := by
  induction xs using List.reverseRecOn with
  | nil => rw [List.append_nil]
  | append_singleton xs x ih =>
    rw [← List.append_assoc] at hf ⊢
    obtain ⟨hlog, hcloses, -⟩ := justified_concat.mp hf
    rw [← ih hlog fun y hy => hxs y (by simp [hy]), inHand_concat]
    have hover : x.closes = true → owedFor (inHand (log ++ xs)) = none := by
      intro hx
      cases hhand : inHand (log ++ xs) with
      | none => rfl
      | some held => exact owedFor_dealt (hcloses hx held.1 held.2 hhand)
    obtain ⟨hd, hs⟩ := hxs x (by simp)
    cases x with
    | delivered e => cases hd
    | requested => exact (hover rfl).symm
    | ended raised => exact (hover rfl).symm
    | call c =>
      have hnot : c.isSettlement = false := by
        rw [← settlement?_isSome, show c.settlement? = none from hs]
        rfl
      cases inHand (log ++ xs) with
      | none => rfl
      | some held => simp [owedFor, Event.advance, hnot]
    | _ => rfl

theorem owedFor_grew {w w' : Worker.State ω} (hf : Justified (Follows worker) w'.log)
    (h : Grew w w' [] []) : owedFor (inHand w'.log) = owedFor (inHand w.log) := by
  obtain ⟨xs, hlog, hd, hs⟩ := h
  rw [hlog] at hf ⊢
  refine owedFor_moot hf fun x hx => ⟨?_, ?_⟩
  · exact List.filterMap_eq_nil_iff.mp hd x hx
  · exact List.filterMap_eq_nil_iff.mp hs x hx

theorem Owing.of_iff {log log' : List (ChainedReceiver.Event n ω)} {owed : Option Int}
    (h : Owing log owed) (hiff : ∀ ticket p c, Owes log' ticket p c ↔ Owes log ticket p c) :
    Owing log' owed := by
  constructor
  · intro ticket p c ho
    exact h.only ticket p c ((hiff ticket p c).mp ho)
  · intro ticket hticket
    obtain ⟨p, c, ho⟩ := h.due ticket hticket
    exact ⟨p, c, (hiff ticket p c).mpr ho⟩

/-- A message handed out while nothing is owed is what is owed. -/
theorem owing_yielded {log : List (ChainedReceiver.Event n ω)} (h : Owing log none) (p : Fin n)
    (ticket : Int) (c e : Envelope ω) :
    Owing (log ++ [.yielded p ticket c e]) (some ticket) := by
  constructor
  · intro ticket' p' c' ho
    rcases ChainedReceiver.owes_concat.mp ho with ⟨e', he⟩ | ⟨ho, -⟩
    · cases he
      rfl
    · cases h.only _ _ _ ho
  · intro ticket' ht
    obtain rfl := Option.some.inj ht
    exact ⟨p, c, ChainedReceiver.owes_concat.mpr (.inl ⟨e, rfl⟩)⟩

/-- Settled by what is owed, nothing is owed any more. -/
theorem owing_settled {log : List (ChainedReceiver.Event n ω)} {ticket : Int}
    (h : Owing log (some ticket)) {e : Envelope ω} (he : ticketOf e = some ticket)
    (k : ChainedReceiver.Settlement) (forwarded : Option (Fin n × Envelope ω)) :
    Owing (log ++ [.settled k e forwarded]) none := by
  constructor
  · intro ticket' p c ho
    rcases ChainedReceiver.owes_concat.mp ho with ⟨e', he'⟩ | ⟨ho, hs⟩
    · cases he'
    · obtain rfl := Option.some.inj (h.only _ _ _ ho)
      simp [ChainedReceiver.Event.settles, he] at hs
  · intro ticket' ht
    cases ht

/-- Where the receiver's events are neither yields nor settlements. -/
theorem linked_quiet (hi : Linked s) {r : ChainedReceiver.State n ω} {stream : Stream}
    (hq : Quiet s.receiver r)
    (hlate : State.Late { s with receiver := r, stream } ↔ s.Late) :
    Linked { s with receiver := r, stream } := by
  have howed : State.owed { s with receiver := r, stream } = s.owed := by
    unfold State.owed
    simp only [hlate, hq.handedOut]
  have hlater : State.late { s with receiver := r, stream } = s.late := by
    unfold State.late
    simp only [hlate, hq.handedOut]
  constructor
  · rw [howed]
    exact hi.owing.of_iff fun _ _ _ => hq.owes_iff
  · rw [hlater]
    exact hq.handedOut.trans hi.delivered
  · exact hq.settlementsAsked.trans hi.settled
  · intro k e hm
    exact hi.forwarded k e ((hq.mem_log id).mp hm)

theorem linked_alone (hi : Linked s) {w : Worker.State ω} {stream : Stream}
    (hf : Justified (Follows worker) w.log) (hg : Grew s.worker w [] [])
    (hlate : State.Late { s with worker := w, stream } ↔ s.Late) :
    Linked { s with worker := w, stream } := by
  have howed : State.owed { s with worker := w, stream } = s.owed := by
    unfold State.owed
    simp only [hlate, owedFor_grew hf hg]
  have hlater : State.late { s with worker := w, stream } = s.late := by
    unfold State.late
    simp only [hlate]
  constructor
  · exact howed ▸ hi.owing
  · rw [hlater, hg.deliveredOf, List.append_nil]
    exact hi.delivered
  · rw [hg.settlementsOf, List.append_nil]
    exact hi.settled
  · exact hi.forwarded

/-- Nothing is in the hands of a worker that waits. -/
theorem hand_of_waits (hw : Worker.Inv worker s.worker)
    (h : s.worker.phase = .waiting none ∨ s.worker.phase = .cancelling) :
    inHand s.worker.log = none := by
  have hp := hw.phase
  rcases h with hph | hph
  · rwa [hph] at hp
  · rwa [hph] at hp

theorem linked_turned (hi : Linked s) (hw : Worker.Inv worker s.worker)
    {r : ChainedReceiver.State n ω} (hr : Ledger chained r) (ht : Turned s.receiver r)
    (hwaits : s.worker.phase = .waiting none ∨ s.worker.phase = .cancelling) (hlate : ¬s.Late) :
    Linked { s with receiver := r, stream := .running } := by
  have hhand := hand_of_waits hw hwaits
  have howing : Owing s.receiver.log none := by
    have hown := hi.owing
    rwa [State.owed, if_neg hlate, hhand] at hown
  have hdelivered : handedOut s.receiver.log = deliveredOf s.worker.log := by
    have hall := hi.delivered
    rwa [State.late, if_neg hlate, List.append_nil] at hall
  cases ht with
  | waits hq hph =>
    have hnot : ¬State.Late { s with receiver := r, stream := .running } := fun hl => hph hl.2
    exact linked_quiet hi hq (iff_of_false hnot hlate)
  | yielded u hq p ticket c e hlog hph =>
    have hlater : State.Late { s with receiver := r, stream := .running } := ⟨rfl, hph⟩
    have hhanded : handedOut r.log = handedOut s.receiver.log ++ [e] := by
      rw [hlog, ← hq.handedOut]
      exact filterMap_concat _ _ _
    have hlast : (handedOut r.log).getLast? = some e := by
      rw [hhanded, List.getLast?_concat]
    have hticket : ticketOf e = some ticket := (hr.follows u.log _ [] hlog).2.1
    constructor
    · rw [State.owed, if_pos hlater]
      change Owing r.log ((handedOut r.log).getLast?.bind ticketOf)
      rw [hlast, hlog]
      change Owing _ (ticketOf e)
      rw [hticket]
      exact owing_yielded (howing.of_iff fun _ _ _ => hq.owes_iff) p ticket c e
    · rw [State.late, if_pos hlater]
      change handedOut r.log = _ ++ (handedOut r.log).getLast?.toList
      rw [hlast, hhanded, hdelivered]
      rfl
    · change settlementsAsked r.log = _
      rw [hlog, settlementsAsked, List.filterMap_append]
      exact (List.append_nil _).trans (hq.settlementsAsked.trans hi.settled)
    · intro k e' hm
      change _ ∈ r.log at hm
      rw [hlog, List.mem_append] at hm
      rcases hm with hm | hm
      · exact hi.forwarded k e' ((hq.mem_log id).mp hm)
      · simp at hm

/-- The worker has what was handed out. -/
theorem linked_answered (hi : Linked s) {e : Envelope ω} {w : Worker.State ω}
    (he : (handedOut s.receiver.log).getLast? = some e) (hlate : s.Late)
    (h : Steps worker s.worker (.fetched (.delivered e)) w) :
    Linked { s with worker := w, stream := .suspended } := by
  have hnot : ¬State.Late { s with worker := w, stream := .suspended } := by
    rintro ⟨hrun, -⟩
    cases hrun
  have hhand : inHand w.log = some (e, []) := by
    cases h with
    | fetched hph fetch => exact inHand_concat _ _
    | gathered hph fetch => exact inHand_concat _ _
  have hg := step_grew h
  have howing := hi.owing
  have hall := hi.delivered
  rw [State.owed, if_pos hlate, he] at howing
  rw [State.late, if_pos hlate, he] at hall
  constructor
  · rw [State.owed, if_neg hnot]
    change Owing _ (owedFor (inHand w.log))
    rw [hhand]
    exact howing
  · rw [State.late, if_neg hnot, List.append_nil]
    exact hall.trans hg.deliveredOf.symm
  · exact hi.settled.trans (hg.settlementsOf.trans (List.append_nil _)).symm
  · exact hi.forwarded

/-- What was handed out has its ticket. -/
theorem ticket_of_handed {r : ChainedReceiver.State n ω} (hr : Ledger chained r) {e : Envelope ω}
    (he : e ∈ handedOut r.log) : ∃ ticket, ticketOf e = some ticket := by
  obtain ⟨x, hx, hhanded⟩ := List.mem_filterMap.mp he
  obtain ⟨pre, post, hlog⟩ := List.append_of_mem hx
  cases x with
  | yielded p ticket c e' =>
    obtain rfl := Option.some.inj hhanded
    exact ⟨ticket, (hr.follows pre _ post hlog).2.1⟩
  | _ => cases hhanded

theorem delivered_of_hand {log : List (Event ω)} (hf : Justified (Follows worker) log)
    {e : Envelope ω} {calls : List (Call ω)} (h : inHand log = some (e, calls)) :
    e ∈ deliveredOf log := by
  obtain ⟨dealt, hfiled, -⟩ := filed_eq hf
  have hfirst : e ∈ (filed log).map Prod.fst := by
    rw [hfiled, h]
    simp
  rw [filed_envelopes] at hfirst
  exact List.mem_reverse.mp hfirst

/-- A settlement by a ticket that is owed reaches the receiver it is of. -/
theorem settle_forwarded {r : ChainedReceiver.State n ω} (hr : Ledger chained r)
    {k : ChainedReceiver.Settlement} {e : Envelope ω} {ticket : Int}
    (he : ticketOf e = some ticket) {p : Fin n} {c : Envelope ω} (ho : Owes r.log ticket p c) :
    (r.settle k e).log = r.log ++ [.settled k e (some (p, ChainedReceiver.restored e c))] := by
  have hlookup := (hr.outstanding ticket p c).mpr ho
  unfold ChainedReceiver.State.settle
  rw [he]
  simp [hlookup]

theorem linked_performed (hi : Linked s) (hs : Stands s) (hw : Worker.Inv worker s.worker)
    (hkept : Kept s.worker) (hr : Ledger chained s.receiver) {c : Call ω} {todo : List (Call ω)}
    {result : Except (Exc ω) Unit} {k : ChainedReceiver.Settlement} {e : Envelope ω}
    {w : Worker.State ω} (hph : s.worker.phase = .settling (c :: todo) result)
    (hc : c.settlement? = some (k, e)) (h : Steps worker s.worker .perform w) :
    Linked { s with worker := w, receiver := s.receiver.settle k e } := by
  have hnot : ∀ (w : Worker.State ω) (r : ChainedReceiver.State n ω),
      ¬State.Late { s with worker := w, receiver := r } := by
    rintro w r ⟨hrun, -⟩
    rcases hs.fetch hrun with hp | hp <;> simp [hph] at hp
  have hp := hw.phase
  rw [hph] at hp
  obtain ⟨e₀, made, world, hworld, hhand, hcalls⟩ := hp
  have hsettles : c.isSettlement = true := by
    rw [← settlement?_isSome, hc]
    rfl
  have hunsettled : made.any Call.isSettlement = false := by
    have honce := (settle_settledOnce worker hworld e₀).once
    rw [← hcalls, List.countP_append, List.countP_cons_of_pos hsettles] at honce
    have hzero : made.countP Call.isSettlement = 0 := by omega
    rw [List.any_eq_false]
    exact List.countP_eq_zero.mp hzero
  have howing : Owing s.receiver.log (ticketOf e₀) := by
    have hown := hi.owing
    rw [State.owed, if_neg (hnot _ _), hhand] at hown
    have howed : owedFor (some (e₀, made)) = ticketOf e₀ := if_neg (by simp [hunsettled])
    exact howed ▸ hown
  have hlater : s.late = [] := if_neg (hnot _ _)
  have hall := hi.delivered
  rw [hlater, List.append_nil] at hall
  obtain ⟨ticket, hticket⟩ := ticket_of_handed hr (hall ▸ delivered_of_hand hw.follows hhand)
  have he : ticketOf e = some ticket :=
    (hkept _ _ hph e₀ made hhand c List.mem_cons_self k e hc).trans hticket
  rw [hticket] at howing
  obtain ⟨p, collected, ho⟩ := howing.due ticket rfl
  have hlog := settle_forwarded (k := k) hr he ho
  have hg := step_grew h
  have hsettled : settles s.worker .perform = [(k, e)] := by
    unfold settles
    rw [hph]
    simp [hc]
  have hhand' : inHand w.log = some (e₀, made ++ [c]) := by
    cases h with
    | perform c' todo' result' hph' =>
      obtain ⟨hcs, -⟩ := Phase.settling.inj (hph.symm.trans hph')
      obtain ⟨rfl, -⟩ := List.cons_eq_cons.mp hcs
      change inHand (s.worker.log ++ [.call c]) = _
      rw [inHand_concat, hhand]
      rfl
    | settled hph' hd => simp [hph] at hph'
    | settledUnheard hph' hd => simp [hph] at hph'
    | settleFailed e' hph' => simp [hph] at hph'
  constructor
  · rw [State.owed, if_neg (hnot _ _)]
    have hpaid : owedFor (inHand w.log) = none := by
      rw [hhand']
      exact if_pos (by simp [hsettles])
    change Owing (s.receiver.settle k e).log (owedFor (inHand w.log))
    rw [hpaid, hlog]
    exact owing_settled howing he k _
  · rw [State.late, if_neg (hnot _ _), List.append_nil]
    change handedOut (s.receiver.settle k e).log = deliveredOf w.log
    rw [hlog, hg.deliveredOf, handedOut, List.filterMap_append]
    exact congrArg (· ++ []) hall
  · change settlementsAsked (s.receiver.settle k e).log = settlementsOf w.log
    rw [hlog, hg.settlementsOf, hsettled, settlementsAsked, List.filterMap_append]
    exact congrArg (· ++ [(k, e)]) hi.settled
  · intro k' e' hm
    change _ ∈ (s.receiver.settle k e).log at hm
    rw [hlog, List.mem_append] at hm
    rcases hm with hm | hm
    · exact hi.forwarded k' e' hm
    · simp at hm

/-- What holds of every state of a worker whose messages keep their receipts. -/
structure Sound (worker : Worker) (chained : ChainedReceiver n) (s : State n ω) : Prop extends
    Stands s, Linked s where
  worker : Worker.Inv worker s.worker
  kept : Kept s.worker
  ledger : Ledger chained s.receiver

theorem step_sound (hi : Sound worker chained s) (ha : Keeping s a)
    (h : step worker chained s a = some t) : Sound worker chained t := by
  obtain ⟨hstands, hmoves⟩ := step_moves hi.toStands h
  have hwork : ∀ {b w}, Steps worker s.worker b w → WorkerKeeping s.worker b →
      Worker.Inv worker w ∧ Kept w := by
    intro b w hw hok
    have hreport : Worker.Reporting s.worker b := by
      cases b with
      | settle world => exact hok.1
      | _ => trivial
    exact ⟨Worker.step_inv hi.worker hreport hw, step_kept hi.worker hi.kept hok hw⟩
  have hreceive : ∀ {b r}, chained.step s.receiver b = some r → Ledger chained r := fun hr =>
    ChainedReceiver.correlated_step hi.ledger (ChainedReceiver.steps_of_step hr)
  cases hmoves with
  | alone b w stream hw hd hs hok hlate =>
    obtain ⟨hinv, hkept⟩ := hwork hw (hok ha)
    have hg := step_grew hw
    rw [hd, hs] at hg
    exact ⟨hstands, linked_alone hi.toLinked hinv.follows hg hlate, hinv, hkept, hi.ledger⟩
  | quiet b r stream hr hq hlate =>
    exact ⟨hstands, linked_quiet hi.toLinked hq hlate, hi.worker, hi.kept, hreceive hr⟩
  | turned b r hr ht hw hlate =>
    exact ⟨hstands, linked_turned hi.toLinked hi.worker (hreceive hr) ht hw hlate, hi.worker,
      hi.kept, hreceive hr⟩
  | answered e w he hlate hw =>
    obtain ⟨hinv, hkept⟩ := hwork hw trivial
    exact ⟨hstands, linked_answered hi.toLinked he hlate hw, hinv, hkept, hi.ledger⟩
  | performed c todo result k e r w hph hc hr hw =>
    obtain ⟨hinv, hkept⟩ := hwork hw trivial
    have hsettle : r = s.receiver.settle k e := by
      cases ChainedReceiver.steps_of_step hr
      rfl
    subst hsettle
    exact ⟨hstands, linked_performed hi.toLinked hi.toStands hi.worker hi.kept hi.ledger hph hc hw,
      hinv, hkept, hreceive hr⟩

theorem reach_sound (h : (machine worker chained ω).Reach Keeping s) : Sound worker chained s := by
  refine h.invariant ?_ fun s a t _ hi ha hs => step_sound hi ha hs
  rintro s rfl
  refine ⟨⟨by simp, fun _ => rfl, rfl⟩, ⟨⟨?_, by simp [State.owed, State.Late, owedFor]⟩, rfl, rfl,
    by simp⟩, ⟨.nil, rfl⟩, kept_of_phase (fun _ _ hph => by cases hph), ?_⟩
  · rintro ticket p c ⟨e, pre, post, hlog, -⟩
    simp at hlog
  · exact ChainedReceiver.reachable_ledger (.start rfl)

/-- What a worker leaves at the receivers it drains. -/
structure Drained (s : State n ω) : Prop where
  /-- It is delivered what is handed out, but for one message that is on its way. -/
  delivered : ∃ late, handedOut s.receiver.log = deliveredOf s.worker.log ++ late ∧
    late.length ≤ 1
  settled : settlementsAsked s.receiver.log = settlementsOf s.worker.log
  /-- Only the message in hand, or on its way, is outstanding. -/
  outstanding : ∀ ticket p c, s.receiver.outstanding.lookup ticket = some (p, c) →
    s.owed = some ticket
  /-- Any other was settled on the receiver it came from, once. -/
  each : ∀ p ticket c e, .yielded p ticket c e ∈ s.receiver.log → s.owed ≠ some ticket →
    (∃ k settled forwarded, .settled k settled (some (p, forwarded)) ∈ s.receiver.log ∧
      ticketOf settled = some ticket ∧ ChainedReceiver.Restores settled c forwarded) ∧
    s.receiver.log.countP (ChainedReceiver.Event.forwards ticket) = 1
  /-- Between runs nothing is. -/
  idle : s.worker.phase = .idle → s.owed = none ∧ s.receiver.outstanding.entries = []

/-- What is no longer owed was settled, first of all by a settlement that was forwarded. -/
theorem settled_of_not_owed {r : ChainedReceiver.State n ω} (hr : Ledger chained r) {p : Fin n}
    {ticket : Int} {c e : Envelope ω} (hy : .yielded p ticket c e ∈ r.log)
    (hn : ¬Owes r.log ticket p c) :
    (∃ k settled forwarded, .settled k settled (some (p, forwarded)) ∈ r.log ∧
      ticketOf settled = some ticket ∧ ChainedReceiver.Restores settled c forwarded) ∧
    r.log.countP (ChainedReceiver.Event.forwards ticket) = 1 := by
  obtain ⟨pre, post, hlog⟩ := List.append_of_mem hy
  have hsettled : ∃ x ∈ post, (!x.settles ticket) = false := by
    by_contra hall
    push Not at hall
    exact hn ⟨e, pre, post, hlog, fun x hx => by simpa using hall x hx⟩
  obtain ⟨x, rest, hpost, hx⟩ := exists_stop hsettled
  set before := post.takeWhile fun x => !x.settles ticket
  have hsplit : r.log = (pre ++ .yielded p ticket c e :: before) ++ x :: rest := by
    rw [hlog, hpost]
    simp
  have hmem : x ∈ r.log := by simp [hsplit]
  cases x with
  | settled k settled forwarded =>
    have hticket : ticketOf settled = some ticket := by
      simpa [ChainedReceiver.Event.settles] using hx
    have howes : Owes (pre ++ .yielded p ticket c e :: before) ticket p c :=
      ⟨e, pre, before, rfl, fun y hy => by simpa using List.mem_takeWhile_imp hy⟩
    obtain ⟨f, rfl, hf⟩ := (hr.follows _ _ rest hsplit).1 ticket p c hticket howes
    refine ⟨⟨k, settled, f, hmem, hticket, hf⟩, ?_⟩
    have hpos : 0 < r.log.countP (ChainedReceiver.Event.forwards ticket) :=
      List.countP_pos_iff.mpr ⟨_, hmem, by simp [ChainedReceiver.Event.forwards, hticket]⟩
    have honce := hr.once ticket
    omega
  | _ => simp [ChainedReceiver.Event.settles] at hx

/-- Whatever runs, stops, cancellations and closings there are, a worker settles every message it
was handed on the receiver it came from, once, and leaves nothing outstanding. -/
theorem drains_receivers (h : (machine worker chained ω).Reach Keeping s) : Drained s := by
  have hi := reach_sound h
  have houtstanding : ∀ ticket p c, s.receiver.outstanding.lookup ticket = some (p, c) →
      s.owed = some ticket := fun ticket p c hl =>
    hi.owing.only ticket p c ((hi.ledger.outstanding ticket p c).mp hl)
  refine ⟨⟨s.late, hi.delivered, ?_⟩, hi.settled, houtstanding, fun p ticket c e hy hn => ?_,
    fun hidle => ?_⟩
  · unfold State.late
    split_ifs
    · exact Option.length_toList_le
    · exact Nat.zero_le 1
  · exact settled_of_not_owed hi.ledger hy fun ho => hn (hi.owing.only _ _ _ ho)
  · have hlate : ¬s.Late := by
      rintro ⟨hrun, -⟩
      rcases hi.fetch hrun with hph | hph <;> simp [hidle] at hph
    have hhand : inHand s.worker.log = none := by
      have hp := hi.worker.phase
      rwa [hidle] at hp
    have howed : s.owed = none := by
      rw [State.owed, if_neg hlate, hhand]
      rfl
    refine ⟨howed, List.eq_nil_iff_forall_not_mem.mpr ?_⟩
    rintro ⟨ticket, p, c⟩ hm
    have hl := houtstanding ticket p c (AList.mem_lookup_iff.mpr hm)
    simp [howed] at hl

/-- Stopped while it waits, a worker leaves what the second receiver delivered to its next run,
where handling it fails. -/
def twoRuns (first second : Fin n) : List (Action n Unit) :=
  let failing := failingWorld (.exception "ValueError" "no")
  [.run, .opened, .asked, .fetched first (.delivered ⟨(), []⟩), .woken, .answered, .wake,
    .settle { failing with bus := .ok }, .perform, .perform, .perform, .asked,
    .fetched second (.delivered ⟨(), [.shipped (.ackReceipt 7)]⟩), .stop, .wake, .interrupted,
    .fetched first .cancelled, .gathered, .streamsClosed none, .answered, .closed,
    .run, .opened, .asked, .answered, .wake, .settle failing, .perform, .perform, .perform, .stop,
    .wake, .unasked, .closing, .closed]

theorem twoRuns_keeping (first second : Fin n) (s : State n Unit) :
    ∀ a ∈ twoRuns first second, Keeping s a := by
  have hl : (failingWorld (.exception "ValueError" "no")).listeners.AddOnly Bus.noReceipt :=
    ⟨by simp [failingWorld], by simp [failingWorld], by simp [failingWorld]⟩
  have hw : (failingWorld (.exception "ValueError" "no")).Reportable :=
    ⟨fun _ error h => (Except.error.inj h) ▸ ⟨"no", rfl⟩, by simp [failingWorld],
      by simp [failingWorld]⟩
  have hfailing : KeepsReceipt (failingWorld (.exception "ValueError" "no")) :=
    ⟨by simp [failingWorld], hl⟩
  have hreturning : KeepsReceipt
      { failingWorld (.exception "ValueError" "no") with bus := .ok } := ⟨by simp, hl⟩
  have hw' : ({ failingWorld (.exception "ValueError" "no") with bus := .ok } :
      World Unit).Reportable := ⟨by simp, hw.received, hw.handled⟩
  simp [twoRuns, Keeping, hw, hw', hfailing, hreturning]

theorem drains_receivers_twoRuns : ∃ s,
    (machine {} (n := 2) ⟨none⟩ Unit).run {} (twoRuns 0 1) = some s ∧
    (settlementsAsked s.receiver.log).map Prod.fst = [.ack, .reject] ∧ Drained s := by
  obtain ⟨s, hrun, hsettled⟩ : ∃ s,
    (machine {} (n := 2) ⟨none⟩ Unit).run {} (twoRuns 0 1) = some s ∧
    (settlementsAsked s.receiver.log).map Prod.fst = [.ack, .reject] := ⟨_, rfl, rfl⟩
  have hstart : (machine {} (n := 2) ⟨none⟩ Unit).Reach Keeping {} := .start rfl
  exact ⟨s, hrun, hsettled, drains_receivers
    (hstart.run (twoRuns 0 1) (twoRuns_keeping 0 1) hrun)⟩

end XtrMessenger.Worker.Several
