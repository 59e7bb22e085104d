import XtrMessenger.Bus.Receipts
import XtrMessenger.Foundation.Machine
import XtrMessenger.Foundation.History

/-! `InMemoryTransport`: its record and its queue, while sends, `get` iterators and clears
interleave. -/
namespace XtrMessenger.Transport.Recording
open Foundation
variable {ω : Type}

/-- An envelope that was recorded. `id` is the identity of the object. -/
structure Recorded (ω : Type) where
  id : Nat
  envelope : Envelope ω

/-- What `send` records: the envelope, through the serializer if there is one, with a message
id. -/
def stamped [Unicode] (recode : Option (Envelope ω → Except (Exc ω) (Envelope ω)))
    (messageId : String) (envelope : Envelope ω) : Except (Exc ω) (Envelope ω) :=
  if envelope.last (.shipped .delay) ≠ none then
    .error (Bus.unsupportedStampError "DelayStamp" "in-memory")
  else do
    let recorded ← recode.elim (.ok envelope) fun recode => recode envelope
    return recorded.withStamps [.shipped (.transportMessageId messageId)]

/-- What `send` returns once `stamped` is recorded. -/
def returned (envelope stamped : Envelope ω) : Envelope ω :=
  envelope.withStamps (stamped.all (.shipped .transportMessageId))

/-- What `get` yields of a recorded envelope. -/
def collected (recorded : Recorded ω) (receipt : Nat) : Envelope ω :=
  recorded.envelope.withStamps [.shipped (.received "in-memory"), .shipped (.ackReceipt receipt)]

inductive Event (ω : Type)
  | sent (envelope : Envelope ω) (recorded : Recorded ω) (returned : Envelope ω)
  | refused (envelope : Envelope ω) (error : Exc ω)
  | yielded (place : Nat) (recorded : Recorded ω) (envelope : Envelope ω)
  | ended (place : Nat)
  | acked (envelope : Envelope ω)
  | rejected (envelope : Envelope ω)
  | cleared

inductive Action (ω : Type)
  /-- `send`, where `uuid4` comes up with `messageId`. -/
  | send (envelope : Envelope ω) (messageId : String)
  /-- `get`, which makes an iterator. -/
  | get
  /-- An iterator runs to its next `yield`, or its end. -/
  | next (place : Nat)
  /-- An iterator is closed where it stands. -/
  | close (place : Nat)
  | ack (envelope : Envelope ω)
  | reject (envelope : Envelope ω)
  | clear

structure State (ω : Type) where
  sent : List (Recorded ω) := []
  queue : List (Recorded ω) := []
  rejected : List (Envelope ω) := []
  /-- `receipt` of each iterator, in the order they were made; none once it is over. -/
  iterators : List (Option Nat) := []
  /-- How many envelopes were recorded. -/
  created : Nat := 0
  log : List (Event ω) := []

namespace State

def note (s : State ω) (e : Event ω) : State ω := { s with log := s.log ++ [e] }

/-- The end of a `send` that does not raise. -/
def record (s : State ω) (envelope stamped : Envelope ω) : State ω :=
  let recorded : Recorded ω := ⟨s.created, stamped⟩
  { s with
    sent := s.sent ++ [recorded]
    queue := s.queue ++ [recorded]
    created := s.created + 1 }.note (.sent envelope recorded (returned envelope stamped))

/-- One turn of the loop of `get`. -/
def turn (s : State ω) (place receipt : Nat) : State ω :=
  match s.queue with
  | [] => { s with iterators := s.iterators.set place none }.note (.ended place)
  | recorded :: queue =>
    let receipt := receipt + 1
    { s with queue, iterators := s.iterators.set place (some receipt) }.note
      (.yielded place recorded (collected recorded receipt))

end State

def step [Unicode] (recode : Option (Envelope ω → Except (Exc ω) (Envelope ω))) (s : State ω) :
    Action ω → Option (State ω)
  | .send envelope messageId =>
    match stamped recode messageId envelope with
    | .error error => some (s.note (.refused envelope error))
    | .ok stamped => some (s.record envelope stamped)
  | .get => some { s with iterators := s.iterators ++ [some 0] }
  | .next place =>
    match s.iterators[place]? with
    | none => none
    | some none => some (s.note (.ended place))
    | some (some receipt) => some (s.turn place receipt)
  | .close place =>
    if place < s.iterators.length then some { s with iterators := s.iterators.set place none }
    else none
  | .ack envelope => some (s.note (.acked envelope))
  | .reject envelope =>
    some ({ s with rejected := s.rejected ++ [envelope] }.note (.rejected envelope))
  | .clear => some ({ s with sent := [], queue := [], rejected := [] }.note .cleared)

/-- A transport that was just built. -/
def machine [Unicode] (recode : Option (Envelope ω → Except (Exc ω) (Envelope ω))) :
    Machine (State ω) (Action ω) where
  init s := s = {}
  step := step recode

/-- It is `InMemoryTransport.send` that answers. -/
theorem send_eq [Unicode] (recode : Option (Envelope ω → Except (Exc ω) (Envelope ω)))
    (messageId : String) (envelope : Envelope ω) :
    Bus.InMemoryTransport.send recode (fun _ => messageId) envelope =
      (stamped recode messageId envelope).map (returned envelope) := by
  unfold Bus.InMemoryTransport.send stamped
  split_ifs
  · rfl
  · cases recode.elim (.ok envelope) fun recode => recode envelope <;> rfl

/-- What was sent since the last clear, after one more event. -/
def Event.recording (sent : List (Recorded ω)) : Event ω → List (Recorded ω)
  | .sent _ recorded _ => sent ++ [recorded]
  | .cleared => []
  | _ => sent

/-- What was sent successfully since the last clear, in that order. -/
def sentSince (log : List (Event ω)) : List (Recorded ω) := log.foldl Event.recording []

def Event.yielded? : Event ω → Option (Recorded ω)
  | .yielded _ recorded _ => some recorded
  | _ => none

/-- What the iterators yielded, one after the other. -/
def yieldedOf (log : List (Event ω)) : List (Recorded ω) := log.filterMap Event.yielded?

def Event.sent? : Event ω → Option (Recorded ω)
  | .sent _ recorded _ => some recorded
  | _ => none

/-- What was ever sent successfully. -/
def sentOf (log : List (Event ω)) : List (Recorded ω) := log.filterMap Event.sent?

/-- No iterator yielded the envelope yet. -/
def unyielded (log : List (Event ω)) (recorded : Recorded ω) : Bool :=
  recorded.id ∉ (yieldedOf log).map Recorded.id

section Log
variable {log : List (Event ω)} {e : Event ω} {recorded : Recorded ω}

theorem sentSince_concat : sentSince (log ++ [e]) = e.recording (sentSince log) := by
  simp [sentSince]

theorem yieldedOf_concat : yieldedOf (log ++ [e]) = yieldedOf log ++ e.yielded?.toList :=
  filterMap_concat _ log e

theorem sentOf_concat : sentOf (log ++ [e]) = sentOf log ++ e.sent?.toList :=
  filterMap_concat _ log e

theorem yieldedOf_unchanged (h : e.yielded? = none) : yieldedOf (log ++ [e]) = yieldedOf log := by
  rw [yieldedOf_concat, h, Option.toList_none, List.append_nil]

theorem sentOf_unchanged (h : e.sent? = none) : sentOf (log ++ [e]) = sentOf log := by
  rw [sentOf_concat, h, Option.toList_none, List.append_nil]

theorem unyielded_unchanged (h : e.yielded? = none) : unyielded (log ++ [e]) = unyielded log := by
  funext r
  rw [unyielded, unyielded, yieldedOf_unchanged h]

theorem unyielded_eq_true_iff :
    unyielded log recorded = true ↔ ∀ y ∈ yieldedOf log, y.id ≠ recorded.id := by
  simp [unyielded]

theorem unyielded_yielded (place : Nat) (envelope : Envelope ω) (r : Recorded ω) :
    unyielded (log ++ [.yielded place recorded envelope]) r =
      (decide (recorded.id ≠ r.id) && unyielded log r) := by
  have hy : yieldedOf (log ++ [.yielded place recorded envelope]) = yieldedOf log ++ [recorded] :=
    yieldedOf_concat
  rw [Bool.eq_iff_iff, Bool.and_eq_true, unyielded_eq_true_iff, unyielded_eq_true_iff, hy]
  simp only [List.mem_append, List.mem_singleton, or_imp, forall_and, forall_eq,
    decide_eq_true_eq]
  exact and_comm

/-- Where numbers increase, the first of those that are left goes and the others stay. -/
theorem rest_of_filter {l rest : List (Recorded ω)} {p : Recorded ω → Bool}
    (hsorted : l.Pairwise fun a b => a.id < b.id) (h : l.filter p = recorded :: rest) :
    l.filter (fun r => decide (recorded.id ≠ r.id) && p r) = rest := by
  have hleft : (recorded :: rest).Pairwise fun a b => a.id < b.id := h ▸ hsorted.filter p
  obtain ⟨hlater, _⟩ := List.pairwise_cons.mp hleft
  have hkept : rest.filter (fun r => decide (recorded.id ≠ r.id)) = rest := by
    refine List.filter_eq_self.mpr fun r hr => ?_
    simpa using Nat.ne_of_lt (hlater r hr)
  rw [← List.filter_filter, h]
  simpa using hkept

/-- What was sent since the last clear was sent, and no clear followed. -/
theorem mem_sentSince (h : recorded ∈ sentSince log) : ∃ before envelope returned after,
    log = before ++ .sent envelope recorded returned :: after ∧ .cleared ∉ after := by
  induction log using List.reverseRecOn with
  | nil => simp [sentSince] at h
  | append_singleton log e ih =>
    have hold : recorded ∈ sentSince log → e ≠ .cleared → ∃ before envelope returned after,
        log ++ [e] = before ++ .sent envelope recorded returned :: after ∧ .cleared ∉ after := by
      intro hm hne
      obtain ⟨before, envelope, returned, after, rfl, hafter⟩ := ih hm
      refine ⟨before, envelope, returned, after ++ [e], by simp, ?_⟩
      simp [hafter, hne.symm]
    rw [sentSince_concat] at h
    cases e with
    | sent envelope r returned =>
      rcases List.mem_append.mp h with h | h
      · exact hold h (by simp)
      · obtain rfl := List.mem_singleton.mp h
        exact ⟨log, envelope, returned, [], by simp, by simp⟩
    | cleared => simp [Event.recording] at h
    | _ => exact hold h (by simp)

end Log

section Steps
variable [Unicode] {recode : Option (Envelope ω → Except (Exc ω) (Envelope ω))}

/-- A step of the receiving side. -/
def Action.Receiving : Action ω → Prop
  | .send _ _ => False
  | .clear => False
  | _ => True

/-- What the transport keeps, at any moment of its history. -/
structure Keeps (recode : Option (Envelope ω → Except (Exc ω) (Envelope ω))) (s : State ω) :
    Prop where
  sent : s.sent = sentSince s.log
  queue : s.queue = (sentSince s.log).filter (unyielded s.log)
  /-- An envelope is recorded where `send` returns, and numbered in the order of sending. -/
  sends : ∀ envelope recorded answer pre post,
    s.log = pre ++ .sent envelope recorded answer :: post →
    (∃ messageId, stamped recode messageId envelope = .ok recorded.envelope ∧
      Bus.InMemoryTransport.send recode (fun _ => messageId) envelope = .ok answer) ∧
    ∀ r ∈ sentOf pre, r.id < recorded.id
  /-- What an iterator yields was sent with no clear since, and after all that was yielded before,
  by whichever iterator. -/
  yields : ∀ place recorded envelope pre post,
    s.log = pre ++ .yielded place recorded envelope :: post →
    (∃ before handed answer after,
      pre = before ++ .sent handed recorded answer :: after ∧ .cleared ∉ after) ∧
    (∃ receipt, envelope = collected recorded receipt) ∧
    ∀ y ∈ yieldedOf pre, y.id < recorded.id
  /-- A `send` that raises changes neither. -/
  refuses : ∀ envelope messageId error t,
    Bus.InMemoryTransport.send recode (fun _ => messageId) envelope = .error error →
    step recode s (.send envelope messageId) = some t → t.sent = s.sent ∧ t.queue = s.queue
  /-- Receiving leaves the record alone. -/
  receives : ∀ a t, a.Receiving → step recode s a = some t → t.sent = s.sent

/-- What an event says of the transport, by what came before it. -/
def Timely (recode : Option (Envelope ω → Except (Exc ω) (Envelope ω))) (pre : List (Event ω)) :
    Event ω → Prop
  | .sent envelope recorded answer =>
    (∃ messageId, stamped recode messageId envelope = .ok recorded.envelope) ∧
      answer = returned envelope recorded.envelope ∧ ∀ r ∈ sentOf pre, r.id < recorded.id
  | .refused envelope error => ∃ messageId, stamped recode messageId envelope = .error error
  | .yielded _ recorded envelope =>
    recorded ∈ sentSince pre ∧ (∃ receipt, envelope = collected recorded receipt) ∧
      ∀ y ∈ yieldedOf pre, y.id < recorded.id
  | _ => True

/-- Record and queue are what the history makes of them; envelopes are numbered as they are sent,
and those yielded came before those queued. -/
structure Tidy (recode : Option (Envelope ω → Except (Exc ω) (Envelope ω))) (s : State ω) :
    Prop where
  sent : s.sent = sentSince s.log
  queue : s.queue = s.sent.filter (unyielded s.log)
  sorted : s.sent.Pairwise fun a b => a.id < b.id
  created : ∀ r, r ∈ s.sent ∨ r ∈ sentOf s.log ∨ r ∈ yieldedOf s.log → r.id < s.created
  ahead : ∀ y ∈ yieldedOf s.log, ∀ r ∈ s.queue, y.id < r.id
  timely : Justified (Timely recode) s.log

variable {s t : State ω} {e : Event ω}

/-- Most events leave record and queue alone. -/
theorem Tidy.note (h : Tidy recode s) (he : Timely recode s.log e)
    (hrecording : e.recording (sentSince s.log) = sentSince s.log) (hsent : e.sent? = none)
    (hyielded : e.yielded? = none) : Tidy recode (s.note e) := by
  constructor
  · change s.sent = sentSince (s.log ++ [e])
    rw [sentSince_concat, hrecording]
    exact h.sent
  · change s.queue = s.sent.filter (unyielded (s.log ++ [e]))
    rw [unyielded_unchanged hyielded]
    exact h.queue
  · exact h.sorted
  · intro r hr
    change r ∈ s.sent ∨ r ∈ sentOf (s.log ++ [e]) ∨ r ∈ yieldedOf (s.log ++ [e]) at hr
    rw [sentOf_unchanged hsent, yieldedOf_unchanged hyielded] at hr
    exact h.created r hr
  · intro y hm
    change y ∈ yieldedOf (s.log ++ [e]) at hm
    rw [yieldedOf_unchanged hyielded] at hm
    exact h.ahead y hm
  · exact justified_concat.mpr ⟨h.timely, he⟩

theorem Tidy.record {envelope stamped : Envelope ω} {messageId : String} (h : Tidy recode s)
    (hstamped : Recording.stamped recode messageId envelope = .ok stamped) :
    Tidy recode (s.record envelope stamped) := by
  set new : Recorded ω := ⟨s.created, stamped⟩
  set e : Event ω := .sent envelope new (returned envelope stamped) with he
  have hy : yieldedOf (s.log ++ [e]) = yieldedOf s.log := yieldedOf_unchanged rfl
  have hunyielded : unyielded s.log new = true := by
    rw [unyielded_eq_true_iff]
    intro y hm
    have hlt : y.id < s.created := h.created y (.inr (.inr hm))
    exact Nat.ne_of_lt hlt
  constructor
  · change s.sent ++ [new] = sentSince (s.log ++ [e])
    rw [sentSince_concat, h.sent, he]
    rfl
  · change s.queue ++ [new] = (s.sent ++ [new]).filter (unyielded (s.log ++ [e]))
    rw [unyielded_unchanged rfl, List.filter_append, ← h.queue]
    simp [hunyielded]
  · change (s.sent ++ [new]).Pairwise _
    rw [List.pairwise_append]
    refine ⟨h.sorted, List.pairwise_singleton _ _, fun r hr r' hr' => ?_⟩
    obtain rfl := List.mem_singleton.mp hr'
    exact h.created r (.inl hr)
  · intro r hr
    change r ∈ s.sent ++ [new] ∨ r ∈ sentOf (s.log ++ [e]) ∨ r ∈ yieldedOf (s.log ++ [e]) at hr
    rw [hy, sentOf_concat] at hr
    have hcases : (r ∈ s.sent ∨ r ∈ sentOf s.log ∨ r ∈ yieldedOf s.log) ∨ r = new := by
      have hone : e.sent?.toList = [new] := rfl
      rw [hone, List.mem_append, List.mem_append, List.mem_singleton] at hr
      tauto
    change r.id < s.created + 1
    rcases hcases with hold | rfl
    · have hlt := h.created r hold
      omega
    · exact Nat.lt_succ_self s.created
  · intro y hm r hr
    change y ∈ yieldedOf (s.log ++ [e]) at hm
    rw [hy] at hm
    rcases List.mem_append.mp hr with hr | hr
    · exact h.ahead y hm r hr
    · obtain rfl := List.mem_singleton.mp hr
      exact h.created y (.inr (.inr hm))
  · refine justified_concat.mpr ⟨h.timely, ⟨messageId, hstamped⟩, rfl, fun r hr => ?_⟩
    exact h.created r (.inr (.inl hr))

/-- The first envelope queued is the first that no iterator yielded yet. -/
theorem Tidy.yield {recorded : Recorded ω} {queue : List (Recorded ω)} (h : Tidy recode s)
    (hqueue : s.queue = recorded :: queue) (place receipt : Nat) (iterators : List (Option Nat)) :
    Tidy recode ({ s with queue, iterators }.note
      (.yielded place recorded (collected recorded receipt))) := by
  set e : Event ω := .yielded place recorded (collected recorded receipt)
  have hy : yieldedOf (s.log ++ [e]) = yieldedOf s.log ++ [recorded] := yieldedOf_concat
  have hs : sentOf (s.log ++ [e]) = sentOf s.log := sentOf_unchanged rfl
  have hfirst : recorded ∈ s.queue := by simp [hqueue]
  have hsent : recorded ∈ s.sent := by
    rw [h.queue] at hfirst
    exact List.mem_of_mem_filter hfirst
  have hsorted : (recorded :: queue).Pairwise fun a b => a.id < b.id := by
    rw [← hqueue, h.queue]
    exact h.sorted.filter _
  obtain ⟨hlater, hrest⟩ := List.pairwise_cons.mp hsorted
  constructor
  · change s.sent = sentSince (s.log ++ [e])
    rw [sentSince_concat]
    exact h.sent
  · change queue = s.sent.filter (unyielded (s.log ++ [e]))
    have hfilter : s.sent.filter (unyielded s.log) = recorded :: queue := h.queue.symm.trans hqueue
    rw [← rest_of_filter h.sorted hfilter]
    exact List.filter_congr fun r _ => (unyielded_yielded place _ r).symm
  · exact h.sorted
  · intro r hr
    change r ∈ s.sent ∨ r ∈ sentOf (s.log ++ [e]) ∨ r ∈ yieldedOf (s.log ++ [e]) at hr
    rw [hs, hy, List.mem_append, List.mem_singleton] at hr
    rcases hr with hr | hr | hr | rfl
    · exact h.created r (.inl hr)
    · exact h.created r (.inr (.inl hr))
    · exact h.created r (.inr (.inr hr))
    · exact h.created r (.inl hsent)
  · intro y hm r hr
    change y ∈ yieldedOf (s.log ++ [e]) at hm
    rw [hy, List.mem_append, List.mem_singleton] at hm
    rcases hm with hm | rfl
    · exact h.ahead y hm r (hqueue ▸ List.mem_cons_of_mem _ hr)
    · exact hlater r hr
  · refine justified_concat.mpr ⟨h.timely, h.sent ▸ hsent, ⟨receipt, rfl⟩, fun y hm => ?_⟩
    exact h.ahead y hm recorded hfirst

theorem Tidy.turn (h : Tidy recode s) (place receipt : Nat) :
    Tidy recode (s.turn place receipt) := by
  unfold State.turn
  split
  · have hleft : Tidy recode { s with iterators := s.iterators.set place none } :=
      ⟨h.sent, h.queue, h.sorted, h.created, h.ahead, h.timely⟩
    exact hleft.note trivial rfl rfl rfl
  · rename_i recorded queue hqueue
    exact h.yield hqueue place (receipt + 1) _

theorem Tidy.clear (h : Tidy recode s) :
    Tidy recode ({ s with sent := [], queue := [], rejected := [] }.note .cleared) := by
  have hy : yieldedOf (s.log ++ [.cleared]) = yieldedOf s.log := yieldedOf_unchanged rfl
  have hs : sentOf (s.log ++ [.cleared]) = sentOf s.log := sentOf_unchanged rfl
  constructor
  · change [] = sentSince (s.log ++ [.cleared])
    rw [sentSince_concat]
    rfl
  · rfl
  · exact .nil
  · intro r hr
    change r ∈ [] ∨ r ∈ sentOf (s.log ++ [.cleared]) ∨ r ∈ yieldedOf (s.log ++ [.cleared]) at hr
    rw [hs, hy] at hr
    exact h.created r (.inr (hr.resolve_left List.not_mem_nil))
  · intro y _ r hr
    cases hr
  · exact justified_concat.mpr ⟨h.timely, trivial⟩

theorem step_tidy {a : Action ω} (h : Tidy recode s) (hs : step recode s a = some t) :
    Tidy recode t := by
  cases a with
  | send envelope messageId =>
    simp only [step] at hs
    split at hs
    · rename_i error hrefused
      exact Option.some.inj hs ▸ h.note ⟨messageId, hrefused⟩ rfl rfl rfl
    · rename_i stamped hstamped
      exact Option.some.inj hs ▸ h.record hstamped
  | get =>
    exact Option.some.inj hs ▸ ⟨h.sent, h.queue, h.sorted, h.created, h.ahead, h.timely⟩
  | next place =>
    simp only [step] at hs
    split at hs
    · cases hs
    · exact Option.some.inj hs ▸ h.note trivial rfl rfl rfl
    · rename_i receipt hopen
      exact Option.some.inj hs ▸ h.turn place receipt
  | close place =>
    simp only [step] at hs
    split_ifs at hs
    exact Option.some.inj hs ▸ ⟨h.sent, h.queue, h.sorted, h.created, h.ahead, h.timely⟩
  | ack envelope => exact Option.some.inj hs ▸ h.note trivial rfl rfl rfl
  | reject envelope =>
    have hnoted : Tidy recode { s with rejected := s.rejected ++ [envelope] } :=
      ⟨h.sent, h.queue, h.sorted, h.created, h.ahead, h.timely⟩
    exact Option.some.inj hs ▸ hnoted.note trivial rfl rfl rfl
  | clear => exact Option.some.inj hs ▸ h.clear

theorem tidy (h : (machine recode).Reachable s) : Tidy recode s := by
  refine h.invariant ?_ fun s a t _ hi _ hs => step_tidy hi hs
  rintro s rfl
  exact ⟨rfl, rfl, .nil, by simp [sentOf, yieldedOf], by simp, .nil⟩

theorem stamped_of_refused {envelope : Envelope ω} {messageId : String} {error : Exc ω}
    (h : Bus.InMemoryTransport.send recode (fun _ => messageId) envelope = .error error) :
    stamped recode messageId envelope = .error error := by
  rw [send_eq] at h
  cases hs : stamped recode messageId envelope with
  | error e =>
    rw [hs] at h
    exact h
  | ok stamped =>
    rw [hs] at h
    cases h

omit [Unicode] in
theorem turn_sent (place receipt : Nat) : (s.turn place receipt).sent = s.sent := by
  unfold State.turn
  split <;> rfl

theorem step_receiving {a : Action ω} (ha : a.Receiving) (hs : step recode s a = some t) :
    t.sent = s.sent := by
  cases a with
  | send envelope messageId => exact ha.elim
  | clear => exact ha.elim
  | next place =>
    simp only [step] at hs
    split at hs
    · cases hs
    · exact Option.some.inj hs ▸ rfl
    · exact Option.some.inj hs ▸ turn_sent place _
  | close place =>
    simp only [step] at hs
    split_ifs at hs
    exact Option.some.inj hs ▸ rfl
  | _ => exact Option.some.inj hs ▸ rfl

/-- However sends, iterators and clears interleave, the record is what was sent since the last
clear and the queue what no iterator yielded of it; every envelope is yielded at most once, in the
order of sending, and never after a clear. -/
theorem yields_in_order (h : (machine recode).Reachable s) : Keeps recode s := by
  have htidy := tidy h
  constructor
  · exact htidy.sent
  · rw [← htidy.sent]
    exact htidy.queue
  · intro envelope recorded answer pre post hlog
    obtain ⟨⟨messageId, hstamped⟩, hanswer, horder⟩ := htidy.timely _ _ _ hlog
    refine ⟨⟨messageId, hstamped, ?_⟩, horder⟩
    rw [send_eq, hstamped, hanswer]
    rfl
  · intro place recorded envelope pre post hlog
    obtain ⟨hsent, hcollected, horder⟩ := htidy.timely _ _ _ hlog
    exact ⟨mem_sentSince hsent, hcollected, horder⟩
  · intro envelope messageId error t hraised hs
    simp only [step, stamped_of_refused hraised] at hs
    obtain rfl := Option.some.inj hs
    exact ⟨rfl, rfl⟩
  · exact fun a t => step_receiving

end Steps

section Samples
attribute [local instance] Unicode.ascii

/-- Two iterators are at work before and after a clear, and a report with a delay is refused. -/
def interleaved : List (Action Bus.Sample) :=
  let report : Envelope Bus.Sample := ⟨.report, []⟩
  [.send report "1", .get, .send report "2", .get, .next 1, .send report "3", .clear,
    .send ⟨.report, [.shipped (.delay 250)]⟩ "4", .send report "5", .send report "6", .next 0,
    .ack report, .reject report, .close 1]

theorem yields_in_order_interleaved : ∃ s, (machine none).run {} interleaved = some s ∧
    s.sent.map Recorded.id = [3, 4] ∧ s.queue.map Recorded.id = [4] ∧ Keeps none s := by
  obtain ⟨s, hrun, hsent, hqueue⟩ : ∃ s, (machine none).run {} interleaved = some s ∧
    s.sent.map Recorded.id = [3, 4] ∧ s.queue.map Recorded.id = [4] := ⟨_, rfl, rfl, rfl⟩
  have hstart : (machine (none : Option (Envelope Bus.Sample → _))).Reachable {} := .start rfl
  exact ⟨s, hrun, hsent, hqueue, yields_in_order (Machine.Reachable.run hstart interleaved hrun)⟩

end Samples

end XtrMessenger.Transport.Recording
