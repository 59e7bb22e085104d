import XtrMessenger.Worker.Ledger
import XtrMessenger.Transport.Recording
import XtrMessenger.Foundation.Interleaving
import Mathlib.Data.Fintype.Basic

/-! Several workers at one `InMemoryTransport`, each with an iterator of its own, while others
send to it and clear it. No worker's own task is cancelled. -/
namespace XtrMessenger.Worker.Pool
open Foundation Transport ChainedReceiver
variable {n : Nat} {ω : Type}

inductive Action (n : Nat) (ω : Type)
  | send (envelope : Envelope ω) (messageId : String)
  | clear
  | run (worker : Fin n)
  | stop (worker : Fin n)
  | announced (worker : Fin n) (raised : Option (Exc ω))
  | opened (worker : Fin n)
  | fetched (worker : Fin n)
  /-- The fetch was cancelled before it ran. -/
  | cancelled (worker : Fin n)
  | wake (worker : Fin n)
  | settle (worker : Fin n) (world : World ω)
  | perform (worker : Fin n)
  | closed (worker : Fin n)

structure State (n : Nat) (ω : Type) where
  transport : Recording.State ω := {}
  workers : Fin n → Worker.State ω := fun _ => {}
  /-- `collected` of each worker: the place of its iterator. -/
  streams : Fin n → Nat := fun _ => 0

/-- What an iterator's turn makes of the fetch that waits for it. -/
def fetchOf : Recording.Event ω → Option (Fetched ω)
  | .yielded _ _ envelope => some (.delivered envelope)
  | .ended _ => some .exhausted
  | _ => none

/-- The transport settles without raising. -/
def settling (world : World ω) : World ω :=
  { world with ack := fun _ => none, reject := fun _ => none }

/-- What a worker asks of the transport by its next call. -/
def asked : Phase ω → Option (Recording.Action ω)
  | .settling (.ack envelope _ :: _) _ => some (.ack envelope)
  | .settling (.reject envelope _ :: _) _ => some (.reject envelope)
  | _ => none

section Step
variable [Unicode] (recode : Option (Envelope ω → Except (Exc ω) (Envelope ω)))
  (pool : Fin n → Worker)

/-- A step of one worker. -/
def State.work (s : State n ω) (i : Fin n) (a : Worker.Action ω) : Option (State n ω) :=
  ((pool i).step (s.workers i) a).map fun w =>
    { s with workers := Function.update s.workers i w }

/-- A step of the transport. -/
def State.ask (s : State n ω) (a : Recording.Action ω) : Option (State n ω) :=
  (Recording.step recode s.transport a).map fun t => { s with transport := t }

def step (s : State n ω) : Action n ω → Option (State n ω)
  | .send envelope messageId => s.ask recode (.send envelope messageId)
  | .clear => s.ask recode .clear
  | .run i => s.work pool i .run
  | .stop i => s.work pool i .stop
  | .announced i raised => s.work pool i (.announced raised)
  | .opened i => do
    let place := s.transport.iterators.length
    let s ← s.ask recode .get
    { s with streams := Function.update s.streams i place }.work pool i (.opened none)
  | .fetched i => do
    let s ← s.ask recode (.next (s.streams i))
    let event ← s.transport.log.getLast?
    let fetch ← fetchOf event
    s.work pool i (.fetched fetch)
  | .cancelled i => do
    let .cancelling := (s.workers i).phase | none
    s.work pool i (.fetched .cancelled)
  | .wake i => s.work pool i .wake
  | .settle i world => s.work pool i (.settle (settling world))
  | .perform i => do
    let s ← (asked (s.workers i).phase).elim (some s) (s.ask recode)
    s.work pool i .perform
  | .closed i => do
    let s ← s.ask recode (.close (s.streams i))
    s.work pool i (.closed none)

/-- Workers that were just built, at a transport that was. -/
def machine : Machine (State n ω) (Action n ω) where
  init s := s = {}
  step := step recode pool

end Step

/-- A worker starts settling only a message whose failure, if it fails, can be reported. -/
def Reporting (_ : State n ω) : Action n ω → Prop
  | .settle _ world => world.Reportable
  | _ => True

/-- What the transport yielded, as it was recorded and as it was handed out. -/
def yieldOf : Recording.Event ω → Option (Recording.Recorded ω × Envelope ω)
  | .yielded _ recorded envelope => some (recorded, envelope)
  | _ => none

def yieldsOf (log : List (Recording.Event ω)) : List (Recording.Recorded ω × Envelope ω) :=
  log.filterMap yieldOf

def settledOf : Recording.Event ω → Option (Settlement × Envelope ω)
  | .acked envelope => some (.ack, envelope)
  | .rejected envelope => some (.reject, envelope)
  | _ => none

/-- The settlements the transport was asked for, in order. -/
def settlementsAt (log : List (Recording.Event ω)) : List (Settlement × Envelope ω) :=
  log.filterMap settledOf

section Transport
variable [Unicode] {recode : Option (Envelope ω → Except (Exc ω) (Envelope ω))}
  {s t : Recording.State ω}

/-- What a step of the transport adds to what it yielded and to what it settled. -/
structure Adds (s : Recording.State ω) (e : Recording.Event ω) (t : Recording.State ω) :
    Prop where
  log : t.log = s.log ++ [e]
  yields : yieldsOf t.log = yieldsOf s.log ++ (yieldOf e).toList
  settlements : settlementsAt t.log = settlementsAt s.log ++ (settledOf e).toList

omit [Unicode] in
theorem adds_of_log {e : Recording.Event ω} (h : t.log = s.log ++ [e]) : Adds s e t :=
  ⟨h, by rw [h]; exact filterMap_concat _ _ _, by rw [h]; exact filterMap_concat _ _ _⟩

theorem adds_send {envelope : Envelope ω} {messageId : String}
    (h : Recording.step recode s (.send envelope messageId) = some t) :
    ∃ e, Adds s e t ∧ yieldOf e = none ∧ settledOf e = none := by
  simp only [Recording.step] at h
  split at h
  · obtain rfl := Option.some.inj h
    exact ⟨_, adds_of_log rfl, rfl, rfl⟩
  · obtain rfl := Option.some.inj h
    exact ⟨_, adds_of_log rfl, rfl, rfl⟩

theorem adds_next {place : Nat} (h : Recording.step recode s (.next place) = some t) :
    ∃ e, Adds s e t ∧ settledOf e = none := by
  simp only [Recording.step] at h
  split at h
  · cases h
  · obtain rfl := Option.some.inj h
    exact ⟨_, adds_of_log rfl, rfl⟩
  · obtain rfl := Option.some.inj h
    unfold Recording.State.turn
    split
    · exact ⟨_, adds_of_log rfl, rfl⟩
    · exact ⟨_, adds_of_log rfl, rfl⟩

omit [Unicode] in
/-- A turn that ends a fetch delivers what it yielded. -/
theorem delivers_yielded {e : Recording.Event ω} {fetch : Fetched ω}
    (h : fetchOf e = some fetch) :
    (yieldOf e).toList.map Prod.snd = (Worker.Action.fetched fetch).delivers := by
  cases e with
  | yielded place recorded envelope => exact Option.some.inj h ▸ rfl
  | ended place => exact Option.some.inj h ▸ rfl
  | _ => cases h

end Transport

section Moves
variable [Unicode] {recode : Option (Envelope ω → Except (Exc ω) (Envelope ω))}
  {pool : Fin n → Worker} {s t : State n ω} {a : Action n ω}

/-- A step of one worker, and what the transport has to do with it. -/
structure Moves (recode : Option (Envelope ω → Except (Exc ω) (Envelope ω)))
    (pool : Fin n → Worker) (s : State n ω) (a : Action n ω) (t : State n ω) (i : Fin n)
    (b : Worker.Action ω) (w : Worker.State ω) : Prop where
  step : (pool i).step (s.workers i) b = some w
  workers : t.workers = Function.update s.workers i w
  reporting : Reporting s a → Worker.Reporting (s.workers i) b
  transport : t.transport = s.transport ∨
    ∃ c, Recording.step recode s.transport c = some t.transport
  yields : ∃ handed, handed.map Prod.snd = b.delivers ∧
    yieldsOf t.transport.log = yieldsOf s.transport.log ++ handed
  settlements : settlementsAt t.transport.log =
    settlementsAt s.transport.log ++ settles (s.workers i) b

omit [Unicode] in
theorem work_eq {i : Fin n} {b : Worker.Action ω} (h : s.work pool i b = some t) :
    ∃ w, (pool i).step (s.workers i) b = some w ∧
      t = { s with workers := Function.update s.workers i w } := by
  obtain ⟨w, hw, rfl⟩ := Option.map_eq_some_iff.mp h
  exact ⟨w, hw, rfl⟩

theorem ask_eq {c : Recording.Action ω} (h : s.ask recode c = some t) :
    Recording.step recode s.transport c = some t.transport ∧ t.workers = s.workers ∧
      t.streams = s.streams := by
  obtain ⟨u, hu, rfl⟩ := Option.map_eq_some_iff.mp h
  exact ⟨hu, rfl, rfl⟩

/-- The transport has no part in it. -/
theorem moves_alone {i : Fin n} {b : Worker.Action ω} (h : s.work pool i b = some t)
    (hr : Reporting s a → Worker.Reporting (s.workers i) b) (hd : b.delivers = [])
    (hs : settles (s.workers i) b = []) : ∃ w, Moves recode pool s a t i b w := by
  obtain ⟨w, hw, rfl⟩ := work_eq h
  refine ⟨w, hw, rfl, hr, .inl rfl, ⟨[], hd.symm, (List.append_nil _).symm⟩, ?_⟩
  rw [hs, List.append_nil]

omit [Unicode] in
/-- A call about a message that the transport takes no part in settles nothing. -/
theorem settles_unasked {w : Worker.State ω} (h : asked w.phase = none) :
    settles w .perform = [] := by
  cases hp : w.phase with
  | settling todo result =>
    cases todo with
    | nil => exact settles_nil hp
    | cons c todo =>
      unfold settles
      rw [hp] at h ⊢
      cases c <;> first | rfl | cases h
  | _ =>
    unfold settles
    rw [hp]

/-- The transport is asked for the settlement the worker's call is. -/
theorem settles_asked {w : Worker.State ω} {c : Recording.Action ω} {u u' : Recording.State ω}
    (h : asked w.phase = some c) (hc : Recording.step recode u c = some u') :
    yieldsOf u'.log = yieldsOf u.log ∧
      settlementsAt u'.log = settlementsAt u.log ++ settles w .perform := by
  unfold asked at h
  split at h
  · rename_i envelope raised todo result hp
    obtain rfl := Option.some.inj h
    have hadds : Adds u (.acked envelope) u' := adds_of_log (Option.some.inj hc ▸ rfl)
    refine ⟨hadds.yields.trans (List.append_nil _), ?_⟩
    rw [hadds.settlements]
    unfold settles
    rw [hp]
    rfl
  · rename_i envelope raised todo result hp
    obtain rfl := Option.some.inj h
    have hadds : Adds u (.rejected envelope) u' := adds_of_log (Option.some.inj hc ▸ rfl)
    refine ⟨hadds.yields.trans (List.append_nil _), ?_⟩
    rw [hadds.settlements]
    unfold settles
    rw [hp]
    rfl
  · cases h

/-- A step is the transport's alone, or one worker's. -/
theorem step_cases (h : step recode pool s a = some t) :
    (∃ c, Recording.step recode s.transport c = some t.transport ∧ t.workers = s.workers ∧
      yieldsOf t.transport.log = yieldsOf s.transport.log ∧
      settlementsAt t.transport.log = settlementsAt s.transport.log) ∨
    ∃ i b w, Moves recode pool s a t i b w := by
  cases a with
  | send envelope messageId =>
    obtain ⟨hstep, hworkers, -⟩ := ask_eq h
    obtain ⟨e, hadds, hy, hs⟩ := adds_send hstep
    refine .inl ⟨_, hstep, hworkers, ?_, ?_⟩
    · rw [hadds.yields, hy, Option.toList_none, List.append_nil]
    · rw [hadds.settlements, hs, Option.toList_none, List.append_nil]
  | clear =>
    obtain ⟨hstep, hworkers, -⟩ := ask_eq h
    have hadds : Adds s.transport .cleared t.transport :=
      adds_of_log (Option.some.inj hstep ▸ rfl)
    exact .inl ⟨_, hstep, hworkers, hadds.yields.trans (List.append_nil _),
      hadds.settlements.trans (List.append_nil _)⟩
  | run i => exact .inr ⟨i, _, moves_alone h (fun _ => trivial) rfl rfl⟩
  | stop i => exact .inr ⟨i, _, moves_alone h (fun _ => trivial) rfl rfl⟩
  | announced i raised => exact .inr ⟨i, _, moves_alone h (fun _ => trivial) rfl rfl⟩
  | wake i => exact .inr ⟨i, _, moves_alone h (fun _ => trivial) rfl rfl⟩
  | settle i world =>
    have hr : world.Reportable → (settling world).Reportable :=
      fun hw => ⟨hw.bus, hw.received, hw.handled⟩
    exact .inr ⟨i, _, moves_alone h hr rfl rfl⟩
  | cancelled i =>
    simp only [step] at h
    split at h
    · exact .inr ⟨i, _, moves_alone h (fun _ => trivial) rfl rfl⟩
    · cases h
  | opened i =>
    simp only [step, Option.bind_eq_bind, Option.bind_eq_some_iff] at h
    obtain ⟨u, hu, hwork⟩ := h
    obtain ⟨hstep, hworkers, -⟩ := ask_eq hu
    obtain ⟨w, hw, rfl⟩ := work_eq hwork
    have hlog : u.transport.log = s.transport.log := by
      rw [← Option.some.inj hstep]
    refine .inr ⟨i, .opened none, w, ?_, ?_, fun _ => trivial, .inr ⟨_, hstep⟩, ⟨[], rfl, ?_⟩, ?_⟩
    · rwa [← hworkers]
    · change Function.update u.workers i w = _
      rw [hworkers]
    · rw [hlog, List.append_nil]
    · change _ = _ ++ []
      rw [hlog, List.append_nil]
  | fetched i =>
    simp only [step, Option.bind_eq_bind, Option.bind_eq_some_iff] at h
    obtain ⟨u, hu, event, hevent, fetch, hfetch, hwork⟩ := h
    obtain ⟨hstep, hworkers, -⟩ := ask_eq hu
    obtain ⟨w, hw, rfl⟩ := work_eq hwork
    obtain ⟨e, hadds, hs⟩ := adds_next hstep
    obtain rfl : e = event := by
      rw [hadds.log] at hevent
      simpa using hevent
    refine .inr ⟨i, .fetched fetch, w, ?_, ?_, fun _ => trivial, .inr ⟨_, hstep⟩,
      ⟨(yieldOf e).toList, delivers_yielded hfetch, hadds.yields⟩, ?_⟩
    · rwa [← hworkers]
    · change Function.update u.workers i w = _
      rw [hworkers]
    · exact hadds.settlements.trans (by rw [hs]; rfl)
  | perform i =>
    simp only [step, Option.bind_eq_bind, Option.bind_eq_some_iff] at h
    obtain ⟨u, hu, hwork⟩ := h
    cases hasked : asked (s.workers i).phase with
    | none =>
      rw [hasked] at hu
      obtain rfl : s = u := Option.some.inj hu
      exact .inr ⟨i, _, moves_alone hwork (fun _ => trivial) rfl (settles_unasked hasked)⟩
    | some c =>
      rw [hasked] at hu
      obtain ⟨hstep, hworkers, -⟩ := ask_eq hu
      obtain ⟨w, hw, rfl⟩ := work_eq hwork
      obtain ⟨hy, hs⟩ := settles_asked hasked hstep
      refine .inr ⟨i, .perform, w, ?_, ?_, fun _ => trivial, .inr ⟨_, hstep⟩, ⟨[], rfl, ?_⟩, hs⟩
      · rwa [← hworkers]
      · change Function.update u.workers i w = _
        rw [hworkers]
      · exact hy.trans (List.append_nil _).symm
  | closed i =>
    simp only [step, Option.bind_eq_bind, Option.bind_eq_some_iff] at h
    obtain ⟨u, hu, hwork⟩ := h
    obtain ⟨hstep, hworkers, -⟩ := ask_eq hu
    obtain ⟨w, hw, rfl⟩ := work_eq hwork
    have hlog : u.transport.log = s.transport.log := by
      simp only [Recording.step] at hstep
      split_ifs at hstep
      rw [← Option.some.inj hstep]
    refine .inr ⟨i, .closed none, w, ?_, ?_, fun _ => trivial, .inr ⟨_, hstep⟩, ⟨[], rfl, ?_⟩, ?_⟩
    · rwa [← hworkers]
    · change Function.update u.workers i w = _
      rw [hworkers]
    · rw [hlog, List.append_nil]
    · change _ = _ ++ []
      rw [hlog, List.append_nil]

end Moves

section Sharing
variable [Unicode] {recode : Option (Envelope ω → Except (Exc ω) (Envelope ω))}
  {pool : Fin n → Worker} {s t : State n ω} {a : Action n ω}

/-- Which worker each yield and each settlement of the transport is of. -/
structure Shared (s : State n ω) : Prop where
  handed : ∃ handed, Interleaved (yieldsOf s.transport.log) handed ∧
    ∀ i, (handed i).map Prod.snd = deliveredOf (s.workers i).log
  settled : Interleaved (settlementsAt s.transport.log) fun i => settlementsOf (s.workers i).log

omit [Unicode] in
/-- What one worker's log gained. -/
theorem ledger_update {γ : Type} (read : List (Worker.Event ω) → List γ) {i : Fin n}
    {w : Worker.State ω} {more : List γ}
    (hw : read w.log = read (s.workers i).log ++ more) :
    (fun j => read (Function.update s.workers i w j).log) =
      Function.update (fun j => read (s.workers j).log) i (read (s.workers i).log ++ more) := by
  funext j
  rcases eq_or_ne j i with rfl | hj
  · rw [Function.update_self, Function.update_self, hw]
  · rw [Function.update_of_ne hj, Function.update_of_ne hj]

theorem step_shared (hi : Shared s) (h : step recode pool s a = some t) : Shared t := by
  obtain ⟨⟨handed, hinterleaved, hcollected⟩, hsettled⟩ := hi
  rcases step_cases h with ⟨c, -, hworkers, hy, hs⟩ | ⟨i, b, w, hm⟩
  · constructor
    · rw [hy, hworkers]
      exact ⟨handed, hinterleaved, hcollected⟩
    · rwa [hs, hworkers]
  · have hgrew := step_grew (Worker.steps_of_step hm.step)
    obtain ⟨more, hmore, hy⟩ := hm.yields
    constructor
    · refine ⟨Function.update handed i (handed i ++ more), hy ▸ hinterleaved.append i more, ?_⟩
      intro j
      rw [hm.workers]
      rcases eq_or_ne j i with rfl | hj
      · rw [Function.update_self, Function.update_self, List.map_append, hcollected, hmore,
          hgrew.deliveredOf]
      · rw [Function.update_of_ne hj, Function.update_of_ne hj, hcollected]
    · rw [hm.settlements, hm.workers, ledger_update settlementsOf hgrew.settlementsOf]
      exact hsettled.append i _

theorem reach_shared (h : (machine recode pool).Reach Reporting s) : Shared s := by
  refine h.invariant ?_ fun s a t _ hi _ hs => step_shared hi hs
  rintro s rfl
  exact ⟨⟨fun _ => [], .nil, fun _ => rfl⟩, .nil⟩

/-- The transport is used as any transport may be. -/
theorem reach_transport (h : (machine recode pool).Reach Reporting s) :
    (Recording.machine recode).Reachable s.transport := by
  refine h.part (N := Recording.machine recode) State.transport ?_ fun s a t _ hs => ?_
  · rintro s rfl
    rfl
  · rcases step_cases hs with ⟨c, hc, -⟩ | ⟨i, b, w, hm⟩
    · exact .inr ⟨c, trivial, hc⟩
    · exact hm.transport.imp id fun ⟨c, hc⟩ => ⟨c, trivial, hc⟩

/-- Each worker runs as it would alone. -/
theorem reach_worker (h : (machine recode pool).Reach Reporting s) (i : Fin n) :
    (Worker.machine ω (pool i)).Reach Worker.Reporting (s.workers i) := by
  refine h.part (N := Worker.machine ω (pool i)) (fun s => s.workers i) ?_
    fun s a t ha hs => ?_
  · rintro s rfl
    rfl
  · rcases step_cases hs with ⟨c, -, hworkers, -⟩ | ⟨j, b, w, hm⟩
    · exact .inl (congrFun hworkers i)
    · simp only [hm.workers]
      rcases eq_or_ne i j with rfl | hij
      · rw [Function.update_self]
        exact .inr ⟨b, hm.reporting ha, hm.step⟩
      · exact .inl (Function.update_of_ne hij _ _)

omit [Unicode] in
theorem yieldsOf_recorded (log : List (Recording.Event ω)) :
    (yieldsOf log).map Prod.fst = Recording.yieldedOf log := by
  rw [yieldsOf, Recording.yieldedOf, List.map_filterMap]
  refine List.filterMap_congr fun e _ => ?_
  cases e <;> rfl

section Order
variable {u : Recording.State ω}

theorem sent_sorted (h : Recording.Tidy recode u) :
    (Recording.sentOf u.log).Pairwise fun a b => a.id < b.id := by
  refine h.timely.pairwise fun pre x b hx hb a ha => ?_
  cases x with
  | sent envelope recorded answer => exact Option.some.inj hb ▸ hx.2.2 a ha
  | _ => cases hb

theorem yielded_sorted (h : Recording.Tidy recode u) :
    (Recording.yieldedOf u.log).Pairwise fun a b => a.id < b.id := by
  refine h.timely.pairwise fun pre x b hx hb a ha => ?_
  cases x with
  | yielded place recorded envelope => exact Option.some.inj hb ▸ hx.2.2 a ha
  | _ => cases hb

/-- What was yielded was sent. -/
theorem yielded_sent (h : Recording.Tidy recode u) {r : Recording.Recorded ω}
    (hr : r ∈ Recording.yieldedOf u.log) : r ∈ Recording.sentOf u.log := by
  obtain ⟨x, hx, hyielded⟩ := List.mem_filterMap.mp hr
  obtain ⟨pre, post, hlog⟩ := List.append_of_mem hx
  cases x with
  | yielded place recorded envelope =>
    obtain rfl := Option.some.inj hyielded
    obtain ⟨before, handed, answer, after, rfl, -⟩ :=
      Recording.mem_sentSince (h.timely pre _ post hlog).1
    refine List.mem_filterMap.mpr ⟨.sent handed recorded answer, ?_, rfl⟩
    simp [hlog]
  | _ => cases hyielded

/-- Envelopes that were sent are told apart by their numbers. -/
theorem sent_inj (h : Recording.Tidy recode u) {r r' : Recording.Recorded ω}
    (hr : r ∈ Recording.sentOf u.log) (hr' : r' ∈ Recording.sentOf u.log) (hid : r.id = r'.id) :
    r = r' := by
  have hn : ((Recording.sentOf u.log).map Recording.Recorded.id).Nodup :=
    List.pairwise_map.mpr ((sent_sorted h).imp fun hlt => Nat.ne_of_lt hlt)
  exact List.inj_on_of_nodup_map hn hr hr' hid

theorem yielded_nodup (h : Recording.Tidy recode u) : (Recording.yieldedOf u.log).Nodup := by
  refine (yielded_sorted h).imp ?_
  rintro r r' hlt rfl
  exact Nat.lt_irrefl _ hlt

end Order

/-- Where an envelope is that was sent: in the queue, cleared from it, or with one worker. -/
inductive Placed (s : State n ω) (handed : Fin n → List (Recording.Recorded ω × Envelope ω))
    (r : Recording.Recorded ω) : Prop
  | queued (h : r ∈ s.transport.queue) (hn : ∀ i, r ∉ (handed i).map Prod.fst)
  | cleared (h : r ∉ s.transport.sent) (hn : ∀ i, r ∉ (handed i).map Prod.fst)
  | taken (i : Fin n) (h : r ∈ (handed i).map Prod.fst)
    (hn : ∀ j, r ∈ (handed j).map Prod.fst → j = i)

/-- How the workers share what is sent. -/
structure Served (pool : Fin n → Worker) (s : State n ω)
    (handed : Fin n → List (Recording.Recorded ω × Envelope ω)) : Prop where
  /-- Each worker's deliveries are its share of what was yielded, and no share repeats one. -/
  interleaved : Interleaved (yieldsOf s.transport.log) handed
  delivered : ∀ i, (handed i).map Prod.snd = deliveredOf (s.workers i).log
  once : ∀ i, ((handed i).map Prod.fst).Nodup
  placed : ∀ r ∈ Recording.sentOf s.transport.log, Placed s handed r
  /-- All but the message in hand were settled once, as their handling came out. -/
  dealt : ∀ i, ∃ dealt, filed (s.workers i).log = (inHand (s.workers i).log).toList ++ dealt ∧
    ∀ d ∈ dealt, Dealt (pool i) d.1 d.2
  settled : Interleaved (settlementsAt s.transport.log) fun i => settlementsOf (s.workers i).log
  /-- Once no worker runs, all that was yielded was settled. -/
  idle : (∀ i, (s.workers i).phase = .idle) → (∀ i, inHand (s.workers i).log = none) ∧
    (settlementsAt s.transport.log).length = (yieldsOf s.transport.log).length

theorem placed_of_sent {handed : Fin n → List (Recording.Recorded ω × Envelope ω)}
    (ht : Recording.Tidy recode s.transport)
    (hh : Interleaved (yieldsOf s.transport.log) handed) {r : Recording.Recorded ω}
    (hr : r ∈ Recording.sentOf s.transport.log) : Placed s handed r := by
  have hparts : Interleaved (Recording.yieldedOf s.transport.log) fun i =>
      (handed i).map Prod.fst := yieldsOf_recorded s.transport.log ▸ hh.map Prod.fst
  by_cases hy : r ∈ Recording.yieldedOf s.transport.log
  · obtain ⟨i, hi⟩ := hparts.mem_iff.mp hy
    exact .taken i hi fun j hj => hparts.part_unique (yielded_nodup ht) hj hi
  · have hn : ∀ i, r ∉ (handed i).map Prod.fst := fun i hi => hy (hparts.mem_iff.mpr ⟨i, hi⟩)
    by_cases hs : r ∈ s.transport.sent
    · refine .queued ?_ hn
      rw [ht.queue, List.mem_filter, Recording.unyielded_eq_true_iff]
      refine ⟨hs, fun y hym hid => hy ?_⟩
      exact sent_inj ht (yielded_sent ht hym) hr hid ▸ hym
    · exact .cleared hs hn

/-- However the workers' runs, sends and clears interleave, each envelope that was sent is handed
to one worker at most, and settled by it once before it asks for another. -/
theorem pool_serves (h : (machine recode pool).Reach Reporting s) :
    ∃ handed, Served pool s handed := by
  obtain ⟨⟨handed, hinterleaved, hdelivered⟩, hsettled⟩ := reach_shared h
  have htidy := Recording.tidy (reach_transport h)
  have hworker := fun i => Worker.reach_inv (reach_worker h i)
  refine ⟨handed, hinterleaved, hdelivered, fun i => ?_, fun r => placed_of_sent htidy hinterleaved,
    fun i => filed_eq (hworker i).follows, hsettled, fun hidle => ?_⟩
  · have hsub := (hinterleaved.map Prod.fst).sublist i
    rw [yieldsOf_recorded] at hsub
    exact (yielded_nodup htidy).sublist hsub
  · have hnone : ∀ i, inHand (s.workers i).log = none := by
      intro i
      have hp := (hworker i).phase
      rwa [hidle i] at hp
    refine ⟨hnone, ?_⟩
    rw [hsettled.length, hinterleaved.length]
    refine Finset.sum_congr rfl fun i _ => ?_
    have hcount := settlements_length (hworker i).follows (by simp [hnone i])
    rw [hcount, ← hdelivered, List.length_map]

end Sharing

section Samples
attribute [local instance] Unicode.ascii

/-- The second of two workers takes the first message, whose handling fails, while the first
takes the second; both run until the queue is empty. -/
def twoWorkers (first second : Fin n) : List (Action n Unit) :=
  let failing := failingWorld (.exception "ValueError" "no")
  [.send ⟨(), []⟩ "1", .run first, .opened first, .run second, .opened second, .fetched second,
    .send ⟨(), []⟩ "2", .fetched first, .wake first, .wake second, .settle second failing,
    .perform second, .settle first { failing with bus := .ok }, .perform first, .perform first,
    .perform second] ++
  [first, second].flatMap fun i => [.perform i, .fetched i, .wake i, .closed i]

theorem twoWorkers_reporting (first second : Fin n) (s : State n Unit) :
    ∀ a ∈ twoWorkers first second, Reporting s a := by
  have hw : (failingWorld (.exception "ValueError" "no")).Reportable :=
    ⟨fun _ error h => (Except.error.inj h) ▸ ⟨"no", rfl⟩, by simp [failingWorld],
      by simp [failingWorld]⟩
  have hw' : ({ failingWorld (.exception "ValueError" "no") with bus := .ok } :
      World Unit).Reportable := ⟨by simp, hw.received, hw.handled⟩
  simp [twoWorkers, Reporting, hw, hw']

theorem pool_serves_twoWorkers : ∃ s handed,
    (machine (n := 2) none fun _ => {}).run {} (twoWorkers 0 1) = some s ∧
    (settlementsAt s.transport.log).map Prod.fst = [.ack, .reject] ∧
    s.transport.queue.length = 0 ∧ Served (fun _ => {}) s handed := by
  obtain ⟨s, hrun, hsettled, hqueue⟩ : ∃ s,
    (machine (n := 2) none fun _ => {}).run {} (twoWorkers 0 1) = some s ∧
    (settlementsAt s.transport.log).map Prod.fst = [.ack, .reject] ∧
    s.transport.queue.length = 0 := ⟨_, rfl, rfl, rfl⟩
  have hstart : (machine (n := 2) (ω := Unit) none fun _ => {}).Reach Reporting {} := .start rfl
  obtain ⟨handed, hserved⟩ := pool_serves
    (hstart.run (twoWorkers 0 1) (twoWorkers_reporting 0 1) hrun)
  exact ⟨s, handed, hrun, hsettled, hqueue, hserved⟩

end Samples

end XtrMessenger.Worker.Pool
