import XtrMessenger.Worker.Ledger
import XtrMessenger.Receiver.Sessions
import XtrMessenger.Bus.Receipts

/-! A worker at a `ChainedReceiver`: its fetch runs the session of `get`, its settlements go
through the tickets. -/
namespace XtrMessenger.Worker.Several
open Foundation
variable {n : Nat} {ω : Type}

/-- Where the generator stands that a run was given. -/
inductive Stream
  /-- It was not begun. -/
  | fresh
  /-- The worker's fetch runs in it. -/
  | running
  /-- It is suspended at a `yield` whose message the worker has. -/
  | suspended
  /-- `close_stream` runs in it. -/
  | closing
  /-- It returned or raised. -/
  | over
  deriving DecidableEq, Repr

inductive Action (n : Nat) (ω : Type)
  | run
  | stop
  | announced (raised : Option (Exc ω))
  | opened
  /-- The fetch begins to run. -/
  | asked
  /-- The fetch ends. -/
  | answered
  /-- The fetch was cancelled before it ran. -/
  | unasked
  /-- The fetch is cancelled while it waits. -/
  | interrupted
  | wake
  | settle (world : World ω)
  | perform
  /-- `close_stream` begins. -/
  | closing
  | closed
  /-- What happens within the session: a receiver's fetch ends, `asyncio.wait` returns. -/
  | fetched (position : Fin n) (fetch : Fetched ω)
  | woken
  | gathered
  | streamsClosed (raised : Option (Exc ω))

structure State (n : Nat) (ω : Type) where
  worker : Worker.State ω := {}
  receiver : ChainedReceiver.State n ω := {}
  stream : Stream := .over

/-- What `anext(collected, None)` makes of the end of a session. -/
def fetchOf : ChainedReceiver.Ending ω → Fetched ω
  | .exhausted | .closed => .exhausted
  | .cancelled => .cancelled
  | .raised error => .raised error

/-- What `aclose` raises. -/
def raisedOf : ChainedReceiver.Ending ω → Option (Exc ω)
  | .raised error => some error
  | _ => none

/-- What the worker's next call asks of the receiver. -/
def asking : Phase ω → Option (ChainedReceiver.Settlement × Envelope ω)
  | .settling (c :: _) _ => c.settlement?
  | _ => none

section Step
variable (worker : Worker) (chained : ChainedReceiver n)

def State.work (s : State n ω) (a : Worker.Action ω) : Option (State n ω) :=
  (worker.step s.worker a).map fun w => { s with worker := w }

def State.receive (s : State n ω) (a : ChainedReceiver.Action n ω) : Option (State n ω) :=
  (chained.step s.receiver a).map fun r => { s with receiver := r }

def State.enter (s : State n ω) (stream : Stream) : State n ω := { s with stream }

/-- How the last session ended. -/
def State.ending (s : State n ω) : Option (ChainedReceiver.Ending ω) :=
  s.receiver.log.getLast?.bind ChainedReceiver.Event.ending?

def step (s : State n ω) : Action n ω → Option (State n ω)
  | .run => s.work worker .run
  | .stop => s.work worker .stop
  | .announced raised => s.work worker (.announced raised)
  | .opened => (s.enter .fresh).work worker (.opened none)
  | .asked =>
    match s.worker.phase, s.stream with
    | .waiting none, .fresh => (s.enter .running).receive chained .get
    | .waiting none, .suspended => (s.enter .running).receive chained .resume
    | .waiting none, .over => s.work worker (.fetched .exhausted)
    | _, _ => none
  | .answered =>
    if s.stream ≠ .running then none
    else if s.receiver.phase.AtYield then do
      let envelope ← (ChainedReceiver.handedOut s.receiver.log).getLast?
      (s.enter .suspended).work worker (.fetched (.delivered envelope))
    else do
      let .idle := s.receiver.phase | none
      let ending ← s.ending
      (s.enter .over).work worker (.fetched (fetchOf ending))
  | .unasked =>
    match s.worker.phase with
    | .cancelling => if s.stream = .running then none else s.work worker (.fetched .cancelled)
    | _ => none
  | .interrupted =>
    match s.worker.phase with
    | .cancelling => if s.stream = .running then s.receive chained .cancel else none
    | _ => none
  | .wake => s.work worker .wake
  | .settle world => s.work worker (.settle world)
  | .perform => do
    let s ← (asking s.worker.phase).elim (some s) fun asked =>
      s.receive chained (.settle asked.1 asked.2)
    s.work worker .perform
  | .closing =>
    match s.worker.phase, s.stream with
    | .closing _, .suspended => (s.enter .closing).receive chained .close
    | _, _ => none
  | .closed =>
    match s.stream, s.receiver.phase with
    | .fresh, _ | .over, _ => (s.enter .over).work worker (.closed none)
    | .closing, .idle => do
      let ending ← s.ending
      (s.enter .over).work worker (.closed (raisedOf ending))
    | _, _ => none
  | .fetched position fetch => s.receive chained (.fetched position fetch)
  | .woken => s.receive chained .wake
  | .gathered => s.receive chained .gathered
  | .streamsClosed raised => s.receive chained (.streamsClosed raised)

/-- A worker and a receiver that were just built. -/
def machine (ω : Type) : Machine (State n ω) (Action n ω) where
  init s := s = {}
  step := step worker chained

end Step

/-- The bus and the listeners leave the receipt alone that a message is settled by. -/
structure KeepsReceipt (world : World ω) : Prop where
  bus : ∀ e answer, world.bus e = .ok answer →
    answer.last (.shipped .ackReceipt) = e.last (.shipped .ackReceipt)
  listeners : world.listeners.AddOnly Bus.noReceipt

/-- A worker starts settling only a message that keeps its receipt, and whose failure, if it
fails, can be reported. -/
def WorkerKeeping (_ : Worker.State ω) : Worker.Action ω → Prop
  | .settle world => world.Reportable ∧ KeepsReceipt world
  | _ => True

def Keeping (_ : State n ω) : Action n ω → Prop
  | .settle world => world.Reportable ∧ KeepsReceipt world
  | _ => True

section Receipt
variable {worker : Worker} {s t : Worker.State ω}

/-- What is still to be settled has the receipt it was collected with. -/
def Kept (s : Worker.State ω) : Prop :=
  ∀ todo result, s.phase = .settling todo result → ∀ e calls, inHand s.log = some (e, calls) →
    ∀ c ∈ todo, ∀ k x, c.settlement? = some (k, x) →
      ChainedReceiver.ticketOf x = ChainedReceiver.ticketOf e

theorem settled?_of_settlement? {c : Call ω} {k : ChainedReceiver.Settlement} {x : Envelope ω}
    (h : c.settlement? = some (k, x)) : c.settled? = some x := by
  cases c with
  | ack e raised => exact congrArg (Option.map Prod.snd) h
  | reject e raised => exact congrArg (Option.map Prod.snd) h
  | _ => cases h

theorem settle_kept {world : World ω} (hw : KeepsReceipt world) (e : Envelope ω) :
    ∀ c ∈ (worker.settle world e).calls, ∀ k x, c.settlement? = some (k, x) →
      ChainedReceiver.ticketOf x = ChainedReceiver.ticketOf e := by
  intro c hc k x hx
  have stable := @Bus.stable_last ω .ackReceipt (by decide) (e.last (.shipped .ackReceipt))
  have hlast := Bus.settle_keeps stable worker world hw.listeners
    (fun e answer he ha => (hw.bus e answer ha).trans he) (fun _ _ => rfl) (fun _ => rfl) rfl c hc x
    (settled?_of_settlement? hx)
  rw [ChainedReceiver.ticketOf, hlast]
  rfl

theorem kept_of_phase (h : ∀ todo result, t.phase ≠ .settling todo result) : Kept t :=
  fun todo result hph => absurd hph (h todo result)

theorem collect_phase (s : Worker.State ω) (todo : List (Call ω)) (result : Except (Exc ω) Unit) :
    s.collect.phase ≠ .settling todo result := by
  unfold State.collect
  split_ifs <;> simp [Worker.State.leave, Worker.State.enter]

theorem take_phase (s : Worker.State ω) (fetch : Fetched ω) (todo : List (Call ω))
    (result : Except (Exc ω) Unit) : (s.take fetch).phase ≠ .settling todo result := by
  cases fetch <;> simp [Worker.State.take, Worker.State.leave, Worker.State.enter]

theorem start_phase (s : Worker.State ω) (todo : List (Call ω)) (result : Except (Exc ω) Unit) :
    (s.start worker).phase ≠ .settling todo result := by
  unfold Worker.State.start
  cases worker.hasDispatcher <;> simp

theorem step_kept {a : Worker.Action ω} (hi : Worker.Inv worker s) (hk : Kept s)
    (ha : WorkerKeeping s a) (h : Steps worker s a t) : Kept t := by
  have hp := hi.phase
  cases h with
  | stop =>
    intro todo result hph e calls hhand
    rw [State.phase_stop] at hph
    rw [State.log_stop] at hhand
    exact hk todo result hph e calls ((inHand_concat _ _).symm.trans hhand)
  | settle e hph world =>
    rw [hph] at hp
    intro todo result hsettling e' calls hhand
    obtain ⟨rfl, -⟩ : e = e' ∧ [] = calls := by
      simpa using (show inHand s.log = some (e, []) from hp).symm.trans hhand
    obtain ⟨rfl, -⟩ := Phase.settling.inj hsettling
    exact settle_kept ha.2 e
  | perform c todo result hph =>
    rw [hph] at hp
    obtain ⟨e, made, world, -, hhand, -⟩ := hp
    intro todo' result' hsettling e' calls hhand'
    obtain ⟨rfl, -⟩ := Phase.settling.inj hsettling
    have hgrown : inHand (s.note (.call c)).log = some (e, made ++ [c]) := by
      rw [State.note, inHand_concat, hhand]
      rfl
    obtain ⟨rfl, -⟩ : e = e' ∧ made ++ [c] = calls := by simpa using hgrown.symm.trans hhand'
    intro c' hc'
    exact hk _ result hph e made hhand c' (List.mem_cons_of_mem _ hc')
  | run hph => exact kept_of_phase (start_phase _)
  | opened hph => exact kept_of_phase (collect_phase _)
  | woken fetch hph => exact kept_of_phase (take_phase _ fetch)
  | gathered hph fetch => exact kept_of_phase (take_phase _ fetch)
  | settledUnheard hph hd => exact kept_of_phase (collect_phase _)
  | ran hph => exact kept_of_phase (collect_phase _)
  | _ => exact kept_of_phase fun _ _ hph => by cases hph

end Receipt

section Standing
variable {worker : Worker} {chained : ChainedReceiver n} {s t : State n ω} {a : Action n ω}

/-- Where the generator stands as far as the worker knows, and where it does. -/
def Standing : Stream → ChainedReceiver.Phase n ω → Prop
  | .fresh, phase | .over, phase => phase = .idle
  | .running, _ => True
  | .suspended, phase => phase.AtYield
  | .closing, phase => phase = .idle ∨ (∃ ending, phase = .abandoning ending) ∨
      ∃ ending, phase = .closing ending

/-- Where a run has no generator: before `get`, and once it is closed. -/
def Resting : Phase ω → Prop
  | .idle | .starting | .opening | .stopping _ => True
  | _ => False

structure Stands (s : State n ω) : Prop where
  fetch : s.stream = .running → s.worker.phase = .waiting none ∨ s.worker.phase = .cancelling
  resting : Resting s.worker.phase → s.stream = .over
  session : Standing s.stream s.receiver.phase

theorem work_eq {b : Worker.Action ω} (h : s.work worker b = some t) :
    ∃ w, Steps worker s.worker b w ∧ t = { s with worker := w } := by
  obtain ⟨w, hw, rfl⟩ := Option.map_eq_some_iff.mp h
  exact ⟨w, steps_of_step hw, rfl⟩

theorem receive_eq {b : ChainedReceiver.Action n ω} (h : s.receive chained b = some t) :
    ∃ r, chained.step s.receiver b = some r ∧ t = { s with receiver := r } := by
  obtain ⟨r, hr, rfl⟩ := Option.map_eq_some_iff.mp h
  exact ⟨r, hr, rfl⟩

/-- While the fetch runs, the worker only waits for it. -/
theorem waits_on {b : Worker.Action ω} {w w' : Worker.State ω} (h : Steps worker w b w')
    (hw : w.phase = .waiting none ∨ w.phase = .cancelling) (hb : ∀ fetch, b ≠ .fetched fetch) :
    w'.phase = .waiting none ∨ w'.phase = .cancelling := by
  cases h with
  | stop => rwa [State.phase_stop]
  | halted hph hs => exact .inr rfl
  | fetched hph fetch => exact absurd rfl (hb fetch)
  | gathered hph fetch => exact absurd rfl (hb fetch)
  | _ => simp_all

theorem collect_away (w : Worker.State ω) : ¬Resting w.collect.phase := by
  unfold Worker.State.collect
  split_ifs <;> exact id

/-- Only closing the generator brings a run to where it has none. -/
theorem rests_on {b : Worker.Action ω} {w w' : Worker.State ω} (h : Steps worker w b w')
    (hb : ∀ raised, b ≠ .closed raised) (hr : Resting w'.phase) : Resting w.phase := by
  have htake : ∀ (w : Worker.State ω) fetch, ¬Resting (w.take fetch).phase := by
    intro w fetch
    cases fetch <;> exact id
  cases h with
  | stop => rwa [State.phase_stop] at hr
  | run hph => simp [hph, Resting]
  | started hph => simp [hph, Resting]
  | startFailed hph e => simp [hph, Resting]
  | opened hph => simp [hph, Resting]
  | openFailed hph e => simp [hph, Resting]
  | stopped raised hph raised' => simp [hph, Resting]
  | woken fetch hph => exact absurd hr (htake _ _)
  | gathered hph fetch => exact absurd hr (htake _ _)
  | settledUnheard hph hd => exact absurd hr (collect_away _)
  | ran hph => exact absurd hr (collect_away _)
  | closed raised hph hd => exact absurd rfl (hb none)
  | closedUnheard raised hph hd => exact absurd rfl (hb none)
  | closeFailed raised hph e => exact absurd rfl (hb (some e))
  | _ => exact hr.elim

/-- What happens to a session without its generator being run on, cancelled or closed. -/
def Internal : ChainedReceiver.Action n ω → Prop
  | .fetched _ _ | .gathered | .streamsClosed _ | .settle _ _ => True
  | _ => False

/-- The session goes on by itself as the worker knows it to. -/
theorem standing_of_steps {b : ChainedReceiver.Action n ω} {r r' : ChainedReceiver.State n ω}
    {stream : Stream} (h : ChainedReceiver.Steps chained r b r') (hb : Internal b)
    (hs : Standing stream r.phase) :
    Standing stream r'.phase ∧ (r'.phase.AtYield ↔ r.phase.AtYield) := by
  cases h with
  | settle k e =>
    have hph : (r.settle k e).phase = r.phase := by
      unfold ChainedReceiver.State.settle
      split <;> rfl
    rw [hph]
    exact ⟨hs, .rfl⟩
  | fetched p fetch hm => exact ⟨hs, .rfl⟩
  | gathered ending hph hd =>
    rw [hph] at hs ⊢
    refine ⟨?_, .rfl⟩
    cases stream with
    | running => trivial
    | closing => exact .inr (.inr ⟨ending, rfl⟩)
    | suspended => exact hs.elim
    | _ => cases hs
  | ended ending hph raised =>
    rw [hph] at hs ⊢
    refine ⟨?_, .rfl⟩
    cases stream with
    | running => trivial
    | closing => exact .inl rfl
    | suspended => exact hs.elim
    | _ => cases hs
  | _ => exact hb.elim

/-- A message was handed out that the worker does not have yet. -/
def State.Late (s : State n ω) : Prop := s.stream = .running ∧ s.receiver.phase.AtYield

instance (s : State n ω) : Decidable s.Late := inferInstanceAs (Decidable (_ ∧ _))

/-- What a step comes to. -/
inductive Moves (worker : Worker) (chained : ChainedReceiver n) (s : State n ω)
    (a : Action n ω) : State n ω → Prop
  /-- The worker goes on without the receiver. -/
  | alone (b : Worker.Action ω) (w : Worker.State ω) (stream : Stream)
    (h : Steps worker s.worker b w) (hd : b.delivers = []) (hs : settles s.worker b = [])
    (hok : Keeping s a → WorkerKeeping s.worker b)
    (hlate : State.Late { s with worker := w, stream } ↔ s.Late) :
    Moves worker chained s a { s with worker := w, stream }
  /-- The session goes on without the worker. -/
  | quiet (b : ChainedReceiver.Action n ω) (r : ChainedReceiver.State n ω) (stream : Stream)
    (h : chained.step s.receiver b = some r) (hq : ChainedReceiver.Quiet s.receiver r)
    (hlate : State.Late { s with receiver := r, stream } ↔ s.Late) :
    Moves worker chained s a { s with receiver := r, stream }
  /-- The generator is run on for a worker that waits. -/
  | turned (b : ChainedReceiver.Action n ω) (r : ChainedReceiver.State n ω)
    (h : chained.step s.receiver b = some r) (ht : ChainedReceiver.Turned s.receiver r)
    (hw : s.worker.phase = .waiting none ∨ s.worker.phase = .cancelling) (hlate : ¬s.Late) :
    Moves worker chained s a { s with receiver := r, stream := .running }
  | answered (e : Envelope ω) (w : Worker.State ω)
    (he : (ChainedReceiver.handedOut s.receiver.log).getLast? = some e) (hlate : s.Late)
    (h : Steps worker s.worker (.fetched (.delivered e)) w) :
    Moves worker chained s a { s with worker := w, stream := .suspended }
  | performed (c : Call ω) (todo : List (Call ω)) (result : Except (Exc ω) Unit)
    (k : ChainedReceiver.Settlement) (e : Envelope ω) (r : ChainedReceiver.State n ω)
    (w : Worker.State ω) (hph : s.worker.phase = .settling (c :: todo) result)
    (hc : c.settlement? = some (k, e)) (hr : chained.step s.receiver (.settle k e) = some r)
    (h : Steps worker s.worker .perform w) :
    Moves worker chained s a { s with worker := w, receiver := r }

theorem moves_work (hi : Stands s) {b : Worker.Action ω} (h : s.work worker b = some t)
    (hb : ∀ fetch, b ≠ .fetched fetch) (hc : ∀ raised, b ≠ .closed raised)
    (hs : settles s.worker b = []) (hok : Keeping s a → WorkerKeeping s.worker b) :
    Stands t ∧ Moves worker chained s a t := by
  obtain ⟨w, hw, rfl⟩ := work_eq h
  have hd : b.delivers = [] := by
    cases b with
    | fetched fetch => exact absurd rfl (hb fetch)
    | _ => rfl
  exact ⟨⟨fun hrun => waits_on hw (hi.fetch hrun) hb, fun hr => hi.resting (rests_on hw hc hr),
    hi.session⟩, .alone b w s.stream hw hd hs hok .rfl⟩

theorem moves_internal (hi : Stands s) {b : ChainedReceiver.Action n ω}
    (h : s.receive chained b = some t) (hb : Internal b) (hs : ∀ k e, b ≠ .settle k e) :
    Stands t ∧ Moves worker chained s a t := by
  obtain ⟨r, hr, rfl⟩ := receive_eq h
  have hsteps := ChainedReceiver.steps_of_step hr
  obtain ⟨hstanding, hyield⟩ := standing_of_steps hsteps hb hi.session
  have hquiet : ChainedReceiver.Quiet s.receiver r :=
    ChainedReceiver.quiet_of_steps hsteps hs (by rintro rfl; exact hb) (by rintro rfl; exact hb)
      (by rintro rfl; exact hb)
  exact ⟨⟨hi.fetch, hi.resting, hstanding⟩,
    .quiet b r s.stream hr hquiet (and_congr_right fun _ => hyield)⟩

/-- The generator is run on for the worker's fetch. -/
theorem moves_turned {b : ChainedReceiver.Action n ω}
    (h : (s.enter .running).receive chained b = some t)
    (hb : b = .get ∨ b = .resume ∨ b = .wake)
    (hw : s.worker.phase = .waiting none ∨ s.worker.phase = .cancelling) (hlate : ¬s.Late) :
    Stands t ∧ Moves worker chained s a t := by
  obtain ⟨r, hr, rfl⟩ := receive_eq h
  have hturned := ChainedReceiver.turned_of_steps (ChainedReceiver.steps_of_step hr) hb
  refine ⟨⟨fun _ => hw, fun hr => ?_, trivial⟩, .turned b r hr hturned hw hlate⟩
  rcases hw with hw | hw
  · exact (hw ▸ hr : Resting (.waiting none)).elim
  · exact (hw ▸ hr : Resting .cancelling).elim

/-- The worker goes on, its generator at rest where it was or newly given. -/
theorem moves_apart {stream : Stream} {b : Worker.Action ω}
    (h : (s.enter stream).work worker b = some t) (hs : s.stream ≠ .running ∨ ¬s.Late)
    (hstream : stream ≠ .running) (hstanding : Standing stream s.receiver.phase)
    (hrest : Resting t.worker.phase → stream = .over) (hd : b.delivers = [])
    (hsettles : settles s.worker b = [])
    (hok : Keeping s a → WorkerKeeping s.worker b) : Stands t ∧ Moves worker chained s a t := by
  obtain ⟨w, hw, rfl⟩ := work_eq h
  have hbefore : ¬s.Late := fun hl => hs.elim (fun hne => hne hl.1) fun hn => hn hl
  have hafter : ¬State.Late { s with worker := w, stream } := fun hl => hstream hl.1
  exact ⟨⟨fun hrun => absurd hrun hstream, hrest, hstanding⟩,
    .alone b w stream hw hd hsettles hok (iff_of_false hafter hbefore)⟩

theorem settles_unasked {w : Worker.State ω} (h : asking w.phase = none) :
    settles w .perform = [] := by
  cases hp : w.phase with
  | settling todo result =>
    cases todo with
    | nil => exact settles_nil hp
    | cons c todo =>
      have hnone : c.settlement? = none := by
        rw [hp] at h
        exact h
      unfold settles
      rw [hp]
      simp [hnone]
  | _ =>
    unfold settles
    rw [hp]

theorem step_moves (hi : Stands s) (h : step worker chained s a = some t) :
    Stands t ∧ Moves worker chained s a t := by
  have hlate : s.stream ≠ .running → ¬s.Late := fun hne hl => hne hl.1
  cases a with
  | run => exact moves_work hi h (by simp) (by simp) rfl fun _ => trivial
  | stop => exact moves_work hi h (by simp) (by simp) rfl fun _ => trivial
  | announced raised => exact moves_work hi h (by simp) (by simp) rfl fun _ => trivial
  | wake => exact moves_work hi h (by simp) (by simp) rfl fun _ => trivial
  | settle world => exact moves_work hi h (by simp) (by simp) rfl id
  | fetched position fetch => exact moves_internal hi h trivial (by simp)
  | gathered => exact moves_internal hi h trivial (by simp)
  | streamsClosed raised => exact moves_internal hi h trivial (by simp)
  | opened =>
    have hwork : (s.enter .fresh).work worker (.opened none) = some t := h
    obtain ⟨w, hw, rfl⟩ := work_eq hwork
    cases hw with
    | opened hph =>
      have hopening : s.worker.phase = .opening := hph
      have hover : s.stream = .over := hi.resting (by simp [hopening, Resting])
      have hsession := hi.session
      rw [hover] at hsession
      exact moves_apart hwork (.inl (by simp [hover])) (by simp) hsession
        (fun hr => absurd hr (collect_away _)) rfl rfl fun _ => trivial
  | woken =>
    obtain ⟨r, hr, rfl⟩ := receive_eq h
    have hsteps := ChainedReceiver.steps_of_step hr
    have hwaiting : s.receiver.phase = .waiting := by
      cases hsteps
      assumption
    have hrunning : s.stream = .running := by
      have hsession := hi.session
      rw [hwaiting] at hsession
      cases hs : s.stream with
      | running => rfl
      | suspended => simp [hs, Standing, ChainedReceiver.Phase.AtYield] at hsession
      | _ => simp [hs, Standing] at hsession
    have hnot : ¬s.Late := by
      rintro ⟨-, hyield⟩
      rw [hwaiting] at hyield
      exact hyield
    have hsame : (s.enter .running).receive chained .wake =
        some { s with receiver := r, stream := .running } := by
      simp [State.receive, State.enter, hr]
    have hmoves : Stands _ ∧ Moves worker chained s .woken _ :=
      moves_turned hsame (by simp) (hi.fetch hrunning) hnot
    rw [← hrunning] at hmoves
    exact hmoves
  | asked =>
    simp only [step] at h
    split at h
    · rename_i hph hs
      exact moves_turned h (by simp) (.inl hph) (hlate (by simp [hs]))
    · rename_i hph hs
      exact moves_turned h (by simp) (.inl hph) (hlate (by simp [hs]))
    · rename_i hph hs
      have hsession := hi.session
      rw [hs] at hsession
      obtain ⟨w, hw, rfl⟩ := work_eq h
      have hsame : (s.enter .over).work worker (.fetched .exhausted) =
          some { s with worker := w } := by
        rw [← h, ← hs]
        rfl
      exact moves_apart hsame (.inl (by simp [hs])) (by simp) hsession (fun _ => rfl) rfl rfl
        fun _ => trivial
    · cases h
  | answered =>
    have hfetch : ∀ {fetch w}, Steps worker s.worker (.fetched fetch) w → s.stream = .running →
        ¬Resting w.phase := by
      intro fetch w hw hrunning hr
      have hrest := rests_on hw (by simp) hr
      rcases hi.fetch hrunning with hph | hph <;> rw [hph] at hrest <;> exact hrest
    simp only [step] at h
    split_ifs at h with hstream hyield
    · have hrunning : s.stream = .running := not_not.mp hstream
      obtain ⟨e, he, hwork⟩ := Option.bind_eq_some_iff.mp h
      obtain ⟨w, hw, rfl⟩ := work_eq hwork
      refine ⟨⟨by simp [State.enter], fun hr => absurd hr (hfetch hw hrunning), hyield⟩, ?_⟩
      exact .answered e w he ⟨hrunning, hyield⟩ hw
    · have hrunning : s.stream = .running := not_not.mp hstream
      split at h
      · rename_i hidle
        obtain ⟨ending, -, hwork⟩ := Option.bind_eq_some_iff.mp h
        obtain ⟨w, hw, rfl⟩ := work_eq hwork
        refine moves_apart hwork (.inr fun hl => hyield hl.2) (by simp) hidle
          (fun hr => absurd hr (hfetch hw hrunning)) ?_ rfl fun _ => trivial
        cases ending <;> rfl
      · cases h
  | unasked =>
    simp only [step] at h
    split at h
    · split_ifs at h with hrunning
      have hsame : (s.enter s.stream).work worker (.fetched .cancelled) = some t := h
      obtain ⟨w, hw, rfl⟩ := work_eq h
      exact moves_apart hsame (.inl hrunning) hrunning hi.session
        (fun hr => hi.resting (rests_on hw (by simp) hr)) rfl rfl fun _ => trivial
    · cases h
  | interrupted =>
    simp only [step] at h
    split at h
    · split_ifs at h with hrunning
      obtain ⟨r, hr, rfl⟩ := receive_eq h
      have hsteps := ChainedReceiver.steps_of_step hr
      have hquiet := ChainedReceiver.quiet_of_steps hsteps (by simp) (by simp) (by simp) (by simp)
      cases hsteps with
      | cancelled hph =>
        refine ⟨⟨hi.fetch, hi.resting, by rw [hrunning]; trivial⟩,
          .quiet .cancel _ s.stream hr hquiet (and_congr_right fun _ => ?_)⟩
        rw [hph]
        exact .rfl
    · cases h
  | perform =>
    simp only [step, Option.bind_eq_bind, Option.bind_eq_some_iff] at h
    obtain ⟨u, hu, hwork⟩ := h
    cases hasking : asking s.worker.phase with
    | none =>
      rw [hasking] at hu
      obtain rfl : s = u := Option.some.inj hu
      exact moves_work hi hwork (by simp) (by simp) (settles_unasked hasking) fun _ => trivial
    | some asked =>
      rw [hasking] at hu
      obtain ⟨r, hr, rfl⟩ := receive_eq hu
      obtain ⟨w, hw, rfl⟩ := work_eq hwork
      unfold asking at hasking
      split at hasking
      · rename_i c todo result hph
        obtain ⟨k, e⟩ := asked
        obtain ⟨hstanding, -⟩ := standing_of_steps (ChainedReceiver.steps_of_step hr) trivial
          hi.session
        refine ⟨⟨fun hrun => waits_on hw (hi.fetch hrun) (by simp), fun hrest => ?_, hstanding⟩, ?_⟩
        · exact hi.resting (rests_on hw (by simp) hrest)
        · exact .performed c todo result k e r w hph hasking hr hw
      · cases hasking
  | closing =>
    simp only [step] at h
    split at h
    · rename_i raised hph hs
      obtain ⟨r, hr, rfl⟩ := receive_eq h
      have hsteps := ChainedReceiver.steps_of_step hr
      have hquiet := ChainedReceiver.quiet_of_steps hsteps (by simp) (by simp) (by simp) (by simp)
      have hnot : ¬State.Late { s with receiver := r, stream := .closing } := by
        rintro ⟨hrun, -⟩
        cases hrun
      have hclosing : Standing .closing r.phase := by
        cases hsteps with
        | drainClosed hph => exact .inl rfl
        | serveClosed batch hph => exact .inr (.inl ⟨.closed, rfl⟩)
      refine ⟨⟨by simp [State.enter], fun hr => ?_, hclosing⟩, .quiet .close r .closing hr hquiet
        (iff_of_false hnot (hlate (by simp [hs])))⟩
      exact (hph ▸ hr : Resting (.closing raised)).elim
    · cases h
  | closed =>
    simp only [step] at h
    split at h
    · rename_i hs
      have hsession := hi.session
      rw [hs] at hsession
      exact moves_apart h (.inl (by simp [hs])) (by simp) hsession (fun _ => rfl) rfl rfl
        fun _ => trivial
    · rename_i hs
      have hsession := hi.session
      rw [hs] at hsession
      exact moves_apart h (.inl (by simp [hs])) (by simp) hsession (fun _ => rfl) rfl rfl
        fun _ => trivial
    · rename_i hs hidle
      obtain ⟨ending, -, hwork⟩ := Option.bind_eq_some_iff.mp h
      exact moves_apart hwork (.inl (by simp [hs])) (by simp) hidle (fun _ => rfl) rfl rfl
        fun _ => trivial
    · cases h

end Standing

end XtrMessenger.Worker.Several
