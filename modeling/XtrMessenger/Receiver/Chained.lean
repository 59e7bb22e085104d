import XtrMessenger.Exceptions
import XtrMessenger.Foundation.Machine
import XtrMessenger.Foundation.History
import Mathlib.Data.List.AList
import Mathlib.Data.List.Sort

/-! `ChainedReceiver` as a machine: the sessions of `get`, one after the other, and the
settlements that may come at any time. A receiver is the place it was given at; the abandoning and
the closing of a session are not cancelled themselves. -/
namespace XtrMessenger
open Foundation

/-- What `ChainedReceiver.__init__` keeps about its `n` receivers. -/
structure ChainedReceiver (n : Nat) where
  names : Option (Vector String n)

namespace ChainedReceiver
variable {n : Nat} {ω : Type}

def create (n : Nat) (names : Option (List String)) : Except (Exc ω) (ChainedReceiver n) :=
  match names with
  | none => .ok ⟨none⟩
  | some names =>
    if h : names.length = n then .ok ⟨some ⟨names.toArray, by simpa using h⟩⟩
    else .error (.exception "ValueError" "ChainedReceiver needs one name per receiver")

/-- How a session of `get` ends. -/
inductive Ending (ω : Type)
  | exhausted
  | closed
  | cancelled
  | raised (error : Exc ω)

/-- Where a session of `get` is suspended. -/
inductive Phase (n : Nat) (ω : Type)
  | idle
  | draining
  | waiting
  /-- At the `yield` of a message fetched, with what is left of the batch it came in. -/
  | yielding (batch : List (Fin n))
  /-- In `_abandon`, gathering the fetches cancelled. -/
  | abandoning (ending : Ending ω)
  | closing (ending : Ending ω)

inductive Settlement
  | ack | reject
  deriving DecidableEq, Repr

inductive Event (n : Nat) (ω : Type)
  | got
  | delivered (position : Fin n) (envelope : Envelope ω)
  | yielded (position : Fin n) (ticket : Int) (collected envelope : Envelope ω)
  | ended (ending : Ending ω)
  /-- A settlement asked for, and the one forwarded to a receiver. -/
  | settled (settlement : Settlement) (envelope : Envelope ω)
      (forwarded : Option (Fin n × Envelope ω))

inductive Action (n : Nat) (ω : Type)
  /-- The first message of a new session is asked for. -/
  | get
  | resume
  | close
  /-- The session is cancelled while it waits. -/
  | cancel
  | fetched (position : Fin n) (fetch : Fetched ω)
  | wake
  | gathered
  | streamsClosed (raised : Option (Exc ω))
  | settle (settlement : Settlement) (envelope : Envelope ω)

structure State (n : Nat) (ω : Type) where
  leftovers : List (Fin n × Envelope ω) := []
  outstanding : AList (fun _ : Int => Fin n × Envelope ω) := ∅
  tickets : Int := 1
  /-- `fetching` of the session in progress: the fetches in the order they were begun, each
  with what it ended with once it did. -/
  fetching : List (Fin n × Option (Fetched ω)) := []
  phase : Phase n ω := .idle
  log : List (Event n ω) := []

/-- What an ended fetch holds until it is yielded or kept. -/
def heldBy : Option (Fetched ω) → Option (Envelope ω)
  | some (.delivered envelope) => some envelope
  | _ => none

/-- The stamps `_ticketed` appends. -/
def tags (chained : ChainedReceiver n) (position : Fin n) (ticket : Int) : List (Stamp ω) :=
  (chained.names.map fun names => .shipped (.received names[position])).toList ++
    [.shipped (.ackReceipt ticket)]

/-- The receipt an envelope is settled by. -/
def ticketOf (envelope : Envelope ω) : Option Int :=
  (envelope.last (.shipped .ackReceipt)).bind Stamp.receipt?

/-- What is forwarded of an envelope handed over: the origin's own receipt counts again. -/
def restored (envelope collected : Envelope ω) : Envelope ω :=
  match collected.last (.shipped .ackReceipt) with
  | none => envelope
  | some receipt => envelope.withStamps [receipt]

namespace State

def note (s : State n ω) (e : Event n ω) : State n ω := { s with log := s.log ++ [e] }

def enter (s : State n ω) (p : Phase n ω) : State n ω := { s with phase := p }

/-- `yield self._ticketed(position, envelope)`. -/
def hand (s : State n ω) (chained : ChainedReceiver n) (position : Fin n)
    (envelope : Envelope ω) (phase : Phase n ω) : State n ω :=
  { s with
    tickets := s.tickets + 1
    outstanding := s.outstanding.insert s.tickets (position, envelope)
    phase := phase
    log := s.log ++ [.yielded position s.tickets envelope
      (envelope.withStamps (chained.tags position s.tickets))] }

/-- Another round of the `while` loop, once a batch is served. -/
def wait (s : State n ω) : State n ω :=
  s.enter (if s.fetching.isEmpty then .abandoning .exhausted else .waiting)

/-- The leftovers first, one at each request; then the streams. -/
def drain (s : State n ω) (chained : ChainedReceiver n) : State n ω :=
  match s.leftovers with
  | (position, envelope) :: leftovers =>
    { s with leftovers := leftovers }.hand chained position envelope .draining
  | [] => { s with fetching := (List.finRange n).map fun position => (position, none) }.wait

/-- `fetching.pop(task)`. -/
def pop (s : State n ω) (position : Fin n) : State n ω :=
  { s with fetching := s.fetching.filter fun fetch => fetch.1 ≠ position }

def outcome (s : State n ω) (position : Fin n) : Option (Fetched ω) :=
  (s.fetching.find? fun fetch => fetch.1 = position).bind fun fetch => fetch.2

/-- The `for` loop over a batch, up to its next `yield`. -/
def serve (chained : ChainedReceiver n) (s : State n ω) : List (Fin n) → State n ω
  | [] => s.wait
  | position :: batch =>
    let popped := s.pop position
    match s.outcome position with
    | some (.delivered envelope) =>
      { popped with fetching := popped.fetching ++ [(position, none)] }.hand chained position
        envelope (.yielding batch)
    | some .exhausted => serve chained popped batch
    | some (.raised error) => popped.enter (.abandoning (.raised error))
    | some .cancelled => popped.enter (.abandoning .cancelled)
    -- a batch holds fetches that have ended
    | none => serve chained s batch

/-- The positions of the fetches that have ended, those given first served first. -/
def done (s : State n ω) : List (Fin n) :=
  (s.fetching.filterMap fun fetch => fetch.2.map fun _ => fetch.1).insertionSort (· ≤ ·)

def finish (s : State n ω) (ending : Ending ω) : State n ω :=
  (s.note (.ended ending)).enter .idle

/-- What the gathered fetches delivered, kept for the next session. -/
def keep (s : State n ω) (ending : Ending ω) : State n ω :=
  { s with
    leftovers := s.leftovers ++ s.fetching.filterMap fun fetch =>
      (heldBy fetch.2).map fun envelope => (fetch.1, envelope)
    fetching := []
    phase := .closing ending }

/-- A fetch ends: only an envelope delivered leaves a trace. -/
def arrive (s : State n ω) (position : Fin n) (fetch : Fetched ω) : State n ω :=
  { s with
    fetching := s.fetching.map fun f => if f.1 = position then (position, some fetch) else f
    log := s.log ++ (heldBy (some fetch)).toList.map fun envelope => .delivered position envelope }

/-- `ack` and `reject`: `_take` removes the ticket, so a second settlement finds nothing. -/
def settle (s : State n ω) (settlement : Settlement) (envelope : Envelope ω) : State n ω :=
  match ticketOf envelope with
  | none => s.note (.settled settlement envelope none)
  | some ticket =>
    { s with
      outstanding := s.outstanding.erase ticket
      log := s.log ++ [.settled settlement envelope ((s.outstanding.lookup ticket).map
        fun origin => (origin.1, restored envelope origin.2))] }

end State

def step (chained : ChainedReceiver n) (s : State n ω) (a : Action n ω) : Option (State n ω) :=
  match s.phase, a with
  | _, .settle settlement envelope => some (s.settle settlement envelope)
  | _, .fetched position fetch =>
    if s.fetching.any fun f => f.1 = position && f.2.isNone then some (s.arrive position fetch)
    else none
  | .idle, .get => some ((s.note .got).drain chained)
  | .draining, .resume => some (s.drain chained)
  | .draining, .close => some (s.finish .closed)
  | .waiting, .wake => if s.done.isEmpty then none else some (s.serve chained s.done)
  | .waiting, .cancel => some (s.enter (.abandoning .cancelled))
  | .yielding batch, .resume => some (s.serve chained batch)
  | .yielding _, .close => some (s.enter (.abandoning .closed))
  | .abandoning ending, .gathered =>
    if s.fetching.all fun f => f.2.isSome then some (s.keep ending) else none
  | .closing ending, .streamsClosed raised =>
    some (s.finish ((raised.map .raised).getD ending))
  | _, _ => none

/-- What a step can do, one constructor for each way it can go. -/
inductive Steps (chained : ChainedReceiver n) (s : State n ω) : Action n ω → State n ω → Prop
  | settle (k : Settlement) (e : Envelope ω) : Steps chained s (.settle k e) (s.settle k e)
  | fetched (p : Fin n) (fetch : Fetched ω) (h : (p, none) ∈ s.fetching) :
    Steps chained s (.fetched p fetch) (s.arrive p fetch)
  | got (h : s.phase = .idle) : Steps chained s .get ((s.note .got).drain chained)
  | drain (h : s.phase = .draining) : Steps chained s .resume (s.drain chained)
  | drainClosed (h : s.phase = .draining) : Steps chained s .close (s.finish .closed)
  | woken (h : s.phase = .waiting) : Steps chained s .wake (s.serve chained s.done)
  | cancelled (h : s.phase = .waiting) :
    Steps chained s .cancel (s.enter (.abandoning .cancelled))
  | serve (batch : List (Fin n)) (h : s.phase = .yielding batch) :
    Steps chained s .resume (s.serve chained batch)
  | serveClosed (batch : List (Fin n)) (h : s.phase = .yielding batch) :
    Steps chained s .close (s.enter (.abandoning .closed))
  | gathered (ending : Ending ω) (h : s.phase = .abandoning ending)
    (hd : ∀ f ∈ s.fetching, f.2 ≠ none) : Steps chained s .gathered (s.keep ending)
  | ended (ending : Ending ω) (h : s.phase = .closing ending) (raised : Option (Exc ω)) :
    Steps chained s (.streamsClosed raised) (s.finish ((raised.map .raised).getD ending))

theorem steps_of_step {chained : ChainedReceiver n} {s t : State n ω} {a : Action n ω}
    (h : chained.step s a = some t) : Steps chained s a t := by
  unfold step at h
  split at h
  · obtain rfl := Option.some.inj h
    exact .settle _ _
  · split_ifs at h with hp
    obtain rfl := Option.some.inj h
    refine .fetched _ _ ?_
    obtain ⟨⟨q, o⟩, hm, hq⟩ := List.any_eq_true.mp hp
    simp only [Bool.and_eq_true, decide_eq_true_eq, Option.isNone_iff_eq_none] at hq
    obtain ⟨rfl, rfl⟩ := hq
    exact hm
  · obtain rfl := Option.some.inj h
    exact .got ‹_›
  · obtain rfl := Option.some.inj h
    exact .drain ‹_›
  · obtain rfl := Option.some.inj h
    exact .drainClosed ‹_›
  · split_ifs at h
    obtain rfl := Option.some.inj h
    exact .woken ‹_›
  · obtain rfl := Option.some.inj h
    exact .cancelled ‹_›
  · obtain rfl := Option.some.inj h
    exact .serve _ ‹_›
  · obtain rfl := Option.some.inj h
    exact .serveClosed _ ‹_›
  · split_ifs at h with hd
    obtain rfl := Option.some.inj h
    exact .gathered _ ‹_› (by simpa [Option.isSome_iff_ne_none] using hd)
  · obtain rfl := Option.some.inj h
    exact .ended _ ‹_› _
  · simp at h

/-- A receiver as it was built, and everything that may happen to it. -/
def machine (ω : Type) (chained : ChainedReceiver n) : Machine (State n ω) (Action n ω) where
  init s := s = {}
  step := chained.step

end ChainedReceiver
end XtrMessenger
