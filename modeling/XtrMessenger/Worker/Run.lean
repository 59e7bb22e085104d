import XtrMessenger.Worker.Settlement
import XtrMessenger.Foundation.Machine
import XtrMessenger.Foundation.History

/-! `Worker.run` and `Worker.stop` as a machine: one phase for every await of the loop,
one action for everything the surroundings may do there. A `stop` can come in any phase. -/
namespace XtrMessenger.Worker
open Foundation
variable {ω : Type}

/-- Where `run` is suspended. -/
inductive Phase (ω : Type)
  | idle
  | starting
  | opening
  /-- In `asyncio.wait((fetch, halt))`, with what the fetch ended with once it did. -/
  | waiting (fetch : Option (Fetched ω))
  /-- Stopped first: the fetch was cancelled and is gathered. -/
  | cancelling
  | collected (envelope : Envelope ω)
  /-- In `_settle`: the calls still to be made, and how it will end. -/
  | settling (todo : List (Call ω)) (result : Except (Exc ω) Unit)
  | running
  /-- In the `finally` block, with what is being raised, if anything is. -/
  | closing (raised : Option (Exc ω))
  | stopping (raised : Option (Exc ω))

inductive WorkerEvent
  | started | running | stopped
  deriving DecidableEq, Repr

inductive Event (ω : Type)
  | runs
  | stop
  | announced (event : WorkerEvent) (raised : Option (Exc ω))
  | opened (raised : Option (Exc ω))
  | requested
  | delivered (envelope : Envelope ω)
  | call (call : Call ω)
  | closed (raised : Option (Exc ω))
  | ended (raised : Option (Exc ω))

inductive Action (ω : Type)
  | run
  | stop
  | announced (raised : Option (Exc ω))
  | opened (raised : Option (Exc ω))
  | fetched (fetch : Fetched ω)
  /-- `asyncio.wait` returns: the fetch ended, or the stop was seen. -/
  | wake
  /-- `_settle` begins, in a world that gives these answers. -/
  | settle (world : World ω)
  | perform
  | closed (raised : Option (Exc ω))

structure State (ω : Type) where
  stopRequested : Bool := false
  /-- `_stopped`: the event of the run it was last set for, with whether it is set. -/
  stopped : Option Bool := none
  phase : Phase ω := .idle
  log : List (Event ω) := []

namespace State

def note (s : State ω) (e : Event ω) : State ω := { s with log := s.log ++ [e] }

def enter (s : State ω) (p : Phase ω) : State ω := { s with phase := p }

def stop (s : State ω) : State ω :=
  match s.stopped with
  | some _ => { s with stopped := some true }
  | none => { s with stopRequested := true }

/-- `run()` up to its first await: a stop asked before it is spent on this run. -/
def start (worker : Worker) (s : State ω) : State ω :=
  { s with
    stopRequested := false
    stopped := some s.stopRequested
    phase := if worker.hasDispatcher then .starting else .opening }

/-- Into the `finally` block. -/
def leave (s : State ω) (raised : Option (Exc ω)) : State ω :=
  { s with stopped := none, phase := .closing raised }

/-- `_next_unless_stopped`, up to its await. -/
def collect (s : State ω) : State ω :=
  if s.stopped = some true then s.leave none else (s.note .requested).enter (.waiting none)

/-- `return None if fetch.cancelled() else fetch.result()`, and what the loop does with it. -/
def take (s : State ω) : Fetched ω → State ω
  | .delivered e => s.enter (.collected e)
  | .exhausted | .cancelled => s.leave none
  | .raised e => s.leave (some e)

/-- The fetch ends: only an envelope delivered leaves a trace. -/
def arrive (s : State ω) : Fetched ω → State ω
  | .delivered e => s.note (.delivered e)
  | _ => s

def finish (s : State ω) (raised : Option (Exc ω)) : State ω := (s.note (.ended raised)).enter .idle

theorem phase_stop (s : State ω) : s.stop.phase = s.phase := by
  unfold stop
  split <;> rfl

theorem log_stop (s : State ω) : s.stop.log = s.log := by
  unfold stop
  split <;> rfl

end State

/-- One step. Started and running listeners that raise, and `receiver.get` raising, differ
in whether the `try` block was entered: before it, `_stopped` stays set. -/
def step (worker : Worker) (s : State ω) (a : Action ω) : Option (State ω) :=
  match s.phase, a with
  | _, .stop => some (s.note .stop).stop
  | .idle, .run => some ((s.note .runs).start worker)
  | .starting, .announced raised =>
    let s := s.note (.announced .started raised)
    some (if raised.isSome then s.finish raised else s.enter .opening)
  | .opening, .opened raised =>
    let s := s.note (.opened raised)
    some (if raised.isSome then s.finish raised else s.collect)
  | .waiting none, .fetched fetch => some ((s.arrive fetch).enter (.waiting (some fetch)))
  | .waiting (some fetch), .wake => some (s.take fetch)
  | .waiting none, .wake => if s.stopped = some true then some (s.enter .cancelling) else none
  | .cancelling, .fetched fetch => some ((s.arrive fetch).take fetch)
  | .collected envelope, .settle world =>
    let settling := worker.settle world envelope
    some (s.enter (.settling settling.calls settling.result))
  | .settling (c :: todo) result, .perform =>
    some ((s.note (.call c)).enter (.settling todo result))
  | .settling [] (.ok _), .perform =>
    some (if worker.hasDispatcher then s.enter .running else s.collect)
  | .settling [] (.error e), .perform => some (s.leave (some e))
  | .running, .announced raised =>
    let s := s.note (.announced .running raised)
    some (if raised.isSome then s.leave raised else s.collect)
  | .closing raised, .closed raised' =>
    let s := s.note (.closed raised')
    some (if raised'.isSome then s.finish raised'
      else if worker.hasDispatcher then s.enter (.stopping raised) else s.finish raised)
  | .stopping raised, .announced raised' =>
    let s := s.note (.announced .stopped raised')
    some (s.finish (if raised'.isSome then raised' else raised))
  | _, _ => none

/-- What a step can do, one constructor for each way it can go. -/
inductive Steps (worker : Worker) (s : State ω) : Action ω → State ω → Prop
  | stop : Steps worker s .stop (s.note .stop).stop
  | run (h : s.phase = .idle) : Steps worker s .run ((s.note .runs).start worker)
  | started (h : s.phase = .starting) :
    Steps worker s (.announced none) ((s.note (.announced .started none)).enter .opening)
  | startFailed (h : s.phase = .starting) (e : Exc ω) :
    Steps worker s (.announced (some e)) ((s.note (.announced .started (some e))).finish (some e))
  | opened (h : s.phase = .opening) :
    Steps worker s (.opened none) (s.note (.opened none)).collect
  | openFailed (h : s.phase = .opening) (e : Exc ω) :
    Steps worker s (.opened (some e)) ((s.note (.opened (some e))).finish (some e))
  | fetched (h : s.phase = .waiting none) (fetch : Fetched ω) :
    Steps worker s (.fetched fetch) ((s.arrive fetch).enter (.waiting (some fetch)))
  | woken (fetch : Fetched ω) (h : s.phase = .waiting (some fetch)) :
    Steps worker s .wake (s.take fetch)
  | halted (h : s.phase = .waiting none) (hs : s.stopped = some true) :
    Steps worker s .wake (s.enter .cancelling)
  | gathered (h : s.phase = .cancelling) (fetch : Fetched ω) :
    Steps worker s (.fetched fetch) ((s.arrive fetch).take fetch)
  | settle (e : Envelope ω) (h : s.phase = .collected e) (world : World ω) :
    Steps worker s (.settle world)
      (s.enter (.settling (worker.settle world e).calls (worker.settle world e).result))
  | perform (c : Call ω) (todo : List (Call ω)) (result : Except (Exc ω) Unit)
    (h : s.phase = .settling (c :: todo) result) :
    Steps worker s .perform ((s.note (.call c)).enter (.settling todo result))
  | settled (h : s.phase = .settling [] (.ok ())) (hd : worker.hasDispatcher = true) :
    Steps worker s .perform (s.enter .running)
  | settledUnheard (h : s.phase = .settling [] (.ok ())) (hd : worker.hasDispatcher = false) :
    Steps worker s .perform s.collect
  | settleFailed (e : Exc ω) (h : s.phase = .settling [] (.error e)) :
    Steps worker s .perform (s.leave (some e))
  | ran (h : s.phase = .running) :
    Steps worker s (.announced none) (s.note (.announced .running none)).collect
  | runFailed (h : s.phase = .running) (e : Exc ω) :
    Steps worker s (.announced (some e)) ((s.note (.announced .running (some e))).leave (some e))
  | closed (raised : Option (Exc ω)) (h : s.phase = .closing raised)
    (hd : worker.hasDispatcher = true) :
    Steps worker s (.closed none) ((s.note (.closed none)).enter (.stopping raised))
  | closedUnheard (raised : Option (Exc ω)) (h : s.phase = .closing raised)
    (hd : worker.hasDispatcher = false) :
    Steps worker s (.closed none) ((s.note (.closed none)).finish raised)
  | closeFailed (raised : Option (Exc ω)) (h : s.phase = .closing raised) (e : Exc ω) :
    Steps worker s (.closed (some e)) ((s.note (.closed (some e))).finish (some e))
  | stopped (raised : Option (Exc ω)) (h : s.phase = .stopping raised) (raised' : Option (Exc ω)) :
    Steps worker s (.announced raised') ((s.note (.announced .stopped raised')).finish
      (if raised'.isSome then raised' else raised))

theorem steps_of_step {worker : Worker} {s t : State ω} {a : Action ω}
    (h : worker.step s a = some t) : Steps worker s a t := by
  unfold step at h
  split at h <;> try obtain rfl := Option.some.inj h
  · exact .stop
  · exact .run ‹_›
  · rename_i raised hph
    cases raised with
    | none => exact .started hph
    | some e => exact .startFailed hph e
  · rename_i raised hph
    cases raised with
    | none => exact .opened hph
    | some e => exact .openFailed hph e
  · exact .fetched ‹_› _
  · exact .woken _ ‹_›
  · split_ifs at h with hs
    obtain rfl := Option.some.inj h
    exact .halted ‹_› hs
  · exact .gathered ‹_› _
  · exact .settle _ ‹_› _
  · exact .perform _ _ _ ‹_›
  · split_ifs with hd
    · exact .settled ‹_› hd
    · exact .settledUnheard ‹_› (by simpa using hd)
  · exact .settleFailed _ ‹_›
  · rename_i raised hph
    cases raised with
    | none => exact .ran hph
    | some e => exact .runFailed hph e
  · rename_i raised raised' hph
    cases raised' with
    | some e => exact .closeFailed raised hph e
    | none =>
      cases hd : worker.hasDispatcher with
      | true => simpa [hd] using Steps.closed raised hph hd
      | false => simpa [hd] using Steps.closedUnheard raised hph hd
  · exact .stopped _ ‹_› _
  · simp at h

/-- A worker as it was built, and everything that may happen to it. -/
def machine (ω : Type) (worker : Worker) : Machine (State ω) (Action ω) where
  init s := s = {}
  step := worker.step

end XtrMessenger.Worker
