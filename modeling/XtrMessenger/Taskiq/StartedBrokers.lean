import XtrMessenger.Foundation.Machine
import XtrMessenger.Foundation.History
import Mathlib.Data.Finset.Dedup
import Mathlib.Data.Finset.Basic

/-! `StartedBrokers` and `TaskiqWorker.run` as one machine: the calls of one owner's registry and
the runs of workers, interleaved at their await points on one event loop. -/
namespace XtrMessenger.Taskiq
open Foundation
variable {β : Type}

/-- How an awaited `startup()` or `shutdown()` ends. -/
inductive Outcome
  | returned | raised | cancelled
  deriving DecidableEq, Repr

/-- A `close_all` in progress, awaiting the shutdown of `broker`. -/
structure Closing (β : Type) where
  broker : β
  rest : List β
  failures : List β

/-- A `TaskiqWorker.run` in progress. -/
structure WorkerRun (β : Type) where
  broker : β
  claimed : Bool
  publishers : Bool
  stopping : Bool

inductive Event (β : Type)
  | startupCalled (broker : β) (isWorkerProcess : Bool)
  | startupEnded (broker : β) (outcome : Outcome)
  | ensured (broker : β) (isWorkerProcess recorded : Bool)
  | forgotten (broker : β)
  /-- `close_all` calls `shutdown()`, while a worker's run over the broker is in progress or not. -/
  | shutdownCalled (broker : β) (consumed : Bool)
  | shutdownEnded (broker : β) (outcome : Outcome)
  /-- `close_all` ends; with failures, it raises them together. -/
  | closed (failures : List β)
  deriving DecidableEq

inductive Action (β : Type)
  | ensureStarted (broker : β)
  | acquire
  /-- A call is cancelled while it waits for the lock. -/
  | abandon (place : Nat)
  | startupEnds (outcome : Outcome)
  | forget (broker : β)
  /-- `close_all`, with the order `tuple(self._started)` comes in. -/
  | closeAll (order : List β)
  | shutdownEnds (place : Nat) (outcome : Outcome)
  | runStarts (broker : β) (publishers : Bool)
  /-- A run is done consuming, however it came to be, and calls `shutdown()`. -/
  | runStops (place : Nat)
  | runEnds (place : Nat)

structure State (β : Type) where
  started : Finset β := ∅
  /-- The broker whose startup the holder of the lock awaits. -/
  starting : Option β := none
  /-- The brokers of the calls that wait for the lock, in the order they came. -/
  waiters : List β := []
  closings : List (Closing β) := []
  runs : List (WorkerRun β) := []
  isWorkerProcess : β → Bool := fun _ => false
  log : List (Event β) := []

variable [DecidableEq β]

namespace State

/-- A worker's run over `broker` is in progress. -/
def consumed (s : State β) (broker : β) : Bool := s.runs.any fun run => run.broker = broker

def note (s : State β) (e : Event β) : State β := { s with log := s.log ++ [e] }

/-- `ensure_started` returns. -/
def ensure (s : State β) (broker : β) : State β :=
  s.note (.ensured broker (s.isWorkerProcess broker) (decide (broker ∈ s.started)))

/-- `await broker.startup()`, under the lock. -/
def startup (s : State β) (broker : β) : State β :=
  { s with starting := some broker }.note (.startupCalled broker (s.isWorkerProcess broker))

/-- What `ensure_started` does once it holds the lock. -/
def enter (s : State β) (broker : β) : State β :=
  if broker ∈ s.started then s.ensure broker else s.startup broker

def discard (s : State β) (broker : β) : State β :=
  { s with started := s.started.erase broker }.note (.forgotten broker)

/-- One turn of the loop of `close_all`, up to the `await`. -/
def shutdown (s : State β) (broker : β) : State β :=
  (s.discard broker).note (.shutdownCalled broker (s.consumed broker))

def setFlag (s : State β) (broker : β) (isWorkerProcess : Bool) : State β :=
  { s with isWorkerProcess := Function.update s.isWorkerProcess broker isWorkerProcess }

end State

/-- The loop of `close_all` goes on after the shutdown it awaited. -/
def proceed (s : State β) (place : Nat) (rest failures : List β) : State β :=
  match rest with
  | [] => { s with closings := s.closings.eraseIdx place }.note (.closed failures)
  | broker :: rest =>
    { s with closings := s.closings.set place (Closing.mk broker rest failures) }.shutdown broker

def step (s : State β) : Action β → Option (State β)
  | .ensureStarted broker =>
    if s.isWorkerProcess broker ∨ broker ∈ s.started then some (s.ensure broker)
    else if s.starting = none ∧ s.waiters = [] then some (s.enter broker)
    else some { s with waiters := s.waiters ++ [broker] }
  | .acquire =>
    match s.starting, s.waiters with
    | none, broker :: waiters => some ({ s with waiters := waiters }.enter broker)
    | _, _ => none
  | .abandon place =>
    if place < s.waiters.length then some { s with waiters := s.waiters.eraseIdx place } else none
  | .startupEnds outcome =>
    s.starting.map fun broker =>
      let s := { s with starting := none }.note (.startupEnded broker outcome)
      match outcome with
      | .returned => { s with started := insert broker s.started }.ensure broker
      | _ => s
  | .forget broker => some (s.discard broker)
  | .closeAll order =>
    if order.Nodup ∧ order.toFinset = s.started then
      match order with
      | [] => some (s.note (.closed []))
      | broker :: rest =>
        some ({ s with closings := s.closings ++ [Closing.mk broker rest []] }.shutdown broker)
    else none
  | .shutdownEnds place outcome =>
    s.closings[place]?.map fun closing =>
      let s := s.note (.shutdownEnded closing.broker outcome)
      match outcome with
      | .returned => proceed s place closing.rest closing.failures
      | .raised => proceed s place closing.rest (closing.failures ++ [closing.broker])
      | .cancelled => { s with closings := s.closings.eraseIdx place }
  | .runStarts broker publishers =>
    let run := WorkerRun.mk broker (s.isWorkerProcess broker) publishers false
    some ({ s with runs := s.runs ++ [run] }.setFlag broker true)
  | .runStops place =>
    match s.runs[place]? with
    | some run =>
      if run.stopping then none
      else some { s with runs := s.runs.set place { run with stopping := true } }
    | none => none
  | .runEnds place =>
    match s.runs[place]? with
    | some run =>
      if run.stopping then
        let s := { s with runs := s.runs.eraseIdx place }
        let s := if run.publishers then s.discard run.broker else s
        some (s.setFlag run.broker run.claimed)
      else none
    | none => none

/-- Nothing is recorded and nothing is in progress; the flags are as taskiq left them. -/
def machine (β : Type) [DecidableEq β] : Machine (State β) (Action β) where
  init s := ∃ flags, s = { isWorkerProcess := flags }
  step := step

/-- What a step does, by the branch that is taken. -/
inductive Steps (s : State β) : Action β → State β → Prop
  | returns {broker : β} : s.isWorkerProcess broker = true ∨ broker ∈ s.started →
      Steps s (.ensureStarted broker) (s.ensure broker)
  | opens {broker : β} : s.isWorkerProcess broker = false → broker ∉ s.started →
      s.starting = none → Steps s (.ensureStarted broker) (s.startup broker)
  | waits {broker : β} : s.isWorkerProcess broker = false → broker ∉ s.started →
      Steps s (.ensureStarted broker) { s with waiters := s.waiters ++ [broker] }
  | acquired {broker : β} {waiters : List β} : s.starting = none → s.waiters = broker :: waiters →
      Steps s .acquire ({ s with waiters := waiters }.enter broker)
  | abandoned (place : Nat) :
      Steps s (.abandon place) { s with waiters := s.waiters.eraseIdx place }
  | started {broker : β} : s.starting = some broker → Steps s (.startupEnds .returned)
      ({ s with
          starting := none
          started := insert broker s.started
          log := s.log ++ [Event.startupEnded broker .returned] }.ensure broker)
  | unstarted {broker : β} {outcome : Outcome} : s.starting = some broker → outcome ≠ .returned →
      Steps s (.startupEnds outcome)
        ({ s with starting := none }.note (.startupEnded broker outcome))
  | forgot (broker : β) : Steps s (.forget broker) (s.discard broker)
  | closedNone : s.started = ∅ → Steps s (.closeAll []) (s.note (.closed []))
  | closes {broker : β} {rest : List β} : (broker :: rest).Nodup →
      (broker :: rest).toFinset = s.started → Steps s (.closeAll (broker :: rest))
        ({ s with closings := s.closings ++ [Closing.mk broker rest []] }.shutdown broker)
  | proceeds {place : Nat} {closing : Closing β} {outcome : Outcome} (failures : List β) :
      s.closings[place]? = some closing → Steps s (.shutdownEnds place outcome)
        (proceed (s.note (.shutdownEnded closing.broker outcome)) place closing.rest failures)
  | cancelled {place : Nat} {closing : Closing β} : s.closings[place]? = some closing →
      Steps s (.shutdownEnds place .cancelled)
        ({ s with closings := s.closings.eraseIdx place }.note
          (.shutdownEnded closing.broker .cancelled))
  | runStarted (broker : β) (publishers : Bool) : Steps s (.runStarts broker publishers)
      ({ s with
          runs := s.runs ++ [WorkerRun.mk broker (s.isWorkerProcess broker) publishers false]
          }.setFlag broker true)
  | runStopped {place : Nat} {run : WorkerRun β} : s.runs[place]? = some run →
      Steps s (.runStops place)
        { s with runs := s.runs.set place { run with stopping := true } }
  | runForgot {place : Nat} {run : WorkerRun β} : s.runs[place]? = some run →
      run.publishers = true → Steps s (.runEnds place)
        (({ s with runs := s.runs.eraseIdx place }.discard run.broker).setFlag run.broker
          run.claimed)
  | runEnded {place : Nat} {run : WorkerRun β} : s.runs[place]? = some run →
      run.publishers = false → Steps s (.runEnds place)
        ({ s with runs := s.runs.eraseIdx place }.setFlag run.broker run.claimed)

theorem steps_of_step {s t : State β} {a : Action β} (h : step s a = some t) : Steps s a t := by
  cases a with
  | ensureStarted broker =>
    simp only [step] at h
    split_ifs at h with hknown hfree
    · exact Option.some.inj h ▸ .returns hknown
    · rw [not_or, Bool.not_eq_true] at hknown
      have henter : s.enter broker = s.startup broker := if_neg hknown.2
      rw [henter] at h
      exact Option.some.inj h ▸ .opens hknown.1 hknown.2 hfree.1
    · rw [not_or, Bool.not_eq_true] at hknown
      exact Option.some.inj h ▸ .waits hknown.1 hknown.2
  | acquire =>
    simp only [step] at h
    split at h
    · rename_i broker waiters hfree hwaiters
      exact Option.some.inj h ▸ .acquired hfree hwaiters
    · simp at h
  | abandon place =>
    simp only [step] at h
    split_ifs at h
    exact Option.some.inj h ▸ .abandoned place
  | startupEnds outcome =>
    obtain ⟨broker, hs, ht⟩ := Option.map_eq_some_iff.mp h
    cases outcome with
    | returned => exact ht ▸ .started hs
    | raised => exact ht ▸ .unstarted hs (by simp)
    | cancelled => exact ht ▸ .unstarted hs (by simp)
  | forget broker => exact Option.some.inj h ▸ .forgot broker
  | closeAll order =>
    simp only [step] at h
    split_ifs at h with horder
    cases order with
    | nil => exact Option.some.inj h ▸ .closedNone horder.2.symm
    | cons broker rest => exact Option.some.inj h ▸ .closes horder.1 horder.2
  | shutdownEnds place outcome =>
    obtain ⟨closing, hc, ht⟩ := Option.map_eq_some_iff.mp h
    cases outcome with
    | returned => exact ht ▸ .proceeds _ hc
    | raised => exact ht ▸ .proceeds _ hc
    | cancelled => exact ht ▸ .cancelled hc
  | runStarts broker publishers => exact Option.some.inj h ▸ .runStarted broker publishers
  | runStops place =>
    simp only [step] at h
    split at h
    · rename_i run hr
      split_ifs at h
      exact Option.some.inj h ▸ .runStopped hr
    · simp at h
  | runEnds place =>
    simp only [step] at h
    split at h
    · rename_i run hr
      split_ifs at h with hstopping hpublishers
      · exact Option.some.inj h ▸ .runForgot hr hpublishers
      · exact Option.some.inj h ▸ .runEnded hr (by simpa using hpublishers)
    · simp at h

end XtrMessenger.Taskiq
