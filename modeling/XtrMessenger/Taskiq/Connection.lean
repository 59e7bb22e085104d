import XtrMessenger.Taskiq.StartedBrokers

/-! The record of a broker and its connection: when every broker that is recorded is open. -/
namespace XtrMessenger.Taskiq
open Foundation
variable {β : Type} [DecidableEq β]

/-- A connection operation the owner completed. -/
inductive Operation
  | startup (outcome : Outcome)
  | shutdown (outcome : Outcome)
  deriving DecidableEq, Repr

def Event.operation? (broker : β) : Event β → Option Operation
  | .startupEnded b outcome => if b = broker then some (.startup outcome) else none
  | .shutdownEnded b outcome => if b = broker then some (.shutdown outcome) else none
  | _ => none

/-- The operations completed on `broker`, oldest first. -/
def operations (broker : β) (log : List (Event β)) : List Operation :=
  log.filterMap (Event.operation? broker)

/-- The last operation completed on `broker` is a successful startup. -/
def IsOpen (broker : β) (log : List (Event β)) : Prop :=
  (operations broker log).getLast? = some (.startup .returned)

/-- A startup or a shutdown of `broker` is in progress. -/
def State.Busy (s : State β) (broker : β) : Prop :=
  s.starting = some broker ∨ ∃ closing ∈ s.closings, closing.broker = broker

/-- Every broker that is recorded, and on which nothing is in progress, is open. -/
def RecordsOpen (s : State β) : Prop :=
  ∀ broker ∈ s.started, ¬ s.Busy broker → IsOpen broker s.log

/-- No worker runs, and no startup succeeds while a `close_all` awaits that broker's shutdown. -/
def Unraced (s : State β) : Action β → Prop
  | .startupEnds .returned => ∀ closing ∈ s.closings, s.starting ≠ some closing.broker
  | .runStarts _ _ => False
  | _ => True

instance (s : State β) : (a : Action β) → Decidable (Unraced s a)
  | .startupEnds .returned =>
    inferInstanceAs (Decidable (∀ closing ∈ s.closings, s.starting ≠ some closing.broker))
  | .startupEnds .raised | .startupEnds .cancelled | .ensureStarted _ | .acquire | .abandon _
  | .forget _ | .closeAll _ | .shutdownEnds _ _ | .runStops _ | .runEnds _ => isTrue trivial
  | .runStarts _ _ => isFalse id

/-- A broker that is being started or shut down is not recorded; one that is recorded is open. -/
structure Recorded (s : State β) : Prop where
  starting : ∀ broker, s.starting = some broker → broker ∉ s.started
  closing : ∀ closing ∈ s.closings, closing.broker ∉ s.started
  isOpen : ∀ broker ∈ s.started, IsOpen broker s.log

section Log
variable {broker : β} {log : List (Event β)} {e : Event β}

theorem IsOpen.concat (h : IsOpen broker log) (he : e.operation? broker = none) :
    IsOpen broker (log ++ [e]) := by
  unfold IsOpen operations at h ⊢
  rwa [filterMap_concat, he, Option.toList_none, List.append_nil]

theorem isOpen_started : IsOpen broker (log ++ [.startupEnded broker .returned]) := by
  simp [IsOpen, operations, Event.operation?]

theorem operation?_startupEnded {b : β} {outcome : Outcome} (h : b ≠ broker) :
    (Event.startupEnded b outcome).operation? broker = none := if_neg h

theorem operation?_shutdownEnded {b : β} {outcome : Outcome} (h : b ≠ broker) :
    (Event.shutdownEnded b outcome).operation? broker = none := if_neg h

end Log

section Steps
variable {s t : State β} {broker : β} {e : Event β}

theorem Recorded.note (h : Recorded s) (he : ∀ broker ∈ s.started, e.operation? broker = none) :
    Recorded (s.note e) where
  starting := h.starting
  closing := h.closing
  isOpen b hb := (h.isOpen b hb).concat (he b hb)

theorem Recorded.ensure (h : Recorded s) : Recorded (s.ensure broker) := h.note fun _ _ => rfl

theorem Recorded.startup (h : Recorded s) (hb : broker ∉ s.started) :
    Recorded (s.startup broker) where
  starting _ heq := Option.some.inj heq ▸ hb
  closing := h.closing
  isOpen b hb := (h.isOpen b hb).concat rfl

theorem Recorded.enter (h : Recorded s) : Recorded (s.enter broker) := by
  unfold State.enter
  split
  · exact h.ensure
  · exact h.startup ‹_›

theorem Recorded.discard (h : Recorded s) : Recorded (s.discard broker) := by
  have hsub : (s.discard broker).started ⊆ s.started := Finset.erase_subset broker s.started
  refine ⟨fun b hb hmem => h.starting b hb (hsub hmem), fun c hc hmem => h.closing c hc (hsub hmem),
    fun b hb => ?_⟩
  have hopen := h.isOpen b (hsub hb)
  exact hopen.concat rfl

/-- A `close_all` that ends awaits nothing any more. -/
theorem Recorded.eraseClosing (h : Recorded s) (place : Nat) :
    Recorded { s with closings := s.closings.eraseIdx place } where
  starting := h.starting
  closing c hc := h.closing c (List.mem_of_mem_eraseIdx hc)
  isOpen := h.isOpen

theorem Recorded.shutdown {closings : List (Closing β)} (h : Recorded s)
    (hc : ∀ closing ∈ closings, closing ∈ s.closings ∨ closing.broker = broker) :
    Recorded ({ s with closings }.shutdown broker) := by
  have hdiscard : Recorded ({ s with closings }.discard broker) := by
    refine ⟨h.discard.starting, fun closing hmem => ?_, h.discard.isOpen⟩
    rcases hc closing hmem with hold | rfl
    · exact h.discard.closing closing hold
    · exact Finset.notMem_erase _ _
  exact hdiscard.note fun _ _ => rfl

theorem Recorded.proceed {place : Nat} {rest failures : List β} (h : Recorded s) :
    Recorded (proceed s place rest failures) := by
  cases rest with
  | nil => exact (h.eraseClosing place).note fun _ _ => rfl
  | cons broker rest =>
    refine h.shutdown fun closing hmem => ?_
    rcases List.mem_or_eq_of_mem_set hmem with hold | rfl
    · exact Or.inl hold
    · exact Or.inr rfl

theorem step_recorded {a : Action β} (h : Recorded s) (ha : Unraced s a) (hs : Steps s a t) :
    Recorded t := by
  cases hs with
  | returns => exact h.ensure
  | opens hflag hnew hfree => exact h.startup hnew
  | waits => exact ⟨h.starting, h.closing, h.isOpen⟩
  | acquired hfree hwaiters =>
    exact Recorded.enter ⟨h.starting, h.closing, h.isOpen⟩
  | abandoned place => exact ⟨h.starting, h.closing, h.isOpen⟩
  | @started broker hs =>
    refine Recorded.ensure ⟨by simp, fun closing hc => ?_, fun b hb => ?_⟩
    · have hne : closing.broker ≠ broker := fun heq => ha closing hc (heq ▸ hs)
      simpa [hne] using h.closing closing hc
    · rcases eq_or_ne broker b with rfl | hne
      · exact isOpen_started
      · have hold : b ∈ s.started := by simpa [hne.symm] using hb
        exact (h.isOpen b hold).concat (operation?_startupEnded hne)
  | @unstarted broker outcome hs hfailed =>
    have hfree : Recorded { s with starting := none } := ⟨by simp, h.closing, h.isOpen⟩
    refine hfree.note fun b hb => operation?_startupEnded ?_
    rintro rfl
    exact h.starting _ hs hb
  | forgot broker => exact h.discard
  | closedNone => exact h.note fun _ _ => rfl
  | closes hnodup horder =>
    refine h.shutdown fun closing hmem => ?_
    rcases List.mem_append.mp hmem with hold | hnew
    · exact Or.inl hold
    · exact Or.inr (List.mem_singleton.mp hnew ▸ rfl)
  | @proceeds place closing outcome failures hc =>
    refine Recorded.proceed (h.note fun b hb => operation?_shutdownEnded ?_)
    rintro rfl
    exact h.closing closing (List.mem_of_getElem? hc) hb
  | @cancelled place closing hc =>
    refine (h.eraseClosing place).note fun b hb => operation?_shutdownEnded ?_
    rintro rfl
    exact h.closing closing (List.mem_of_getElem? hc) hb
  | runStarted broker publishers => exact ha.elim
  | runStopped hr => exact ⟨h.starting, h.closing, h.isOpen⟩
  | runForgot hr hpublishers => exact ⟨h.discard.starting, h.discard.closing, h.discard.isOpen⟩
  | runEnded hr hpublishers => exact ⟨h.starting, h.closing, h.isOpen⟩

end Steps

/-- In every run without workers in which no startup succeeds while a `close_all` awaits that
broker's shutdown, every broker that is recorded is open. -/
theorem records_open {s : State β} (h : (machine β).Reach Unraced s) : RecordsOpen s := by
  have hrecorded : Recorded s := by
    refine h.invariant ?_ fun s a t _ hi ha hs => step_recorded hi ha (steps_of_step hs)
    rintro s ⟨flags, rfl⟩
    exact ⟨by simp, by simp, by simp⟩
  exact fun broker hb _ => hrecorded.isOpen broker hb

/-- Two brokers are opened, closed, and the first is opened again while the second closes. -/
def reopened : List (Action Nat) :=
  [.ensureStarted 0, .ensureStarted 1, .startupEnds .returned, .acquire, .startupEnds .returned,
    .closeAll [0, 1], .shutdownEnds 0 .raised, .ensureStarted 0, .startupEnds .returned]

theorem records_open_reopened : ∃ s, (machine Nat).runWhen Unraced {} reopened = some s ∧
    s.started = {0} ∧ RecordsOpen s := by
  obtain ⟨s, hrun, hstarted⟩ : ∃ s, (machine Nat).runWhen Unraced {} reopened = some s ∧
    s.started = {0} := ⟨_, rfl, rfl⟩
  exact ⟨s, hrun, hstarted,
    records_open (Machine.Reach.runWhen (.start ⟨fun _ => false, rfl⟩) reopened hrun)⟩

/-- A publish opens a broker again, and is done, before the shutdown of a `close_all` ends. -/
def overtaken : List (Action Nat) :=
  [.ensureStarted 0, .startupEnds .returned, .closeAll [0], .ensureStarted 0,
    .startupEnds .returned, .shutdownEnds 0 .returned]

/-- Without a worker, a broker can stay recorded whose last operation was a shutdown. -/
theorem recorded_after_shutdown : ∃ s, (machine Nat).run {} overtaken = some s ∧
    0 ∈ s.started ∧ s.starting = none ∧ s.waiters = [] ∧ s.closings = [] ∧ s.runs = [] ∧
    ¬ RecordsOpen s := by
  obtain ⟨s, hrun, hmem, hstarting, hwaiters, hclosings, hruns, hlast⟩ :
      ∃ s, (machine Nat).run {} overtaken = some s ∧ 0 ∈ s.started ∧ s.starting = none ∧
        s.waiters = [] ∧ s.closings = [] ∧ s.runs = [] ∧
        (operations 0 s.log).getLast? = some (.shutdown .returned) :=
    ⟨_, rfl, by decide, rfl, rfl, rfl, rfl, by decide⟩
  refine ⟨s, hrun, hmem, hstarting, hwaiters, hclosings, hruns, fun h => ?_⟩
  have hopen := h 0 hmem (by simp [State.Busy, hstarting, hclosings])
  rw [IsOpen, hlast] at hopen
  exact absurd hopen (by decide)

end XtrMessenger.Taskiq
