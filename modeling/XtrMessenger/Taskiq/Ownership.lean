import XtrMessenger.Taskiq.StartedBrokers

/-! Brokers shared with workers: which startups and shutdowns of a publishing owner meet a
worker's broker. -/
namespace XtrMessenger.Taskiq
open Foundation
variable {β : Type} [DecidableEq β]

/-- `ensure_started` calls no `startup()` while the broker's flag is set. -/
def SparesWorkers (log : List (Event β)) : Prop := ∀ broker, .startupCalled broker true ∉ log

/-- `close_all` calls no `shutdown()` while a worker's run over the broker is in progress. -/
def SparesConsumed (log : List (Event β)) : Prop := ∀ broker, .shutdownCalled broker true ∉ log

/-- No flag is set while an `ensure_started` of that broker waits for the lock. -/
def FlaggedInTime (s : State β) : Action β → Prop
  | .runStarts broker _ => broker ∉ s.waiters
  | .runEnds place => ∀ run ∈ s.runs[place]?, run.claimed = true → run.broker ∉ s.waiters
  | _ => True

instance (s : State β) : (a : Action β) → Decidable (FlaggedInTime s a)
  | .runStarts broker _ => inferInstanceAs (Decidable (broker ∉ s.waiters))
  | .runEnds place => inferInstanceAs (Decidable
      (∀ run ∈ s.runs[place]?, run.claimed = true → run.broker ∉ s.waiters))
  | .ensureStarted _ | .acquire | .abandon _ | .startupEnds _ | .forget _ | .closeAll _
  | .shutdownEnds _ _ | .runStops _ => isTrue trivial

/-- No publish of the broker is recorded or on its way, and no `close_all` has it still to close. -/
structure Unpublished (s : State β) (broker : β) : Prop where
  started : broker ∉ s.started
  waiting : broker ∉ s.waiters
  starting : s.starting ≠ some broker
  closing : ∀ closing ∈ s.closings, broker ∉ closing.rest

instance (s : State β) (broker : β) : Decidable (Unpublished s broker) :=
  decidable_of_iff (broker ∉ s.started ∧ broker ∉ s.waiters ∧ s.starting ≠ some broker ∧
      ∀ closing ∈ s.closings, broker ∉ closing.rest)
    ⟨fun ⟨h₁, h₂, h₃, h₄⟩ => ⟨h₁, h₂, h₃, h₄⟩,
      fun h => ⟨h.started, h.waiting, h.starting, h.closing⟩⟩

/-- A run starts on a broker that is not published through, and none ends by clearing the flag
of a broker another run consumes from. -/
def HandedOver (s : State β) : Action β → Prop
  | .runStarts broker _ => Unpublished s broker
  | .runEnds place => ∀ run ∈ s.runs[place]?, run.claimed = false →
      ∀ other ∈ s.runs.eraseIdx place, other.broker ≠ run.broker
  | _ => True

instance (s : State β) : (a : Action β) → Decidable (HandedOver s a)
  | .runStarts broker _ => inferInstanceAs (Decidable (Unpublished s broker))
  | .runEnds place => inferInstanceAs (Decidable (∀ run ∈ s.runs[place]?, run.claimed = false →
      ∀ other ∈ s.runs.eraseIdx place, other.broker ≠ run.broker))
  | .ensureStarted _ | .acquire | .abandon _ | .startupEnds _ | .forget _ | .closeAll _
  | .shutdownEnds _ _ | .runStops _ => isTrue trivial

section Flags
variable {s t : State β} {broker : β} {e : Event β}

/-- The calls that wait are for brokers without the flag, and so were those that opened one. -/
structure Unflagged (s : State β) : Prop where
  waiting : ∀ broker ∈ s.waiters, s.isWorkerProcess broker = false
  spares : SparesWorkers s.log

omit [DecidableEq β] in
theorem SparesWorkers.concat {log : List (Event β)} (h : SparesWorkers log)
    (he : ∀ broker, e ≠ .startupCalled broker true) : SparesWorkers (log ++ [e]) := by
  intro broker hmem
  rcases List.mem_append.mp hmem with hmem | hmem
  · exact h broker hmem
  · exact he broker (List.mem_singleton.mp hmem).symm

omit [DecidableEq β] in
theorem Unflagged.note (h : Unflagged s) (he : ∀ broker, e ≠ .startupCalled broker true) :
    Unflagged (s.note e) := ⟨h.waiting, h.spares.concat he⟩

omit [DecidableEq β] in
theorem Unflagged.startup (h : Unflagged s) (hflag : s.isWorkerProcess broker = false) :
    Unflagged (s.startup broker) :=
  ⟨h.waiting, h.spares.concat (by simp [hflag])⟩

theorem Unflagged.enter (h : Unflagged s) (hflag : s.isWorkerProcess broker = false) :
    Unflagged (s.enter broker) := by
  unfold State.enter
  split
  · exact h.note (by simp)
  · exact h.startup hflag

theorem Unflagged.discard (h : Unflagged s) : Unflagged (s.discard broker) :=
  ⟨h.waiting, h.spares.concat (by simp)⟩

theorem Unflagged.shutdown (h : Unflagged s) : Unflagged (s.shutdown broker) :=
  h.discard.note (by simp)

theorem Unflagged.proceed {place : Nat} {rest failures : List β} (h : Unflagged s) :
    Unflagged (proceed s place rest failures) := by
  cases rest with
  | nil => exact ⟨h.waiting, h.spares.concat (by simp)⟩
  | cons broker rest => exact Unflagged.shutdown ⟨h.waiting, h.spares⟩

/-- A flag is set only where no call waits for the lock. -/
theorem Unflagged.setFlag {flag : Bool} (h : Unflagged s)
    (hflag : flag = true → broker ∉ s.waiters) : Unflagged (s.setFlag broker flag) where
  waiting b hb := by
    rcases eq_or_ne b broker with rfl | hne
    · have hclear : flag ≠ true := fun hset => hflag hset hb
      simpa [State.setFlag] using hclear
    · simpa [State.setFlag, hne] using h.waiting b hb
  spares := h.spares

theorem step_unflagged {a : Action β} (h : Unflagged s) (ha : FlaggedInTime s a)
    (hs : Steps s a t) : Unflagged t := by
  cases hs with
  | returns => exact h.note (by simp)
  | opens hflag hnew hfree => exact h.startup hflag
  | @waits broker hflag hnew =>
    refine ⟨fun b hb => ?_, h.spares⟩
    rcases List.mem_append.mp hb with hb | hb
    · exact h.waiting b hb
    · exact List.mem_singleton.mp hb ▸ hflag
  | @acquired broker waiters hfree hwaiters =>
    have hleft : Unflagged { s with waiters } :=
      ⟨fun b hb => h.waiting b (hwaiters ▸ List.mem_cons_of_mem _ hb), h.spares⟩
    exact hleft.enter (h.waiting broker (hwaiters ▸ List.mem_cons_self))
  | abandoned place => exact ⟨fun b hb => h.waiting b (List.mem_of_mem_eraseIdx hb), h.spares⟩
  | started hs => exact Unflagged.note ⟨h.waiting, h.spares.concat (by simp)⟩ (by simp)
  | unstarted hs hfailed => exact ⟨h.waiting, h.spares.concat (by simp)⟩
  | forgot broker => exact h.discard
  | closedNone => exact h.note (by simp)
  | closes hnodup horder => exact Unflagged.shutdown ⟨h.waiting, h.spares⟩
  | proceeds failures hc => exact (h.note (by simp)).proceed
  | cancelled hc => exact ⟨h.waiting, h.spares.concat (by simp)⟩
  | runStarted broker publishers => exact Unflagged.setFlag ⟨h.waiting, h.spares⟩ fun _ => ha
  | runStopped hr => exact ⟨h.waiting, h.spares⟩
  | @runForgot place run hr hpublishers =>
    exact Unflagged.setFlag (Unflagged.discard ⟨h.waiting, h.spares⟩) (ha run hr)
  | @runEnded place run hr hpublishers =>
    exact Unflagged.setFlag ⟨h.waiting, h.spares⟩ (ha run hr)

/-- In every run in which no flag is set while an `ensure_started` of that broker waits for the
lock, no broker is started for publishing while its flag is set. -/
theorem spares_workers (h : (machine β).Reach FlaggedInTime s) : SparesWorkers s.log := by
  have hunflagged : Unflagged s := by
    refine h.invariant ?_ fun s a t _ hi ha hs => step_unflagged hi ha (steps_of_step hs)
    rintro s ⟨flags, rfl⟩
    exact ⟨by simp, by simp [SparesWorkers]⟩
  exact hunflagged.spares

/-- A worker starts on a broker once the publish that waited for the lock has opened it. -/
def flaggedOnceOpen : List (Action Nat) :=
  [.ensureStarted 0, .ensureStarted 1, .startupEnds .returned, .acquire, .startupEnds .returned,
    .runStarts 1 true, .ensureStarted 1, .runStops 0, .runEnds 0, .ensureStarted 1]

theorem spares_workers_flaggedOnceOpen : ∃ s,
    (machine Nat).runWhen FlaggedInTime {} flaggedOnceOpen = some s ∧
      s.starting = some 1 ∧ SparesWorkers s.log := by
  obtain ⟨s, hrun, hstarting⟩ : ∃ s,
    (machine Nat).runWhen FlaggedInTime {} flaggedOnceOpen = some s ∧ s.starting = some 1 :=
    ⟨_, rfl, rfl⟩
  exact ⟨s, hrun, hstarting,
    spares_workers (Machine.Reach.runWhen (.start ⟨fun _ => false, rfl⟩) flaggedOnceOpen hrun)⟩

/-- A worker starts on a broker while a publish through it waits for the lock: the publish starts
it again. -/
theorem worker_started_again : ∃ s, (machine Nat).run {} [.ensureStarted 0, .ensureStarted 1,
    .runStarts 1 true, .startupEnds .returned, .acquire] = some s ∧ ¬ SparesWorkers s.log := by
  obtain ⟨s, hrun, hmem⟩ : ∃ s, (machine Nat).run {} [.ensureStarted 0, .ensureStarted 1,
    .runStarts 1 true, .startupEnds .returned, .acquire] = some s ∧
      .startupCalled 1 true ∈ s.log := ⟨_, rfl, by decide⟩
  exact ⟨s, hrun, fun h => h 1 hmem⟩

end Flags

section Ownership
variable {s t : State β} {broker : β} {e : Event β}

/-- A worker's broker is flagged and not published through. -/
structure Owned (s : State β) (broker : β) : Prop extends Unpublished s broker where
  flag : s.isWorkerProcess broker = true

/-- The brokers consumed from are their workers' own, and `close_all` has spared them so far. -/
structure Apart (s : State β) : Prop where
  owned : ∀ run ∈ s.runs, Owned s run.broker
  spares : SparesConsumed s.log

omit [DecidableEq β] in
theorem SparesConsumed.concat {log : List (Event β)} (h : SparesConsumed log)
    (he : ∀ broker, e ≠ .shutdownCalled broker true) : SparesConsumed (log ++ [e]) := by
  intro broker hmem
  rcases List.mem_append.mp hmem with hmem | hmem
  · exact h broker hmem
  · exact he broker (List.mem_singleton.mp hmem).symm

omit [DecidableEq β] in
theorem Apart.ne_of_unflagged (h : Apart s) (hflag : s.isWorkerProcess broker = false) :
    ∀ run ∈ s.runs, run.broker ≠ broker := by
  rintro run hr rfl
  simp [(h.owned run hr).flag] at hflag

theorem consumed_eq_false (h : ∀ run ∈ s.runs, run.broker ≠ broker) :
    s.consumed broker = false := by
  simpa [State.consumed] using h

omit [DecidableEq β] in
theorem Owned.note (h : Owned s broker) : Owned (s.note e) broker :=
  ⟨⟨h.started, h.waiting, h.starting, h.closing⟩, h.flag⟩

omit [DecidableEq β] in
theorem Owned.startup {b : β} (h : Owned s broker) (hne : broker ≠ b) :
    Owned (s.startup b) broker :=
  ⟨⟨h.started, h.waiting, fun heq => hne (Option.some.inj heq).symm, h.closing⟩, h.flag⟩

theorem Owned.enter {b : β} (h : Owned s broker) (hne : broker ≠ b) :
    Owned (s.enter b) broker := by
  unfold State.enter
  split
  · exact h.note
  · exact h.startup hne

theorem Owned.discard {b : β} (h : Owned s broker) : Owned (s.discard b) broker :=
  ⟨⟨fun hmem => h.started (Finset.mem_of_mem_erase hmem), h.waiting, h.starting, h.closing⟩, h.flag⟩

theorem Owned.setFlag {b : β} {flag : Bool} (h : Owned s broker)
    (hkeep : broker ≠ b ∨ flag = true) : Owned (s.setFlag b flag) broker := by
  refine ⟨⟨h.started, h.waiting, h.starting, h.closing⟩, ?_⟩
  rcases eq_or_ne broker b with rfl | hne
  · simpa [State.setFlag] using hkeep
  · simpa [State.setFlag, hne] using h.flag

omit [DecidableEq β] in
theorem Owned.setWaiters {waiters : List β} (h : Owned s broker) (hw : broker ∉ waiters) :
    Owned { s with waiters } broker := ⟨⟨h.started, hw, h.starting, h.closing⟩, h.flag⟩

omit [DecidableEq β] in
theorem Owned.setClosings {closings : List (Closing β)} (h : Owned s broker)
    (hc : ∀ closing ∈ closings, broker ∉ closing.rest) : Owned { s with closings } broker :=
  ⟨⟨h.started, h.waiting, h.starting, hc⟩, h.flag⟩

omit [DecidableEq β] in
theorem Owned.setRuns {runs : List (WorkerRun β)} (h : Owned s broker) :
    Owned { s with runs } broker := ⟨⟨h.started, h.waiting, h.starting, h.closing⟩, h.flag⟩

omit [DecidableEq β] in
theorem Owned.eraseClosing (h : Owned s broker) (place : Nat) :
    Owned { s with closings := s.closings.eraseIdx place } broker :=
  h.setClosings fun c hc => h.closing c (List.mem_of_mem_eraseIdx hc)

omit [DecidableEq β] in
/-- A step that leaves the runs alone keeps each worker's broker its own. -/
theorem Apart.frame (h : Apart s) (hruns : t.runs = s.runs)
    (howned : ∀ run ∈ s.runs, Owned s run.broker → Owned t run.broker)
    (hspares : SparesConsumed t.log) : Apart t :=
  ⟨fun run hr => howned run (hruns ▸ hr) (h.owned run (hruns ▸ hr)), hspares⟩

omit [DecidableEq β] in
theorem Apart.note (h : Apart s) (he : ∀ broker, e ≠ .shutdownCalled broker true) :
    Apart (s.note e) := h.frame rfl (fun _ _ ho => ho.note) (h.spares.concat he)

theorem Apart.enter (h : Apart s) (hne : ∀ run ∈ s.runs, run.broker ≠ broker) :
    Apart (s.enter broker) := by
  unfold State.enter
  split
  · exact h.note (by simp)
  · have hcall : ∀ b, Event.startupCalled broker (s.isWorkerProcess broker) ≠
        .shutdownCalled b true := by simp
    exact h.frame rfl (fun run hr ho => ho.startup (hne run hr)) (h.spares.concat hcall)

theorem Apart.discard (h : Apart s) : Apart (s.discard broker) :=
  h.frame rfl (fun _ _ ho => ho.discard) (h.spares.concat (by simp))

theorem Apart.shutdown {closings : List (Closing β)} (h : Apart s)
    (hne : ∀ run ∈ s.runs, run.broker ≠ broker)
    (hrest : ∀ run ∈ s.runs, ∀ closing ∈ closings, run.broker ∉ closing.rest) :
    Apart ({ s with closings }.shutdown broker) := by
  have hclosings : Apart { s with closings } :=
    h.frame rfl (fun run hr ho => ho.setClosings (hrest run hr)) h.spares
  have hconsumed : ({ s with closings } : State β).consumed broker = false := consumed_eq_false hne
  exact hclosings.discard.note (by simp [hconsumed])

theorem Apart.proceed {place : Nat} {rest failures : List β} (h : Apart s)
    (hrest : ∀ run ∈ s.runs, run.broker ∉ rest) : Apart (proceed s place rest failures) := by
  cases rest with
  | nil =>
    exact h.frame rfl (fun _ _ ho => (ho.eraseClosing place).note) (h.spares.concat (by simp))
  | cons broker rest =>
    have hapart : ∀ run ∈ s.runs, run.broker ≠ broker ∧ run.broker ∉ rest := by
      intro run hr
      simpa using hrest run hr
    refine h.shutdown (fun run hr => (hapart run hr).1) ?_
    intro run hr closing hc
    rcases List.mem_or_eq_of_mem_set hc with hold | rfl
    · exact (h.owned run hr).closing closing hold
    · exact (hapart run hr).2

theorem Apart.runEnds {place : Nat} {run : WorkerRun β} (h : Apart s)
    (hkeep : run.claimed = false → ∀ other ∈ s.runs.eraseIdx place, other.broker ≠ run.broker) :
    Apart ({ s with runs := s.runs.eraseIdx place }.setFlag run.broker run.claimed) := by
  refine ⟨fun other ho => ?_, h.spares⟩
  have howned := h.owned other (List.mem_of_mem_eraseIdx ho)
  refine howned.setRuns.setFlag ?_
  cases hclaimed : run.claimed with
  | true => exact Or.inr rfl
  | false => exact Or.inl (hkeep hclaimed other ho)

theorem step_apart {a : Action β} (h : Apart s) (ha : HandedOver s a) (hs : Steps s a t) :
    Apart t := by
  cases hs with
  | returns => exact h.note (by simp)
  | opens hflag hnew hfree =>
    have hne := h.ne_of_unflagged hflag
    exact h.frame rfl (fun run hr ho => ho.startup (hne run hr)) (h.spares.concat (by simp))
  | @waits broker hflag hnew =>
    refine h.frame rfl (fun run hr ho => ho.setWaiters ?_) h.spares
    have hne := h.ne_of_unflagged hflag run hr
    simpa [hne] using ho.waiting
  | @acquired broker waiters hfree hwaiters =>
    have hapart : ∀ run ∈ s.runs, run.broker ≠ broker ∧ run.broker ∉ waiters := by
      intro run hr
      have hwaiting := (h.owned run hr).waiting
      rw [hwaiters] at hwaiting
      simpa using hwaiting
    have hleft : Apart { s with waiters } :=
      h.frame rfl (fun run hr ho => ho.setWaiters (hapart run hr).2) h.spares
    exact hleft.enter fun run hr => (hapart run hr).1
  | abandoned place =>
    exact h.frame rfl (fun run hr ho =>
      ho.setWaiters fun hmem => ho.waiting (List.mem_of_mem_eraseIdx hmem)) h.spares
  | @started broker hs =>
    refine Apart.note (h.frame rfl (fun run hr ho => ?_) (h.spares.concat (by simp))) (by simp)
    have hne : run.broker ≠ broker := fun heq => ho.starting (heq ▸ hs)
    exact ⟨⟨by simpa [hne] using ho.started, ho.waiting, by simp, ho.closing⟩, ho.flag⟩
  | unstarted hs hfailed =>
    refine h.frame rfl (fun run hr ho => ?_) (h.spares.concat (by simp))
    exact ⟨⟨ho.started, ho.waiting, by simp [State.note], ho.closing⟩, ho.flag⟩
  | forgot broker => exact h.discard
  | closedNone => exact h.note (by simp)
  | @closes broker rest hnodup horder =>
    have hapart : ∀ run ∈ s.runs, run.broker ≠ broker ∧ run.broker ∉ rest := by
      intro run hr
      have hstarted := (h.owned run hr).started
      rw [← horder, List.mem_toFinset] at hstarted
      simpa using hstarted
    refine h.shutdown (fun run hr => (hapart run hr).1) ?_
    intro run hr closing hc
    rcases List.mem_append.mp hc with hold | hnew
    · exact (h.owned run hr).closing closing hold
    · rw [List.mem_singleton.mp hnew]
      exact (hapart run hr).2
  | proceeds failures hc =>
    exact (h.note (by simp)).proceed fun run hr =>
      (h.owned run hr).closing _ (List.mem_of_getElem? hc)
  | @cancelled place closing hc =>
    exact h.frame rfl (fun _ _ ho => (ho.eraseClosing place).note) (h.spares.concat (by simp))
  | runStarted broker publishers =>
    refine ⟨fun run hr => ?_, h.spares⟩
    rcases List.mem_append.mp hr with hold | hnew
    · exact (h.owned run hold).setRuns.setFlag (Or.inr rfl)
    · have hunpublished : Unpublished s broker := ha
      rw [List.mem_singleton.mp hnew]
      exact ⟨⟨hunpublished.started, hunpublished.waiting, hunpublished.starting,
        hunpublished.closing⟩, by simp [State.setFlag]⟩
  | @runStopped place run hr =>
    refine ⟨fun run' hr' => ?_, h.spares⟩
    have howned : Owned s run'.broker := by
      rcases List.mem_or_eq_of_mem_set hr' with hold | rfl
      · exact h.owned run' hold
      · exact h.owned run (List.mem_of_getElem? hr)
    exact howned.setRuns
  | @runForgot place run hr hpublishers => exact h.discard.runEnds (ha run hr)
  | @runEnded place run hr hpublishers => exact h.runEnds (ha run hr)

/-- In every run in which workers start on brokers nothing is published through, and none clears
the flag of a broker another one consumes from, `close_all` spares the brokers consumed from. -/
theorem spares_consumed (h : (machine β).Reach HandedOver s) : SparesConsumed s.log := by
  have hapart : Apart s := by
    refine h.invariant ?_ fun s a t _ hi ha hs => step_apart hi ha (steps_of_step hs)
    rintro s ⟨flags, rfl⟩
    exact ⟨by simp, by simp [SparesConsumed]⟩
  exact hapart.spares

/-- A worker runs on one broker while another is opened and closed for publishing, and the first
is published through once the worker is gone. -/
def sideBySide : List (Action Nat) :=
  [.ensureStarted 0, .startupEnds .returned, .runStarts 1 true, .ensureStarted 1, .closeAll [0],
    .shutdownEnds 0 .returned, .runStops 0, .runEnds 0, .ensureStarted 1, .startupEnds .returned,
    .closeAll [1]]

theorem spares_consumed_sideBySide : ∃ s,
    (machine Nat).runWhen HandedOver {} sideBySide = some s ∧
      .shutdownCalled 1 false ∈ s.log ∧ SparesConsumed s.log := by
  obtain ⟨s, hrun, hmem⟩ : ∃ s, (machine Nat).runWhen HandedOver {} sideBySide = some s ∧
    .shutdownCalled 1 false ∈ s.log := ⟨_, rfl, by decide⟩
  exact ⟨s, hrun, hmem,
    spares_consumed (Machine.Reach.runWhen (.start ⟨fun _ => false, rfl⟩) sideBySide hrun)⟩

/-- A worker starts on a broker that was opened for publishing: `close_all` shuts it down. -/
theorem consumed_broker_shut_down : ∃ s, (machine Nat).run {} [.ensureStarted 0,
    .startupEnds .returned, .runStarts 0 true, .closeAll [0]] = some s ∧
      ¬ SparesConsumed s.log := by
  obtain ⟨s, hrun, hmem⟩ : ∃ s, (machine Nat).run {} [.ensureStarted 0,
    .startupEnds .returned, .runStarts 0 true, .closeAll [0]] = some s ∧
      .shutdownCalled 0 true ∈ s.log := ⟨_, rfl, by decide⟩
  exact ⟨s, hrun, fun h => h 0 hmem⟩

end Ownership

end XtrMessenger.Taskiq
