import XtrMessenger.Worker.Run

/-! Which run a `stop` stops: the one in progress, else the next one, and no other. -/
namespace XtrMessenger.Worker
open Foundation
variable {ω : Type}

/-- Whether a stop was asked for since the last run ended, and whether it was before the run
in progress began. -/
def Event.asks : Event ω → Bool × Bool → Bool × Bool
  | .stop, (_, before) => (true, before)
  | .runs, (asked, _) => (asked, asked)
  | .ended _, _ => (false, false)
  | _, asked => asked

def stops (log : List (Event ω)) : Bool × Bool :=
  log.foldl (fun asked x => x.asks asked) (false, false)

/-- A stop was asked for since the last run ended. -/
def stopAsked (log : List (Event ω)) : Bool := (stops log).1

/-- A stop was asked for between the end of the last run and the start of the one in progress. -/
def stoppedBefore (log : List (Event ω)) : Bool := (stops log).2

/-- A message is asked for or collected. -/
def Event.collects : Event ω → Bool
  | .requested | .delivered _ => true
  | _ => false

/-- The state with an earlier history. -/
def State.after (log : List (Event ω)) (s : State ω) : State ω := { s with log := log ++ s.log }

/-- A stop reaches one run: a run asked to stop before it began collects nothing, and the next
run to begin goes on as it would in a worker just built, stopped first if a stop was asked for
since the last run ended. -/
structure StopsOneRun (worker : Worker) (s : State ω) : Prop where
  spent : Justified (fun pre x => x.collects = true → stoppedBefore pre = false) s.log
  asBuilt : s.phase = .idle → ∀ as, (machine ω worker).run s (.run :: as) =
    ((machine ω worker).run { stopRequested := stopAsked s.log } (.run :: as)).map
      (State.after s.log)

/-- A stop comes while `_stopped` is that of the run in progress, or none when no run is: not
after a run that ended before its `try` block, and not in a `finally` block. -/
def Heeding (s : State ω) : Action ω → Prop
  | .stop => match s.phase with
    | .idle => s.stopped = none
    | .closing _ | .stopping _ => False
    | _ => True
  | _ => True

section After
variable {worker : Worker} {s : State ω} (log : List (Event ω))

@[simp] theorem after_phase : (s.after log).phase = s.phase := rfl
@[simp] theorem after_stopped : (s.after log).stopped = s.stopped := rfl

@[simp] theorem after_note (e : Event ω) : (s.after log).note e = (s.note e).after log := by
  simp [State.after, State.note]

@[simp] theorem after_enter (p : Phase ω) : (s.after log).enter p = (s.enter p).after log := rfl

@[simp] theorem after_leave (raised : Option (Exc ω)) :
    (s.after log).leave raised = (s.leave raised).after log := rfl

@[simp] theorem after_start : (s.after log).start worker = (s.start worker).after log := rfl

@[simp] theorem after_stop : (s.after log).stop = s.stop.after log := by
  unfold State.stop
  cases h : s.stopped <;> simp [h, State.after]

@[simp] theorem after_finish (raised : Option (Exc ω)) :
    (s.after log).finish raised = (s.finish raised).after log := by
  simp [State.finish]

@[simp] theorem after_collect : (s.after log).collect = s.collect.after log := by
  unfold State.collect
  split_ifs with h h' h'
  · rfl
  · exact absurd h h'
  · exact absurd h' h
  · simp

@[simp] theorem after_take (fetch : Fetched ω) :
    (s.after log).take fetch = (s.take fetch).after log := by
  cases fetch <;> simp [State.take]

@[simp] theorem after_arrive (fetch : Fetched ω) :
    (s.after log).arrive fetch = (s.arrive fetch).after log := by
  cases fetch <;> simp [State.arrive]

/-- What a worker does next depends on its history no more than its state says. -/
theorem step_after (a : Action ω) :
    worker.step (s.after log) a = (worker.step s a).map (State.after log) := by
  unfold step
  rw [after_phase]
  split
  case h_7 =>
    by_cases hs : s.stopped = some true <;> simp [hs]
  all_goals simp [apply_ite (State.after log)]

theorem run_after (as : List (Action ω)) :
    (machine ω worker).run (s.after log) as =
      ((machine ω worker).run s as).map (State.after log) := by
  induction as generalizing s with
  | nil => rfl
  | cons a as ih =>
    simp only [Machine.run, machine, step_after]
    cases worker.step s a with
    | none => rfl
    | some t => exact ih

end After

/-- The run in progress listens to `_stopped`, which tells of every stop asked for since the
last run ended, those before it began included. -/
structure Hears (s : State ω) : Prop where
  unasked : s.stopRequested = false
  heard : s.stopped = some (stopAsked s.log)
  first : stoppedBefore s.log = true → stopAsked s.log = true

/-- What each phase says of the stops asked for. -/
def TellsStops (s : State ω) : Prop :=
  match s.phase with
  | .idle => s.stopRequested = stopAsked s.log
  | .starting | .opening => Hears s
  | .closing _ | .stopping _ => s.stopRequested = false
  | _ => Hears s ∧ stoppedBefore s.log = false

/-- A run asked to stop before it began has collected nothing. -/
abbrev Spent (log : List (Event ω)) : Prop :=
  Justified (fun pre x => x.collects = true → stoppedBefore pre = false) log

structure StopInv (s : State ω) : Prop where
  spent : Spent s.log
  tells : TellsStops s

@[simp] theorem stops_concat (log : List (Event ω)) (x : Event ω) :
    stops (log ++ [x]) = x.asks (stops log) := by
  simp [stops]

section Invariant
variable {worker : Worker} {s t : State ω}

/-- Events that neither collect nor tell of a stop. -/
def Event.Plain (x : Event ω) : Prop := x.collects = false ∧ ∀ asked, x.asks asked = asked

theorem Event.Plain.stops {x : Event ω} (hx : x.Plain) : stops (s.note x).log = stops s.log := by
  rw [State.note, stops_concat, hx.2]

theorem spent_note {x : Event ω} (h : Spent s.log) (hx : x.collects = false) :
    Spent (s.note x).log := justified_concat.mpr ⟨h, by simp [hx]⟩

theorem Hears.note {x : Event ω} (h : Hears s) (hx : x.Plain) : Hears (s.note x) where
  unasked := h.unasked
  heard := by
    rw [stopAsked, hx.stops]
    exact h.heard
  first := by
    rw [stoppedBefore, stopAsked, hx.stops]
    exact h.first

/-- Asking for the next message: a run stopped before it began does not get here. -/
theorem Hears.collect (h : Hears s) (hs : Spent s.log) : StopInv s.collect := by
  have hfirst := h.first
  unfold State.collect
  split_ifs with hstop
  · exact ⟨hs, h.unasked⟩
  · have hasked : stopAsked s.log = false := by simpa [h.heard] using hstop
    have hbefore : stoppedBefore s.log = false := by simpa [hasked] using hfirst
    refine ⟨justified_concat.mpr ⟨hs, fun _ => hbefore⟩, ⟨h.unasked, ?_, ?_⟩, ?_⟩
    · simpa [State.note, State.enter, stopAsked, Event.asks] using h.heard
    · simpa [State.note, State.enter, stopAsked, stoppedBefore, Event.asks] using hfirst
    · simpa [State.note, State.enter, stoppedBefore, Event.asks] using hbefore

theorem finish_inv (hs : Spent s.log) (h : s.stopRequested = false) (raised : Option (Exc ω)) :
    StopInv (s.finish raised) where
  spent := spent_note hs rfl
  tells := by
    simpa [State.finish, State.note, State.enter, TellsStops, stopAsked, Event.asks] using h

/-- A run that may collect. -/
structure Collects (s : State ω) : Prop where
  spent : Spent s.log
  hears : Hears s
  unstopped : stoppedBefore s.log = false

theorem Collects.arrive (h : Collects s) (fetch : Fetched ω) : Collects (s.arrive fetch) := by
  cases fetch with
  | delivered e =>
    refine ⟨justified_concat.mpr ⟨h.spent, fun _ => h.unstopped⟩, ⟨h.hears.unasked, ?_, ?_⟩, ?_⟩
    · simpa [State.arrive, State.note, stopAsked, Event.asks] using h.hears.heard
    · simpa [State.arrive, State.note, stopAsked, stoppedBefore, Event.asks] using h.hears.first
    · simpa [State.arrive, State.note, stoppedBefore, Event.asks] using h.unstopped
  | exhausted => exact h
  | raised e => exact h
  | cancelled => exact h

theorem Collects.take (h : Collects s) (fetch : Fetched ω) : StopInv (s.take fetch) := by
  cases fetch with
  | delivered e => exact ⟨h.spent, ⟨h.hears.1, h.hears.2, h.hears.3⟩, h.unstopped⟩
  | exhausted => exact ⟨h.spent, h.hears.unasked⟩
  | raised e => exact ⟨h.spent, h.hears.unasked⟩
  | cancelled => exact ⟨h.spent, h.hears.unasked⟩

theorem Collects.note {x : Event ω} (h : Collects s) (hx : x.Plain) : Collects (s.note x) where
  spent := spent_note h.spent hx.1
  hears := h.hears.note hx
  unstopped := by
    rw [stoppedBefore, hx.stops]
    exact h.unstopped

theorem plain_call (c : Call ω) : (Event.call c).Plain := ⟨rfl, fun _ => rfl⟩
theorem plain_announced (e : WorkerEvent) (r : Option (Exc ω)) : (Event.announced e r).Plain :=
  ⟨rfl, fun _ => rfl⟩
theorem plain_opened (r : Option (Exc ω)) : (Event.opened r).Plain := ⟨rfl, fun _ => rfl⟩

theorem Hears.enter (h : Hears s) (p : Phase ω) : Hears (s.enter p) :=
  ⟨h.unasked, h.heard, h.first⟩

theorem stop_of_some {b : Bool} (h : s.stopped = some b) : (s.note .stop).stop =
    { s with stopped := some true, log := s.log ++ [.stop] } := by
  simp [State.stop, State.note, h]

theorem stop_of_none (h : s.stopped = none) : (s.note .stop).stop =
    { s with stopRequested := true, log := s.log ++ [.stop] } := by
  simp [State.stop, State.note, h]

/-- The run in progress hears of a stop. -/
theorem Hears.stop (h : Hears s) : Hears (s.note .stop).stop := by
  rw [stop_of_some h.heard]
  exact ⟨h.unasked, by simp [stopAsked, Event.asks], by simp [stopAsked, Event.asks]⟩

/-- A stop that is heeded is heard by the run in progress, or kept for the next. -/
theorem StopInv.stop (hi : StopInv s) (hs : Heeding s .stop) : StopInv (s.note .stop).stop := by
  have htells := hi.tells
  have hbefore : stoppedBefore (s.note .stop).stop.log = stoppedBefore s.log := by
    simp [State.log_stop, State.note, stoppedBefore, Event.asks]
  refine ⟨(State.log_stop _).symm ▸ justified_concat.mpr ⟨hi.spent, by simp [Event.collects]⟩, ?_⟩
  unfold TellsStops at htells ⊢
  rw [State.phase_stop, hbefore, show (s.note .stop).phase = s.phase from rfl]
  simp only [Heeding] at hs
  cases hp : s.phase with
  | idle =>
    rw [hp] at hs
    rw [stop_of_none hs]
    simp [stopAsked, Event.asks]
  | starting =>
    rw [hp] at htells
    exact htells.stop
  | opening =>
    rw [hp] at htells
    exact htells.stop
  | closing raised => simp [hp] at hs
  | stopping raised => simp [hp] at hs
  | _ =>
    rw [hp] at htells
    exact ⟨htells.1.stop, htells.2⟩

theorem step_stopInv {a : Action ω} (hi : StopInv s) (ha : Heeding s a)
    (h : Steps worker s a t) : StopInv t := by
  have htells := hi.tells
  unfold TellsStops at htells
  cases h with
  | stop => exact hi.stop ha
  | run hph =>
    rw [hph] at htells
    have hasked : Hears ((s.note .runs).start worker) :=
      ⟨rfl, by simp [State.start, State.note, stopAsked, Event.asks, htells],
        by simp [State.start, State.note, stopAsked, stoppedBefore, Event.asks]⟩
    refine ⟨spent_note (s := s) hi.spent rfl, ?_⟩
    unfold TellsStops State.start
    cases worker.hasDispatcher <;> exact ⟨hasked.1, hasked.2, hasked.3⟩
  | started hph =>
    rw [hph] at htells
    exact ⟨spent_note hi.spent rfl, (htells.note (plain_announced _ _)).enter _⟩
  | startFailed hph e =>
    rw [hph] at htells
    exact finish_inv (spent_note hi.spent rfl) htells.unasked _
  | opened hph =>
    rw [hph] at htells
    exact (htells.note (plain_opened _)).collect (spent_note hi.spent rfl)
  | openFailed hph e =>
    rw [hph] at htells
    exact finish_inv (spent_note hi.spent rfl) htells.unasked _
  | fetched hph fetch =>
    rw [hph] at htells
    have hc := Collects.arrive ⟨hi.spent, htells.1, htells.2⟩ fetch
    exact ⟨hc.spent, hc.hears.enter _, hc.unstopped⟩
  | woken fetch hph =>
    rw [hph] at htells
    exact Collects.take ⟨hi.spent, htells.1, htells.2⟩ fetch
  | halted hph hs =>
    rw [hph] at htells
    exact ⟨hi.spent, htells.1.enter _, htells.2⟩
  | gathered hph fetch =>
    rw [hph] at htells
    exact (Collects.arrive ⟨hi.spent, htells.1, htells.2⟩ fetch).take fetch
  | settle e hph world =>
    rw [hph] at htells
    exact ⟨hi.spent, htells.1.enter _, htells.2⟩
  | perform c todo result hph =>
    rw [hph] at htells
    have hc := Collects.note ⟨hi.spent, htells.1, htells.2⟩ (plain_call c)
    exact ⟨hc.spent, hc.hears.enter _, hc.unstopped⟩
  | settled hph hd =>
    rw [hph] at htells
    exact ⟨hi.spent, htells.1.enter _, htells.2⟩
  | settledUnheard hph hd =>
    rw [hph] at htells
    exact htells.1.collect hi.spent
  | settleFailed e hph =>
    rw [hph] at htells
    exact ⟨hi.spent, htells.1.unasked⟩
  | ran hph =>
    rw [hph] at htells
    exact (htells.1.note (plain_announced _ _)).collect (spent_note hi.spent rfl)
  | runFailed hph e =>
    rw [hph] at htells
    exact ⟨spent_note hi.spent rfl, htells.1.unasked⟩
  | closed raised hph hd =>
    rw [hph] at htells
    exact ⟨spent_note hi.spent rfl, htells⟩
  | closedUnheard raised hph hd =>
    rw [hph] at htells
    exact finish_inv (spent_note hi.spent rfl) htells _
  | closeFailed raised hph e =>
    rw [hph] at htells
    exact finish_inv (spent_note hi.spent rfl) htells _
  | stopped raised hph raised' =>
    rw [hph] at htells
    exact finish_inv (spent_note hi.spent rfl) htells _

theorem reach_stopInv (h : (machine ω worker).Reach Heeding s) : StopInv s := by
  refine h.invariant ?_ fun s a t _ hi ha hs => step_stopInv hi ha (steps_of_step hs)
  rintro s rfl
  exact ⟨.nil, rfl⟩

/-- Between runs, whether the next one begins stopped is all that is left of the earlier ones. -/
theorem run_asBuilt (hp : s.phase = .idle) (hs : s.stopRequested = stopAsked s.log)
    (as : List (Action ω)) : (machine ω worker).run s (.run :: as) =
      ((machine ω worker).run { stopRequested := stopAsked s.log } (.run :: as)).map
        (State.after s.log) := by
  have hstart : (s.note .runs).start worker = State.after s.log
      ((({ stopRequested := stopAsked s.log } : State ω).note .runs).start worker) := by
    simp [State.start, State.note, State.after, hs]
  have hrun : (machine ω worker).step s .run = some ((s.note .runs).start worker) := by
    simp [machine, step, hp]
  simp only [Machine.run, hrun, Option.bind_some]
  rw [hstart, run_after]
  rfl

end Invariant

variable {worker : Worker} {s : State ω}

/-- In every run of a worker whose stops all come while `_stopped` tells whether it runs, a
stop reaches the run in progress or the next one, and no other. -/
theorem stops_one_run (h : (machine ω worker).Reach Heeding s) : StopsOneRun worker s := by
  obtain ⟨hspent, htells⟩ := reach_stopInv h
  refine ⟨hspent, fun hp as => run_asBuilt hp ?_ as⟩
  rw [TellsStops, hp] at htells
  exact htells

theorem stops_one_run_second : StopsOneRun {}
    ({ stopped := some false
       phase := .collected ⟨(), []⟩
       log := [.stop, .runs, .opened none, .closed none, .ended none, .runs, .opened none,
         .requested, .delivered ⟨(), []⟩] } : State Unit) := by
  have hstop : (machine Unit {}).Reach Heeding (({} : State Unit).note .stop).stop :=
    .next (a := .stop) (.start rfl) rfl rfl
  exact stops_one_run (hstop.run [.run, .opened none, .closed none, .run, .opened none,
    .fetched (.delivered ⟨(), []⟩), .wake] (by simp [Heeding]) rfl)

/-- A stop asked for after a started listener raised sets the event of the run it ended: the
next run goes on to collect. -/
theorem stop_after_failed_start_lost : ¬∀ (worker : Worker) (s : State Unit),
    (machine Unit worker).Reachable s → StopsOneRun worker s := by
  intro h
  have hr : (machine Unit { hasDispatcher := true }).Reachable _ :=
    Machine.Reachable.run (.start rfl) [.run, .announced (some (.exception "ValueError" "no")),
      .stop, .run, .announced none, .opened none] rfl
  have hnone := (h _ _ hr).spent
    [.runs, .announced .started (some (.exception "ValueError" "no")),
      .ended (some (.exception "ValueError" "no")), .stop, .runs, .announced .started none,
      .opened none] .requested [] rfl rfl
  exact absurd hnone (by decide)

end XtrMessenger.Worker
