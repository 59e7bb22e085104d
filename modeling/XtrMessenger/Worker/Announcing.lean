import XtrMessenger.Worker.Run

/-! A worker that announced its start announces that it stopped: once, and last. -/
namespace XtrMessenger.Worker
open Foundation
variable {ω : Type}

def Event.since : List (Event ω) → Event ω → List (Event ω)
  | _, .runs => []
  | run, x => run ++ [x]

/-- What happened since the last run began. -/
def currentRun (log : List (Event ω)) : List (Event ω) := log.foldl Event.since []

/-- The stop was announced once, after all else that happened in the run, closing what was
opened included. -/
def StoppedLast (run : List (Event ω)) : Prop :=
  ∃ before raised, run = before ++ [.announced .stopped raised] ∧
    (∀ r, .announced .stopped r ∉ before) ∧ (.opened none ∈ before → ∃ r, .closed r ∈ before)

/-- Every run that announced its start has announced its stop by the time it ended. -/
abbrev AnnouncesStop (log : List (Event ω)) : Prop :=
  Justified (fun pre x => ∀ raised, x = .ended raised →
    (∃ r, .announced .started r ∈ currentRun pre) → StoppedLast (currentRun pre)) log

/-- A started listener, `get` or closing the stream raises: what is awaited around the loop,
before the stop is announced. -/
def raisesAround (s : State ω) (a : Action ω) : Bool :=
  match s.phase, a with
  | .starting, .announced raised | .opening, .opened raised | .closing _, .closed raised =>
    raised.isSome
  | _, _ => false

/-- In a worker that announces anything, nothing is raised around the loop. -/
def Shutting (worker : Worker) (s : State ω) (a : Action ω) : Prop :=
  worker.hasDispatcher = true → raisesAround s a = false

instance (worker : Worker) (s : State ω) (a : Action ω) : Decidable (Shutting worker s a) :=
  inferInstanceAs (Decidable (_ → _))

theorem currentRun_concat (log : List (Event ω)) (x : Event ω) :
    currentRun (log ++ [x]) = Event.since (currentRun log) x := by
  simp [currentRun]

/-- A run in progress, whose stop was not announced. -/
structure Unstopped (worker : Worker) (log : List (Event ω)) : Prop where
  announces : AnnouncesStop log
  unstopped : ∀ r, .announced .stopped r ∉ currentRun log
  unheard : worker.hasDispatcher = false → ∀ r, .announced .started r ∉ currentRun log

def AnnouncesInv (worker : Worker) (s : State ω) : Prop :=
  match s.phase with
  | .idle => AnnouncesStop s.log
  | .starting => Unstopped worker s.log ∧ worker.hasDispatcher = true
  | .stopping _ => Unstopped worker s.log ∧ ∃ r, .closed r ∈ currentRun s.log
  | _ => Unstopped worker s.log

variable {worker : Worker} {s t : State ω}

theorem AnnouncesStop.note (h : AnnouncesStop s.log) {x : Event ω} (hx : ∀ r, x ≠ .ended r) :
    AnnouncesStop (s.note x).log :=
  justified_concat.mpr ⟨h, fun raised he => absurd he (hx raised)⟩

/-- Events of a run other than its end and the announcement that it stopped. -/
structure Event.Within (worker : Worker) (x : Event ω) : Prop where
  since : ∀ run, Event.since run x = run ++ [x]
  unended : ∀ r, x ≠ .ended r
  unstopped : ∀ r, x ≠ .announced .stopped r
  heard : ∀ r, x = .announced .started r → worker.hasDispatcher = true

theorem Unstopped.note (h : Unstopped worker s.log) {x : Event ω} (hx : x.Within worker) :
    Unstopped worker (s.note x).log := by
  have hrun : currentRun (s.note x).log = currentRun s.log ++ [x] := by
    rw [State.note, currentRun_concat, hx.since]
  refine ⟨AnnouncesStop.note h.announces hx.unended, fun r hm => ?_, fun hd r hm => ?_⟩
  · rw [hrun, List.mem_append, List.mem_singleton] at hm
    rcases hm with hm | hm
    · exact h.unstopped r hm
    · exact hx.unstopped r hm.symm
  · rw [hrun, List.mem_append, List.mem_singleton] at hm
    rcases hm with hm | hm
    · exact h.unheard hd r hm
    · simp [hx.heard r hm.symm] at hd

theorem within_stop : (Event.stop : Event ω).Within worker := by constructor <;> simp [Event.since]
theorem within_opened (r : Option (Exc ω)) : (Event.opened r).Within worker := by
  constructor <;> simp [Event.since]
theorem within_requested : (Event.requested : Event ω).Within worker := by
  constructor <;> simp [Event.since]
theorem within_delivered (e : Envelope ω) : (Event.delivered e).Within worker := by
  constructor <;> simp [Event.since]
theorem within_call (c : Call ω) : (Event.call c).Within worker := by
  constructor <;> simp [Event.since]
theorem within_closed (r : Option (Exc ω)) : (Event.closed r).Within worker := by
  constructor <;> simp [Event.since]
theorem within_running (r : Option (Exc ω)) : (Event.announced .running r).Within worker := by
  constructor <;> simp [Event.since]
theorem within_started (hd : worker.hasDispatcher = true) (r : Option (Exc ω)) :
    (Event.announced .started r).Within worker := by
  constructor <;> simp [Event.since, hd]

theorem Unstopped.collect (h : Unstopped worker s.log) : AnnouncesInv worker s.collect := by
  unfold State.collect
  split_ifs
  · exact h
  · exact h.note within_requested

theorem Unstopped.arrive (h : Unstopped worker s.log) (fetch : Fetched ω) :
    Unstopped worker (s.arrive fetch).log := by
  cases fetch with
  | delivered e => exact h.note (within_delivered e)
  | exhausted => exact h
  | raised e => exact h
  | cancelled => exact h

theorem Unstopped.take (h : Unstopped worker s.log) (fetch : Fetched ω) :
    AnnouncesInv worker (s.take fetch) := by
  cases fetch <;> exact h

/-- A run nobody heard begin has nothing to announce as it ends. -/
theorem Unstopped.finish (h : Unstopped worker s.log) (hd : worker.hasDispatcher = false)
    (raised : Option (Exc ω)) : AnnouncesInv worker (s.finish raised) :=
  justified_concat.mpr ⟨h.announces, fun _ _ ⟨r, hr⟩ => absurd hr (h.unheard hd r)⟩

theorem Unstopped.announce (h : Unstopped worker s.log) (hc : ∃ r, .closed r ∈ currentRun s.log)
    (raised raised' : Option (Exc ω)) :
    AnnouncesInv worker ((s.note (.announced .stopped raised)).finish raised') := by
  have hstopped : AnnouncesStop (s.note (.announced .stopped raised)).log :=
    AnnouncesStop.note h.announces (by simp)
  refine justified_concat.mpr ⟨hstopped, fun _ _ _ => ⟨currentRun s.log, raised, ?_, h.unstopped,
    fun _ => hc⟩⟩
  rw [State.note, currentRun_concat]
  rfl

theorem AnnouncesInv.stop (hi : AnnouncesInv worker s) :
    AnnouncesInv worker (s.note .stop).stop := by
  unfold AnnouncesInv at hi ⊢
  rw [State.phase_stop, State.log_stop, show (s.note .stop).phase = s.phase from rfl]
  cases hp : s.phase with
  | idle =>
    rw [hp] at hi
    exact AnnouncesStop.note hi (by simp)
  | starting =>
    rw [hp] at hi
    exact ⟨hi.1.note within_stop, hi.2⟩
  | stopping raised =>
    rw [hp] at hi
    obtain ⟨r, hr⟩ := hi.2
    refine ⟨hi.1.note within_stop, r, ?_⟩
    rw [State.note, currentRun_concat]
    exact List.mem_append_left _ hr
  | _ =>
    rw [hp] at hi
    exact Unstopped.note hi within_stop

theorem step_announcesInv {a : Action ω} (hi : AnnouncesInv worker s) (ha : Shutting worker s a)
    (h : Steps worker s a t) : AnnouncesInv worker t := by
  have hp := hi
  unfold AnnouncesInv at hp
  unfold Shutting at ha
  cases h with
  | stop => exact hi.stop
  | run hph =>
    rw [hph] at hp
    have hbegun : Unstopped worker (s.note .runs).log := by
      refine ⟨AnnouncesStop.note hp (by simp), fun r => ?_, fun _ r => ?_⟩ <;>
        simp [State.note, currentRun_concat, Event.since]
    unfold State.start AnnouncesInv
    cases hd : worker.hasDispatcher with
    | true => exact ⟨hbegun, rfl⟩
    | false => exact hbegun
  | started hph =>
    rw [hph] at hp
    exact hp.1.note (within_started hp.2 none)
  | startFailed hph e =>
    rw [hph] at hp
    exact absurd (ha hp.2) (by simp [raisesAround, hph])
  | opened hph =>
    rw [hph] at hp
    exact Unstopped.collect (hp.note (within_opened none))
  | openFailed hph e =>
    rw [hph] at hp
    cases hd : worker.hasDispatcher with
    | true => exact absurd (ha hd) (by simp [raisesAround, hph])
    | false => exact Unstopped.finish (hp.note (within_opened _)) hd _
  | fetched hph fetch =>
    rw [hph] at hp
    exact hp.arrive fetch
  | woken fetch hph =>
    rw [hph] at hp
    exact hp.take fetch
  | halted hph hs =>
    rw [hph] at hp
    exact hp
  | gathered hph fetch =>
    rw [hph] at hp
    exact (hp.arrive fetch).take fetch
  | settle e hph world =>
    rw [hph] at hp
    exact hp
  | perform c todo result hph =>
    rw [hph] at hp
    exact hp.note (within_call c)
  | settled hph hd =>
    rw [hph] at hp
    exact hp
  | settledUnheard hph hd =>
    rw [hph] at hp
    exact hp.collect
  | settleFailed e hph =>
    rw [hph] at hp
    exact hp
  | ran hph =>
    rw [hph] at hp
    exact Unstopped.collect (hp.note (within_running none))
  | runFailed hph e =>
    rw [hph] at hp
    exact hp.note (within_running _)
  | closed raised hph hd =>
    rw [hph] at hp
    refine ⟨hp.note (within_closed none), none, ?_⟩
    simp [State.note, State.enter, currentRun_concat, Event.since]
  | closedUnheard raised hph hd =>
    rw [hph] at hp
    exact Unstopped.finish (hp.note (within_closed none)) hd _
  | closeFailed raised hph e =>
    rw [hph] at hp
    cases hd : worker.hasDispatcher with
    | true => exact absurd (ha hd) (by simp [raisesAround, hph])
    | false => exact Unstopped.finish (hp.note (within_closed _)) hd _
  | stopped raised hph raised' =>
    rw [hph] at hp
    exact hp.1.announce hp.2 _ _

theorem reach_announcesInv (h : (machine ω worker).Reach (Shutting worker) s) :
    AnnouncesInv worker s := by
  refine h.invariant ?_ fun s a t _ hi ha hs => step_announcesInv hi ha (steps_of_step hs)
  rintro s rfl
  exact .nil

theorem AnnouncesInv.announces (h : AnnouncesInv worker s) : AnnouncesStop s.log := by
  unfold AnnouncesInv at h
  split at h
  · exact h
  · exact h.1.announces
  · exact h.1.announces
  · exact h.announces

/-- In every run in which beginning to run and closing the stream raise nothing, a worker that
announced its start has announced its stop by the time it ended, once and last. -/
theorem announces_stop (h : (machine ω worker).Reach (Shutting worker) s) : AnnouncesStop s.log :=
  (reach_announcesInv h).announces

theorem announces_stop_running_raised : AnnouncesStop
    ([.runs, .announced .started none, .opened none, .requested, .delivered ⟨(), []⟩,
      .call (.received ⟨(), []⟩ "" (.ok ([], false))), .call (.ack ⟨(), []⟩ none),
      .announced .running (some (.exception "ValueError" "no")), .closed none,
      .announced .stopped none, .ended (some (.exception "ValueError" "no"))] :
        List (Event Unit)) := by
  let world : World Unit :=
    { bus := .ok
      listeners := ⟨fun _ _ => .ok ([], false), fun _ _ => .ok [], fun _ _ _ _ => ([], none)⟩
      ack := fun _ => none
      reject := fun _ => none
      reset := none }
  have hr : (machine Unit { hasDispatcher := true }).Reach (Shutting { hasDispatcher := true }) _ :=
    Machine.Reach.runWhen (.start rfl) [.run, .announced none, .opened none,
      .fetched (.delivered ⟨(), []⟩), .wake, .settle world, .perform, .perform, .perform,
      .announced (some (.exception "ValueError" "no")), .closed none, .announced none] rfl
  exact announces_stop hr

/-- When a started listener raises, the worker ends without announcing that it stopped. -/
theorem failed_start_unannounced : ¬∀ (worker : Worker) (s : State Unit),
    (machine Unit worker).Reachable s → AnnouncesStop s.log := by
  intro h
  have hr : (machine Unit { hasDispatcher := true }).Reachable _ :=
    Machine.Reachable.run (.start rfl) [.run, .announced (some (.exception "ValueError" "no"))] rfl
  have hlast := h _ _ hr [.runs, .announced .started (some (.exception "ValueError" "no"))]
    (.ended (some (.exception "ValueError" "no"))) [] rfl _ rfl
    ⟨some (.exception "ValueError" "no"), by simp [currentRun, Event.since]⟩
  obtain ⟨before, raised, hrun, -⟩ := hlast
  have hend := congrArg List.getLast? hrun
  simp [currentRun, Event.since] at hend

end XtrMessenger.Worker
