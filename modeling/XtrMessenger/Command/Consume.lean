import XtrMessenger.Worker.Run

/-! `messenger:consume`: commands that run one worker each, one after another in a process whose
SIGTERM they borrow. -/
namespace XtrMessenger.Command
open Foundation
variable {ω : Type}

/-- What is installed for SIGTERM. -/
inductive Disposition
  | default
  | ignored
  | function (handler : Nat)
  /-- A handler installed from C, which `signal.getsignal` reports as `None`. -/
  | native
  /-- The function an event loop installs, to be told. -/
  | loop
  deriving DecidableEq, Repr

/-- What the event loop calls on SIGTERM. -/
inductive Callback
  | stop (worker : Nat)
  | application (callback : Nat)
  deriving DecidableEq, Repr

/-- What a SIGTERM comes to. -/
inductive Bearing
  | kills
  | ignored
  | calls (handler : Nat)
  | native
  | asks (callback : Callback)
  /-- The loop is told, and has nothing to call. -/
  | unheard
  deriving DecidableEq, Repr

def bearing (disposition : Disposition) (handler : Option Callback) : Bearing :=
  match disposition with
  | .default => .kills
  | .ignored => .ignored
  | .function handler => .calls handler
  | .native => .native
  | .loop => handler.elim .unheard .asks

/-- `MessageBusError` and what the package derives from it. -/
def messageBusErrors : List String :=
  ["MessageBusError", "DelayedMessageHandlingError", "HandlerSignatureError",
    "HandlersFailedError", "IncompatibleReceiversError", "InvalidDsnError",
    "InvalidMiddlewareArgumentsError", "InvalidTransportOptionError",
    "MessageDecodingFailedError", "MessageEncodingFailedError", "MissingSerializerError",
    "MixedDsnError", "NoHandlerForMessageError", "NoSenderForMessageError",
    "NotConsumableError", "UnknownMessageNameError", "UnknownMiddlewareError",
    "UnknownTransportError", "UnknownTransportOptionError", "UnsupportedDsnError",
    "UnsupportedStampError"]

inductive ExitCode
  | success | failure | invalid
  deriving DecidableEq, Repr

inductive Style
  | error | success | note
  deriving DecidableEq, Repr

/-- How `_run` ended: `worker.run()` returned or raised, or its task was cancelled. -/
inductive Ending (ω : Type)
  | returned
  | raised (error : Exc ω)
  | cancelled

/-- A command whose worker runs, or ran. -/
structure Running (ω : Type) where
  id : Nat
  worker : Worker
  state : Worker.State ω
  /-- The time limit's timer, armed. -/
  timer : Bool
  /-- What `_stop_on_sigterm` returned. -/
  arranged : Bool
  previous : Option Disposition

inductive Event (ω : Type)
  /-- The application installs what gives SIGTERM this bearing. -/
  | installed (bearing : Bearing)
  | wrote (style : Style) (text : String)
  | began (worker : Nat) (arranged : Bool)
  | arrived (bearing : Bearing)
  /-- The loop, told of a SIGTERM, schedules what it calls. -/
  | noticed (callback : Callback)
  | timedOut (worker : Nat)
  | stopped (worker : Nat)
  | called (callback : Nat)
  | ended (worker : Nat) (arranged : Bool) (ending : Ending ω)
  | exited (code : ExitCode)
  | raised (error : Exc ω)

/-- What an application installs for SIGTERM: with `signal.signal`, or on its loop. -/
inductive Installation
  | signal (disposition : Disposition)
  | onLoop (callback : Nat)

inductive Action (ω : Type)
  | install (installation : Installation)
  /-- The command is called; `built` is what the worker factory makes of the transports, and
  `arranges` whether the loop can handle signals. -/
  | consume (transports : List String) (limited : Bool) (built : Except (Exc ω) Worker)
    (arranges : Bool)
  | sigterm
  /-- The loop reads that a signal came. -/
  | notice
  /-- The loop calls the first of what it scheduled. -/
  | callback
  | timeout
  | work (action : Worker.Action ω)
  | cancel

structure State (ω : Type) where
  dead : Bool := false
  disposition : Disposition := .default
  /-- What the loop has for SIGTERM. -/
  handler : Option Callback := none
  /-- Signals the loop was told of and did not read yet. -/
  unread : Nat := 0
  ready : List Callback := []
  command : Option (Running ω) := none
  finished : List (Running ω) := []
  built : Nat := 0
  log : List (Event ω) := []

namespace State

def note (s : State ω) (e : Event ω) : State ω := { s with log := s.log ++ [e] }

def bearing (s : State ω) : Bearing := Command.bearing s.disposition s.handler

/-- `signal.getsignal(signal.SIGTERM)`. -/
def getsignal (s : State ω) : Option Disposition :=
  if s.disposition = .native then none else some s.disposition

/-- `loop.add_signal_handler(signal.SIGTERM, callback)`. -/
def addSignalHandler (s : State ω) (callback : Callback) : State ω :=
  { s with disposition := .loop, handler := some callback }

/-- `loop.remove_signal_handler(signal.SIGTERM)`, of a loop that has one. -/
def removeSignalHandler (s : State ω) : State ω :=
  { s with disposition := .default, handler := none }

/-- `signal.signal(signal.SIGTERM, disposition)`. -/
def signal (s : State ω) (disposition : Disposition) : State ω :=
  { s with disposition := disposition }

/-- Only what an application does between commands, with `signal.signal` where the loop has
nothing to call. -/
def install (s : State ω) : Installation → Option (State ω)
  | .signal disposition =>
    if s.handler = none ∧ disposition ≠ .loop then
      some ((s.signal disposition).note (.installed (Command.bearing disposition none)))
    else none
  | .onLoop callback =>
    some ((s.addSignalHandler (.application callback)).note
      (.installed (.asks (.application callback))))

def restoreSigterm (s : State ω) (previous : Option Disposition) : State ω :=
  match previous with
  | none => s.removeSignalHandler
  | some previous => s.removeSignalHandler.signal previous

/-- `_run` up to its await: the timer, `_stop_on_sigterm` and the start of `worker.run()`. -/
def run (s : State ω) (worker : Worker) (limited arranges : Bool) : State ω :=
  let running : Running ω :=
    { id := s.built, worker, state := (({} : Worker.State ω).note .runs).start worker,
      timer := limited, arranged := arranges,
      previous := if arranges then s.getsignal else none }
  let s := if arranges then s.addSignalHandler (.stop s.built) else s
  ({ s with command := some running, built := s.built + 1 }).note (.began running.id arranges)

/-- The `finally` block of `_run`. -/
def done (s : State ω) (running : Running ω) (ending : Ending ω) : State ω :=
  let s := if running.arranged then s.restoreSigterm running.previous else s
  { s with
    command := none
    finished := s.finished ++ [{ running with timer := false }]
    log := s.log ++ [.ended running.id running.arranged ending] }

/-- What the command does with how `_run` ended. -/
def finish (s : State ω) (running : Running ω) (ending : Ending ω) : State ω :=
  let s := s.done running ending
  match ending with
  | .returned => s.note (.exited .success)
  | .raised error => s.note (.raised error)
  | .cancelled => s

/-- `__call__`, up to its await. -/
def consume (escape : String → String) (s : State ω) (transports : List String) (limited : Bool)
    (built : Except (Exc ω) Worker) (arranges : Bool) : State ω :=
  if transports.isEmpty then
    (s.note (.wrote .error "Name at least one transport to consume.")).note (.exited .invalid)
  else match built with
    | .error error =>
      if error.typeName ∈ messageBusErrors then
        match error.str with
        | .ok text => (s.note (.wrote .error (escape text))).note (.exited .failure)
        | .error raised => s.note (.raised raised)
      else s.note (.raised error)
    | .ok worker =>
      let s := s.note (.wrote .success
        ("Consuming messages from " ++ escape (", ".intercalate transports) ++ "."))
      (s.note (.wrote .note "Quit the worker with CONTROL-C.")).run worker limited arranges

/-- `worker.stop()`, of a worker that runs or one that is done. -/
def stopWorker (s : State ω) (worker : Nat) : State ω :=
  { s with
    command := s.command.map fun running =>
      if running.id = worker then
        { running with state := (running.state.note .stop).stop }
      else running
    log := s.log ++ [.stopped worker] }

def sigterm (s : State ω) : State ω :=
  { s with
    dead := s.dead || s.disposition = .default
    unread := if s.disposition = .loop then s.unread + 1 else s.unread
    log := s.log ++ [.arrived s.bearing] }

def notice (s : State ω) : Option (State ω) :=
  match s.unread with
  | 0 => none
  | unread + 1 =>
    let s := { s with unread := unread }
    some (match s.handler with
      | none => s
      | some callback => ({ s with ready := s.ready ++ [callback] }).note (.noticed callback))

def callback (s : State ω) : Option (State ω) :=
  match s.ready with
  | [] => none
  | .stop worker :: ready => some ({ s with ready := ready }.stopWorker worker)
  | .application callback :: ready => some ({ s with ready := ready }.note (.called callback))

end State

/-- What `worker.run()` ended with, once it did. -/
def endingOf (state : Worker.State ω) : Ending ω :=
  match state.log.getLast? with
  | some (.ended (some error)) => .raised error
  | _ => .returned

/-- What the worker does is a step of its own; where its run ends, so does the command. -/
def State.work (s : State ω) (running : Running ω) (action : Worker.Action ω) :
    Option (State ω) :=
  match action with
  | .run | .stop => none
  | action => (running.worker.step running.state action).map fun state =>
    let running := { running with state := state }
    match state.phase with
    | .idle => s.finish running (endingOf state)
    | _ => { s with command := some running }

def step (escape : String → String) (s : State ω) (a : Action ω) : Option (State ω) :=
  if s.dead then none
  else match a, s.command with
    | .install installation, none => s.install installation
    | .consume transports limited built arranges, none =>
      some (s.consume escape transports limited built arranges)
    | .sigterm, _ => some s.sigterm
    | .notice, _ => s.notice
    | .callback, _ => s.callback
    | .timeout, some running =>
      if running.timer then
        some ((({ s with command := some { running with timer := false } }).note
          (.timedOut running.id)).stopWorker running.id)
      else none
    | .work action, some running => s.work running action
    | .cancel, some running => some (s.finish running .cancelled)
    | _, _ => none

def machine (ω : Type) (escape : String → String) : Machine (State ω) (Action ω) where
  init s := s = {}
  step := step escape

/-- What a SIGTERM comes to once a command that borrowed it is done: a handler from C cannot be
put back, and what the loop had to call is gone. -/
def Bearing.handedBack : Bearing → Bearing
  | native => kills
  | asks _ => unheard
  | bearing => bearing

/-- What a SIGTERM comes to, and what it came to before the command in progress. -/
def Event.bears : Event ω → Bearing × Bearing → Bearing × Bearing
  | .installed bearing, _ => (bearing, bearing)
  | .began worker true, (now, _) => (.asks (.stop worker), now)
  | .ended _ true _, (_, before) => (before.handedBack, before.handedBack)
  | _, bearings => bearings

def bearings (log : List (Event ω)) : Bearing × Bearing :=
  log.foldl (fun bearings e => e.bears bearings) (.kills, .kills)

/-- The worker of the command in progress. -/
def inProgress (log : List (Event ω)) : Option Nat :=
  log.foldl (fun inProgress e => match e with
    | .began worker _ => some worker
    | .ended _ _ _ => none
    | _ => inProgress) none

def Event.told : Event ω → Bool
  | .arrived (.asks _) | .arrived .unheard => true
  | _ => false

def Event.isNoticed : Event ω → Bool
  | .noticed _ => true
  | _ => false

/-- A call of this worker's `stop`. -/
def Event.stops (worker : Nat) : Event ω → Bool
  | .stopped w => w = worker
  | _ => false

/-- A signal the loop noticed or a limit that ran out, for which this worker is to stop. -/
def Event.asksStop (worker : Nat) : Event ω → Bool
  | .noticed (.stop w) | .timedOut w => w = worker
  | _ => false

/-- A stop that the worker itself saw. -/
def isStop : Worker.Event ω → Bool
  | .stop => true
  | _ => false

/-- Commands borrow SIGTERM while they run, and a worker stops for its own command's alone. -/
structure Consumes (s : State ω) : Prop where
  bearing : s.bearing = (bearings s.log).1
  borrowed : ∀ r ∈ s.command, r.arranged = true → s.bearing = .asks (.stop r.id)
  arrived : Justified (fun pre x => ∀ b, x = .arrived b → b = (bearings pre).1) s.log
  killed : s.dead = true ↔ .arrived .kills ∈ s.log
  noticed : Justified (fun pre x => ∀ w, x = .noticed (.stop w) → inProgress pre = some w) s.log
  /-- Of one signal comes one call of the loop's at most. -/
  each : s.log.countP Event.isNoticed + s.unread ≤ s.log.countP Event.told
  timedOut : Justified (fun pre x => ∀ w, x = .timedOut w →
    inProgress pre = some w ∧ .timedOut w ∉ pre) s.log
  stopped : Justified (fun pre x => ∀ w, x = .stopped w →
    .noticed (.stop w) ∈ pre ∨ .timedOut w ∈ pre) s.log
  /-- Of one notice, and of one limit, comes one stop at most. -/
  once : ∀ w, s.log.countP (Event.stops w) ≤ s.log.countP (Event.asksStop w)
  workers : ∀ r ∈ s.command.toList ++ s.finished,
    (Worker.machine ω r.worker).Reachable r.state ∧
      Justified (fun pre x => x = .requested → .stop ∉ pre) r.state.log ∧
      r.state.log.countP isStop ≤ s.log.countP (Event.stops r.id)

section Winding
open XtrMessenger.Worker (Steps steps_of_step)

/-- `run` listens for a stop. -/
def Listening : Worker.Phase ω → Prop
  | .idle | .closing _ | .stopping _ => False
  | _ => True

/-- A run that is asked to stop asks for no more messages. -/
structure Winds (s : Worker.State ω) : Prop where
  winds : Justified (fun pre x => x = .requested → .stop ∉ pre) s.log
  hears : Listening s.phase → ∃ b, s.stopped = some b ∧ (b = true ↔ .stop ∈ s.log)

variable {s t : Worker.State ω}

theorem Winds.note (h : Winds s) {x : Worker.Event ω} (hs : x ≠ .stop)
    (hr : x = .requested → .stop ∉ s.log) : Winds (s.note x) := by
  refine ⟨justified_concat.mpr ⟨h.winds, hr⟩, fun hl => ?_⟩
  obtain ⟨b, hb, hiff⟩ := h.hears hl
  exact ⟨b, hb, by simp [hiff, Worker.State.note, hs.symm]⟩

theorem Winds.enter (h : Winds s) (hl : Listening s.phase) (p : Worker.Phase ω) :
    Winds (s.enter p) := ⟨h.winds, fun _ => h.hears hl⟩

theorem Winds.leave (h : Winds s) (raised : Option (Exc ω)) : Winds (s.leave raised) :=
  ⟨h.winds, fun hl => hl.elim⟩

theorem Winds.finish (h : Winds s) (raised : Option (Exc ω)) : Winds (s.finish raised) := by
  refine ⟨justified_concat.mpr ⟨h.winds, by simp⟩, fun hl => hl.elim⟩

theorem Winds.collect (h : Winds s) (hl : Listening s.phase) : Winds s.collect := by
  unfold Worker.State.collect
  split_ifs with hs
  · exact h.leave none
  · obtain ⟨b, hb, hiff⟩ := h.hears hl
    refine (h.note (by simp) fun _ hm => ?_).enter hl _
    rw [hiff.mpr hm] at hb
    exact hs hb

theorem Winds.take (h : Winds s) (hl : Listening s.phase) (fetch : Fetched ω) :
    Winds (s.take fetch) := by
  cases fetch with
  | delivered e => exact h.enter hl _
  | exhausted => exact h.leave _
  | raised e => exact h.leave _
  | cancelled => exact h.leave _

theorem Winds.arrive (h : Winds s) (fetch : Fetched ω) : Winds (s.arrive fetch) := by
  cases fetch with
  | delivered e => exact h.note (by simp) (by simp)
  | exhausted => exact h
  | raised e => exact h
  | cancelled => exact h

theorem arrive_phase (s : Worker.State ω) (fetch : Fetched ω) :
    (s.arrive fetch).phase = s.phase := by
  cases fetch <;> rfl

theorem Winds.stop (h : Winds s) : Winds (s.note .stop).stop := by
  constructor
  · rw [Worker.State.log_stop]
    exact justified_concat.mpr ⟨h.winds, by simp⟩
  · intro hl
    rw [Worker.State.phase_stop] at hl
    obtain ⟨b, hb, -⟩ := h.hears hl
    refine ⟨true, ?_, ?_⟩
    · simp [Worker.State.stop, Worker.State.note, hb]
    · simp [Worker.State.log_stop, Worker.State.note]

theorem winds_start (worker : Worker) :
    Winds ((({} : Worker.State ω).note .runs).start worker) := by
  constructor
  · exact justified_concat.mpr ⟨.nil, by simp⟩
  · intro _
    exact ⟨false, rfl, by simp [Worker.State.start, Worker.State.note]⟩

theorem step_winds {worker : Worker} {a : Worker.Action ω} (h : Winds s) (hrun : a ≠ .run)
    (hs : worker.step s a = some t) : Winds t := by
  cases steps_of_step hs with
  | stop => exact h.stop
  | run => exact absurd rfl hrun
  | started hp =>
    exact (h.note (by simp) (by simp)).enter (by simp [Worker.State.note, hp, Listening]) _
  | startFailed hp e => exact (h.note (by simp) (by simp)).finish _
  | opened hp =>
    exact (h.note (by simp) (by simp)).collect (by simp [Worker.State.note, hp, Listening])
  | openFailed hp e => exact (h.note (by simp) (by simp)).finish _
  | fetched hp fetch =>
    exact (h.arrive fetch).enter (by simp [arrive_phase, hp, Listening]) _
  | woken fetch hp => exact h.take (by simp [hp, Listening]) fetch
  | halted hp _ => exact h.enter (by simp [hp, Listening]) _
  | gathered hp fetch => exact (h.arrive fetch).take (by simp [arrive_phase, hp, Listening]) fetch
  | settle e hp world => exact h.enter (by simp [hp, Listening]) _
  | perform c todo result hp =>
    exact (h.note (by simp) (by simp)).enter (by simp [Worker.State.note, hp, Listening]) _
  | settled hp _ => exact h.enter (by simp [hp, Listening]) _
  | settledUnheard hp _ => exact h.collect (by simp [hp, Listening])
  | settleFailed e hp => exact h.leave _
  | ran hp =>
    exact (h.note (by simp) (by simp)).collect (by simp [Worker.State.note, hp, Listening])
  | runFailed hp e => exact (h.note (by simp) (by simp)).leave _
  | closed raised hp _ => exact ⟨(h.note (by simp) (by simp)).winds, fun hl => hl.elim⟩
  | closedUnheard raised hp _ => exact (h.note (by simp) (by simp)).finish _
  | closeFailed raised hp e => exact (h.note (by simp) (by simp)).finish _
  | stopped raised hp raised' => exact (h.note (by simp) (by simp)).finish _

/-- Only `stop` notes that a stop was asked for. -/
theorem stops_of_step {worker : Worker} {a : Worker.Action ω} (ha : a ≠ .stop)
    (hs : worker.step s a = some t) : t.log.countP isStop = s.log.countP isStop := by
  have hnote : ∀ (u : Worker.State ω) (x : Worker.Event ω), isStop x = false →
      (u.note x).log.countP isStop = u.log.countP isStop := by
    intro u x hx
    simp [Worker.State.note, List.countP_append, hx]
  have hcollect : ∀ u : Worker.State ω, u.collect.log.countP isStop = u.log.countP isStop := by
    intro u
    unfold Worker.State.collect
    split_ifs
    · rfl
    · exact hnote u .requested rfl
  have htake : ∀ (u : Worker.State ω) (fetch : Fetched ω), (u.take fetch).log = u.log := by
    intro u fetch
    cases fetch <;> rfl
  have harrive : ∀ (u : Worker.State ω) (fetch : Fetched ω),
      (u.arrive fetch).log.countP isStop = u.log.countP isStop := by
    intro u fetch
    cases fetch with
    | delivered e => exact hnote u (.delivered e) rfl
    | _ => rfl
  cases steps_of_step hs with
  | stop => exact absurd rfl ha
  | run => exact hnote s .runs rfl
  | started hp => exact hnote s _ rfl
  | startFailed hp e => exact (hnote _ _ rfl).trans (hnote s _ rfl)
  | opened hp => exact (hcollect _).trans (hnote s _ rfl)
  | openFailed hp e => exact (hnote _ _ rfl).trans (hnote s _ rfl)
  | fetched hp fetch => exact harrive s fetch
  | woken fetch hp => rw [htake]
  | halted hp _ => rfl
  | gathered hp fetch =>
    rw [htake]
    exact harrive s fetch
  | settle e hp world => rfl
  | perform c todo result hp => exact hnote s _ rfl
  | settled hp _ => rfl
  | settledUnheard hp _ => exact hcollect s
  | settleFailed e hp => rfl
  | ran hp => exact (hcollect _).trans (hnote s _ rfl)
  | runFailed hp e => exact hnote s _ rfl
  | closed raised hp _ => exact hnote s _ rfl
  | closedUnheard raised hp _ => exact (hnote _ _ rfl).trans (hnote s _ rfl)
  | closeFailed raised hp e => exact (hnote _ _ rfl).trans (hnote s _ rfl)
  | stopped raised hp raised' => exact (hnote _ _ rfl).trans (hnote s _ rfl)

end Winding

@[simp] theorem bearings_concat (log : List (Event ω)) (x : Event ω) :
    bearings (log ++ [x]) = x.bears (bearings log) := by
  simp [bearings]

@[simp] theorem inProgress_concat (log : List (Event ω)) (x : Event ω) :
    inProgress (log ++ [x]) = match x with
      | .began worker _ => some worker
      | .ended _ _ _ => none
      | _ => inProgress log := by
  simp [inProgress]

/-- What a command has to give back. -/
def Running.loan (r : Running ω) : Nat × Bool × Option Disposition := (r.id, r.arranged, r.previous)

/-- Neither an application's nor a command's doing with SIGTERM. -/
def Event.isAside : Event ω → Bool
  | .installed _ | .began _ _ | .ended _ _ _ => false
  | _ => true

/-- What SIGTERM bears, and what it will be handed back as. -/
structure Bears (s : State ω) : Prop where
  bearing : s.bearing = (bearings s.log).1
  looped : s.handler ≠ none → s.disposition = .loop
  progress : inProgress s.log = (s.command.map Running.loan).map Prod.fst
  borrowed : ∀ id previous, s.command.map Running.loan = some (id, true, previous) →
    s.bearing = .asks (.stop id) ∧
      Command.bearing (previous.getD .default) none = (bearings s.log).2.handedBack
  asks : ∀ w, s.handler = some (.stop w) →
    ∃ previous, s.command.map Running.loan = some (w, true, previous)

/-- What the loop was told of signals. -/
structure Tells (s : State ω) : Prop where
  arrived : Justified (fun pre x => ∀ b, x = .arrived b → b = (bearings pre).1) s.log
  killed : s.dead = true ↔ .arrived .kills ∈ s.log
  noticed : Justified (fun pre x => ∀ w, x = .noticed (.stop w) → inProgress pre = some w) s.log
  each : s.log.countP Event.isNoticed + s.unread ≤ s.log.countP Event.told
  ready : ∀ w, .stop w ∈ s.ready → .noticed (.stop w) ∈ s.log

/-- What was asked of the workers. -/
structure Stops (s : State ω) : Prop where
  timedOut : Justified (fun pre x => ∀ w, x = .timedOut w →
    inProgress pre = some w ∧ .timedOut w ∉ pre) s.log
  stopped : Justified (fun pre x => ∀ w, x = .stopped w →
    .noticed (.stop w) ∈ pre ∨ .timedOut w ∈ pre) s.log
  armed : ∀ r ∈ s.command, r.timer = true → .timedOut r.id ∉ s.log
  fresh : ∀ w, .timedOut w ∈ s.log → w < s.built
  numbered : ∀ r ∈ s.command, r.id < s.built
  workers : ∀ r ∈ s.command.toList ++ s.finished,
    (Worker.machine ω r.worker).Reachable r.state ∧ Winds r.state ∧
      r.state.log.countP isStop ≤ s.log.countP (Event.stops r.id)

/-- Each notice and each limit led to one stop, or is still to. -/
def Paid (s : State ω) : Prop := ∀ w,
  s.log.countP (Event.stops w) + s.ready.count (.stop w) ≤ s.log.countP (Event.asksStop w)

structure Inv (s : State ω) : Prop where
  bears : Bears s
  tells : Tells s
  stops : Stops s
  paid : Paid s

section Frames
variable {s t : State ω} {x : Event ω}

theorem bears_of_aside (h : x.isAside = true) (b : Bearing × Bearing) : x.bears b = b := by
  cases x <;> simp_all [Event.isAside, Event.bears]

theorem inProgress_of_aside (h : x.isAside = true) (log : List (Event ω)) :
    inProgress (log ++ [x]) = inProgress log := by
  cases x <;> simp_all [Event.isAside]

theorem Bears.of_eq (h : Bears s) (hd : t.disposition = s.disposition)
    (hh : t.handler = s.handler) (hc : t.command.map Running.loan = s.command.map Running.loan)
    (hb : bearings t.log = bearings s.log) (hp : inProgress t.log = inProgress s.log) :
    Bears t := by
  constructor
  · rw [hb, ← h.bearing, State.bearing, State.bearing, hd, hh]
  · rw [hd, hh]
    exact h.looped
  · rw [hp, hc]
    exact h.progress
  · rw [hc, hb, State.bearing, hd, hh]
    exact h.borrowed
  · rw [hh, hc]
    exact h.asks

theorem Bears.note (h : Bears s) (hx : x.isAside = true) : Bears (s.note x) :=
  h.of_eq rfl rfl rfl (by simp [State.note, bears_of_aside hx])
    (inProgress_of_aside hx s.log)

theorem Tells.of_eq (h : Tells s) (hl : t.log = s.log) (hd : t.dead = s.dead)
    (hu : t.unread = s.unread) (hr : t.ready = s.ready) : Tells t := by
  constructor
  · exact hl ▸ h.arrived
  · rw [hd, hl]
    exact h.killed
  · exact hl ▸ h.noticed
  · rw [hl, hu]
    exact h.each
  · rw [hl, hr]
    exact h.ready

theorem Stops.of_eq (h : Stops s) (hl : t.log = s.log) (hc : t.command = s.command)
    (hf : t.finished = s.finished) (hb : t.built = s.built) : Stops t := by
  constructor
  · exact hl ▸ h.timedOut
  · exact hl ▸ h.stopped
  · rw [hc, hl]
    exact h.armed
  · rw [hl, hb]
    exact h.fresh
  · rw [hc, hb]
    exact h.numbered
  · rw [hc, hf, hl]
    exact h.workers

/-- Neither a signal nor what the loop makes of one. -/
def Event.isQuiet : Event ω → Bool
  | .arrived _ | .noticed _ => false
  | _ => true

theorem Tells.note (h : Tells s) (hx : x.isQuiet = true) : Tells (s.note x) := by
  have hnot : ¬x.isNoticed = true ∧ ¬x.told = true := by
    cases x <;> simp_all [Event.isQuiet, Event.isNoticed, Event.told]
  have hne : (∀ b, x ≠ .arrived b) ∧ ∀ c, x ≠ .noticed c := by
    cases x <;> simp_all [Event.isQuiet]
  constructor
  · exact justified_concat.mpr ⟨h.arrived, fun b hb => absurd hb (hne.1 b)⟩
  · rw [State.note, List.mem_append, List.mem_singleton, ← h.killed]
    simp [(hne.1 .kills).symm]
  · exact justified_concat.mpr ⟨h.noticed, fun w hw => absurd hw (hne.2 _)⟩
  · simpa [State.note, List.countP_append, hnot] using h.each
  · exact fun w hw => List.mem_append_left _ (h.ready w hw)

/-- Nothing asked of a worker. -/
def Event.isUnasking : Event ω → Bool
  | .timedOut _ | .stopped _ => false
  | _ => true

theorem countP_note_le (s : State ω) (x : Event ω) (p : Event ω → Bool) :
    s.log.countP p ≤ (s.note x).log.countP p := by
  simp [State.note, List.countP_append]

theorem Stops.note (h : Stops s) (hx : x.isUnasking = true) : Stops (s.note x) := by
  have hne : (∀ w, x ≠ .timedOut w) ∧ ∀ w, x ≠ .stopped w := by
    cases x <;> simp_all [Event.isUnasking]
  have hold : ∀ w, .timedOut w ∈ s.log ++ [x] → .timedOut w ∈ s.log := by
    intro w hm
    simpa [(hne.1 w).symm] using hm
  constructor
  · exact justified_concat.mpr ⟨h.timedOut, fun w hw => absurd hw (hne.1 w)⟩
  · exact justified_concat.mpr ⟨h.stopped, fun w hw => absurd hw (hne.2 w)⟩
  · exact fun r hr ha hm => h.armed r hr ha (hold _ hm)
  · exact fun w hm => h.fresh w (hold w hm)
  · exact h.numbered
  · intro r hr
    obtain ⟨hreach, hwinds, hstop⟩ := h.workers r hr
    exact ⟨hreach, hwinds, Nat.le_trans hstop (countP_note_le s x _)⟩

theorem Paid.note (h : Paid s) (hx : ∀ w, x.stops w = false ∧ x.asksStop w = false) :
    Paid (s.note x) := by
  intro w
  simpa [State.note, List.countP_append, hx w] using h w

theorem Inv.note (h : Inv s) (ha : x.isAside = true) (hq : x.isQuiet = true)
    (hu : x.isUnasking = true) : Inv (s.note x) := by
  refine ⟨h.bears.note ha, h.tells.note hq, h.stops.note hu, h.paid.note fun w => ?_⟩
  cases x <;> simp_all [Event.isQuiet, Event.isUnasking, Event.stops, Event.asksStop]

end Frames

section Steps
variable {s t : State ω} {escape : String → String}

/-- What `signal.getsignal` tells is enough to hand SIGTERM back as far as it can be. -/
theorem getsignal_handedBack (s : State ω) :
    Command.bearing (s.getsignal.getD .default) none = s.bearing.handedBack := by
  unfold State.getsignal State.bearing
  cases hd : s.disposition with
  | loop =>
    cases s.handler with
    | none => rfl
    | some callback => rfl
  | default => rfl
  | ignored => rfl
  | function handler => rfl
  | native => rfl

theorem Inv.install (h : Inv s) (hc : s.command = none) {installation : Installation}
    (hs : s.install installation = some t) : Inv t := by
  have hprogress := h.bears.progress
  rw [hc] at hprogress
  cases installation with
  | signal disposition =>
    simp only [State.install] at hs
    split_ifs at hs with hg
    obtain rfl := Option.some.inj hs
    refine ⟨⟨?_, ?_, ?_, ?_, ?_⟩, ?_, ?_, h.paid.note fun _ => ⟨rfl, rfl⟩⟩
    · simp [State.note, State.signal, State.bearing, Event.bears, hg.1]
    · exact fun hne => absurd hg.1 hne
    · simpa [State.note, State.signal, hc] using hprogress
    · simp [State.note, State.signal, hc]
    · simp [State.note, State.signal, hg.1]
    · have htells : Tells (s.note (.installed (Command.bearing disposition none))) :=
        h.tells.note rfl
      exact htells.of_eq rfl rfl rfl rfl
    · have hstops : Stops (s.note (.installed (Command.bearing disposition none))) :=
        h.stops.note rfl
      exact hstops.of_eq rfl rfl rfl rfl
  | onLoop callback =>
    obtain rfl := Option.some.inj hs
    refine ⟨⟨?_, ?_, ?_, ?_, ?_⟩, ?_, ?_, h.paid.note fun _ => ⟨rfl, rfl⟩⟩
    · simp [State.note, State.addSignalHandler, State.bearing, Event.bears, Command.bearing]
    · exact fun _ => rfl
    · simpa [State.note, State.addSignalHandler, hc] using hprogress
    · simp [State.note, State.addSignalHandler, hc]
    · simp [State.note, State.addSignalHandler]
    · have htells : Tells (s.note (.installed (.asks (.application callback)))) :=
        h.tells.note rfl
      exact htells.of_eq rfl rfl rfl rfl
    · have hstops : Stops (s.note (.installed (.asks (.application callback)))) :=
        h.stops.note rfl
      exact hstops.of_eq rfl rfl rfl rfl

theorem Bears.run (h : Bears s) (hc : s.command = none) (worker : Worker)
    (limited arranges : Bool) : Bears (s.run worker limited arranges) := by
  cases arranges with
  | false =>
    have hlog : (s.run worker limited false).log = s.log ++ [.began s.built false] := rfl
    refine ⟨?_, h.looped, ?_, ?_, ?_⟩
    · rw [hlog, bearings_concat]
      exact h.bearing
    · rw [hlog, inProgress_concat]
      rfl
    · intro id previous hp
      simp [State.run, Running.loan, State.note] at hp
    · intro w hw
      obtain ⟨previous, hp⟩ := h.asks w hw
      simp [hc] at hp
  | true =>
    have hlog : (s.run worker limited true).log = s.log ++ [.began s.built true] := rfl
    have hloan : (s.run worker limited true).command.map Running.loan =
        some (s.built, true, s.getsignal) := rfl
    refine ⟨?_, fun _ => rfl, ?_, ?_, ?_⟩
    · rw [hlog, bearings_concat]
      rfl
    · rw [hlog, inProgress_concat, hloan]
      rfl
    · intro id previous hp
      rw [hloan, Option.some.injEq, Prod.mk.injEq, Prod.mk.injEq] at hp
      obtain ⟨rfl, -, rfl⟩ := hp
      have hbefore : (bearings (s.run worker limited true).log).2 = s.bearing := by
        rw [hlog, bearings_concat, h.bearing]
        rfl
      rw [hbefore]
      exact ⟨rfl, getsignal_handedBack s⟩
    · intro w hw
      obtain rfl : s.built = w := Callback.stop.inj (Option.some.inj hw)
      exact ⟨s.getsignal, hloan⟩

theorem Stops.run (h : Stops s) (worker : Worker)
    (limited arranges : Bool) : Stops (s.run worker limited arranges) := by
  have hnoted : Stops (s.note (.began s.built arranges)) := h.note rfl
  have hlog : (s.run worker limited arranges).log = s.log ++ [.began s.built arranges] := by
    cases arranges <;> rfl
  have hfinished : (s.run worker limited arranges).finished = s.finished := by
    cases arranges <;> rfl
  have hbuilt : (s.run worker limited arranges).built = s.built + 1 := by
    cases arranges <;> rfl
  obtain ⟨running, hrunning, hid, hstate, hworker⟩ : ∃ running : Running ω,
      (s.run worker limited arranges).command = some running ∧ running.id = s.built ∧
        running.state = (({} : Worker.State ω).note .runs).start worker ∧
        running.worker = worker := by
    cases arranges <;> exact ⟨_, rfl, rfl, rfl, rfl⟩
  have hunused : .timedOut s.built ∉ s.log ++ [Event.began s.built arranges] := by
    intro hm
    exact absurd (hnoted.fresh _ hm) (by simp [State.note])
  constructor
  · rw [hlog]
    exact hnoted.timedOut
  · rw [hlog]
    exact hnoted.stopped
  · intro r hr _
    obtain rfl := Option.some.inj (hrunning.symm.trans hr)
    rw [hlog, hid]
    exact hunused
  · intro w hm
    rw [hbuilt]
    rw [hlog] at hm
    have hold : w < s.built := hnoted.fresh w hm
    omega
  · intro r hr
    obtain rfl := Option.some.inj (hrunning.symm.trans hr)
    rw [hbuilt, hid]
    exact Nat.lt_succ_self _
  · intro r hr
    rw [hrunning, hfinished] at hr
    rw [hlog]
    rcases List.mem_append.mp hr with hr | hr
    · obtain rfl : r = running := by simpa using hr
      have hbegun : (Worker.machine ω r.worker).Reachable r.state := by
        rw [hstate, hworker]
        exact .next (a := .run) (.start rfl) trivial rfl
      refine ⟨hbegun, hstate ▸ winds_start worker, ?_⟩
      rw [hstate]
      exact Nat.zero_le _
    · exact hnoted.workers r (List.mem_append_right _ hr)

theorem Inv.run (h : Inv s) (hc : s.command = none) (worker : Worker) (limited arranges : Bool) :
    Inv (s.run worker limited arranges) := by
  have htells : Tells (s.note (.began s.built arranges)) := h.tells.note rfl
  have hpaid : Paid (s.note (.began s.built arranges)) := h.paid.note fun _ => ⟨rfl, rfl⟩
  refine ⟨h.bears.run hc worker limited arranges, ?_, h.stops.run worker limited arranges, ?_⟩
  · cases arranges <;> exact htells.of_eq rfl rfl rfl rfl
  · cases arranges <;> exact hpaid

theorem Inv.consume (h : Inv s) (hc : s.command = none) (transports : List String)
    (limited : Bool) (built : Except (Exc ω) Worker) (arranges : Bool) :
    Inv (s.consume escape transports limited built arranges) := by
  unfold State.consume
  split_ifs
  · exact (h.note rfl rfl rfl).note rfl rfl rfl
  · cases built with
    | error error =>
      dsimp only
      split_ifs
      · cases error.str with
        | ok text => exact (h.note rfl rfl rfl).note rfl rfl rfl
        | error raised => exact h.note rfl rfl rfl
      · exact h.note rfl rfl rfl
    | ok worker => exact ((h.note rfl rfl rfl).note rfl rfl rfl).run hc worker limited arranges

theorem restoreSigterm_eq (s : State ω) (previous : Option Disposition) :
    s.restoreSigterm previous =
      { s with disposition := previous.getD .default, handler := none } := by
  cases previous <;> rfl

theorem done_eq (s : State ω) (r : Running ω) (ending : Ending ω) : s.done r ending =
    { s with
      disposition := if r.arranged then r.previous.getD .default else s.disposition
      handler := if r.arranged then none else s.handler
      command := none
      finished := s.finished ++ [{ r with timer := false }]
      log := s.log ++ [.ended r.id r.arranged ending] } := by
  unfold State.done
  rw [restoreSigterm_eq]
  cases r.arranged <;> rfl

/-- A command that ends hands SIGTERM back. -/
theorem Bears.done (h : Bears s) {r : Running ω}
    (hc : s.command.map Running.loan = some r.loan) (ending : Ending ω) :
    Bears (s.done r ending) := by
  rw [done_eq]
  cases ha : r.arranged with
  | false =>
    have hunlent : ∀ w, s.handler ≠ some (.stop w) := by
      intro w hw
      obtain ⟨previous, hp⟩ := h.asks w hw
      rw [hc, Running.loan, ha] at hp
      simp at hp
    refine ⟨?_, h.looped, by simp, by simp, fun w hw => absurd hw (hunlent w)⟩
    rw [bearings_concat]
    exact h.bearing
  | true =>
    have hback := (h.borrowed r.id r.previous (by rw [hc, Running.loan, ha])).2
    refine ⟨?_, fun hne => absurd rfl hne, by simp, by simp, fun w hw => by cases hw⟩
    rw [bearings_concat]
    exact hback

theorem Tells.done (h : Tells s) (r : Running ω) (ending : Ending ω) :
    Tells (s.done r ending) := by
  have hnoted : Tells (s.note (.ended r.id r.arranged ending)) := h.note rfl
  rw [done_eq]
  exact hnoted.of_eq rfl rfl rfl rfl

theorem Stops.done (h : Stops s) {r : Running ω}
    (hw : (Worker.machine ω r.worker).Reachable r.state ∧ Winds r.state ∧
      r.state.log.countP isStop ≤ s.log.countP (Event.stops r.id)) (ending : Ending ω) :
    Stops (s.done r ending) := by
  have hnoted : Stops (s.note (.ended r.id r.arranged ending)) := h.note rfl
  rw [done_eq]
  refine ⟨hnoted.1, hnoted.2, by simp, hnoted.4, by simp, ?_⟩
  intro q hq
  rcases List.mem_append.mp hq with hq | hq
  · simp at hq
  rcases List.mem_append.mp hq with hq | hq
  · exact hnoted.workers q (List.mem_append_right _ hq)
  · obtain rfl := List.mem_singleton.mp hq
    exact ⟨hw.1, hw.2.1, Nat.le_trans hw.2.2 (countP_note_le s _ _)⟩

theorem Paid.done (h : Paid s) (r : Running ω) (ending : Ending ω) : Paid (s.done r ending) := by
  have hnoted : Paid (s.note (.ended r.id r.arranged ending)) := h.note fun _ => ⟨rfl, rfl⟩
  rw [done_eq]
  exact hnoted

theorem Inv.finish (h : Inv s) {r : Running ω} (hc : s.command.map Running.loan = some r.loan)
    (hw : (Worker.machine ω r.worker).Reachable r.state ∧ Winds r.state ∧
      r.state.log.countP isStop ≤ s.log.countP (Event.stops r.id)) (ending : Ending ω) :
    Inv (s.finish r ending) := by
  have hdone : Inv (s.done r ending) :=
    ⟨h.bears.done hc ending, h.tells.done r ending, h.stops.done hw ending,
      h.paid.done r ending⟩
  cases ending with
  | returned => exact hdone.note rfl rfl rfl
  | raised error => exact hdone.note rfl rfl rfl
  | cancelled => exact hdone

/-- What `worker.stop()` makes of a command. -/
def Running.asked (r : Running ω) (w : Nat) : Running ω :=
  if r.id = w then { r with state := (r.state.note .stop).stop } else r

theorem Running.asked_loan (r : Running ω) (w : Nat) :
    (r.asked w).loan = r.loan ∧ (r.asked w).id = r.id ∧ (r.asked w).timer = r.timer := by
  unfold asked
  split_ifs <;> exact ⟨rfl, rfl, rfl⟩

theorem Stops.stopWorker (h : Stops s) {w : Nat}
    (hasked : .noticed (.stop w) ∈ s.log ∨ .timedOut w ∈ s.log) : Stops (s.stopWorker w) := by
  have hcommand : (s.stopWorker w).command = s.command.map fun r => r.asked w := rfl
  have hlog : (s.stopWorker w).log = s.log ++ [.stopped w] := rfl
  have hold : ∀ v, .timedOut v ∈ (s.stopWorker w).log → .timedOut v ∈ s.log := by
    intro v hm
    simpa [hlog] using hm
  have hworkers : ∀ r ∈ s.command.toList ++ s.finished,
      r.state.log.countP isStop ≤ (s.stopWorker w).log.countP (Event.stops r.id) := by
    intro r hr
    exact Nat.le_trans (h.workers r hr).2.2 (countP_note_le s (.stopped w) _)
  constructor
  · exact justified_concat.mpr ⟨h.timedOut, by simp⟩
  · refine justified_concat.mpr ⟨h.stopped, fun v hv => ?_⟩
    obtain rfl := Event.stopped.inj hv
    exact hasked
  · intro r hr ha hm
    obtain ⟨q, hq, rfl⟩ := Option.map_eq_some_iff.mp (hcommand ▸ hr)
    obtain ⟨-, hid, htimer⟩ := q.asked_loan w
    rw [htimer] at ha
    rw [hid] at hm
    exact h.armed q hq ha (hold _ hm)
  · exact fun v hm => h.fresh v (hold v hm)
  · intro r hr
    obtain ⟨q, hq, rfl⟩ := Option.map_eq_some_iff.mp (hcommand ▸ hr)
    rw [(q.asked_loan w).2.1]
    exact h.numbered q hq
  · intro r hr
    rcases List.mem_append.mp hr with hr | hr
    · obtain ⟨q, hq, rfl⟩ := Option.map_eq_some_iff.mp (hcommand ▸ Option.mem_toList.mp hr)
      have hmem : q ∈ s.command.toList ++ s.finished :=
        List.mem_append_left _ (Option.mem_toList.mpr hq)
      obtain ⟨hreach, hwinds, hstop⟩ := h.workers q hmem
      unfold Running.asked
      split_ifs with hid
      · refine ⟨hreach.next (a := .stop) trivial rfl, hwinds.stop, ?_⟩
        have hseen : (q.state.note .stop).stop.log.countP isStop =
            q.state.log.countP isStop + 1 := by
          simp [Worker.State.log_stop, Worker.State.note, List.countP_append, isStop]
        have hcalled : (s.stopWorker w).log.countP (Event.stops q.id) =
            s.log.countP (Event.stops q.id) + 1 := by
          simp [hlog, List.countP_append, Event.stops, hid]
        calc (q.state.note .stop).stop.log.countP isStop
          _ = q.state.log.countP isStop + 1 := hseen
          _ ≤ s.log.countP (Event.stops q.id) + 1 := Nat.succ_le_succ hstop
          _ = (s.stopWorker w).log.countP (Event.stops q.id) := hcalled.symm
      · exact ⟨hreach, hwinds, hworkers q hmem⟩
    · have hmem : r ∈ s.command.toList ++ s.finished := List.mem_append_right _ hr
      obtain ⟨hreach, hwinds, -⟩ := h.workers r hmem
      exact ⟨hreach, hwinds, hworkers r hmem⟩

/-- What one more stop of `w` is for. -/
def Due (s : State ω) (w : Nat) : Prop :=
  s.log.countP (Event.stops w) + s.ready.count (.stop w) < s.log.countP (Event.asksStop w)

theorem Paid.stopWorker (h : Paid s) {w : Nat} (hdue : Due s w) : Paid (s.stopWorker w) := by
  intro v
  have hstops : (s.stopWorker w).log.countP (Event.stops v) =
      s.log.countP (Event.stops v) + if w = v then 1 else 0 := by
    simp [State.stopWorker, List.countP_append, List.countP_singleton, Event.stops]
  have hasks : (s.stopWorker w).log.countP (Event.asksStop v) =
      s.log.countP (Event.asksStop v) := by
    simp [State.stopWorker, List.countP_append, Event.asksStop]
  have hready : (s.stopWorker w).ready = s.ready := rfl
  rw [hstops, hasks, hready]
  by_cases hv : w = v
  · subst hv
    unfold Due at hdue
    simp only [↓reduceIte]
    omega
  · simpa [hv] using h v

/-- A worker is stopped for a SIGTERM or a time limit of its own command. -/
theorem Inv.stopWorker (h : Inv s) {w : Nat}
    (hasked : .noticed (.stop w) ∈ s.log ∨ .timedOut w ∈ s.log) (hdue : Due s w) :
    Inv (s.stopWorker w) := by
  refine ⟨?_, ?_, h.stops.stopWorker hasked, h.paid.stopWorker hdue⟩
  · have hnoted : Bears (s.note (.stopped w)) := h.bears.note rfl
    refine hnoted.of_eq rfl rfl ?_ rfl rfl
    change (s.command.map fun r => r.asked w).map Running.loan = s.command.map Running.loan
    rw [Option.map_map]
    congr 1
    funext r
    exact (r.asked_loan w).1
  · have hnoted : Tells (s.note (.stopped w)) := h.tells.note rfl
    exact hnoted.of_eq rfl rfl rfl rfl

theorem bearing_kills_iff : s.bearing = .kills ↔ s.disposition = .default := by
  unfold State.bearing
  cases s.disposition with
  | loop => cases s.handler <;> simp [Command.bearing]
  | default => simp [Command.bearing]
  | ignored => simp [Command.bearing]
  | function handler => simp [Command.bearing]
  | native => simp [Command.bearing]

theorem told_arrived_iff :
    (Event.arrived (ω := ω) s.bearing).told = true ↔ s.disposition = .loop := by
  unfold State.bearing
  cases s.disposition with
  | loop => cases s.handler <;> simp [Command.bearing, Event.told]
  | default => simp [Command.bearing, Event.told]
  | ignored => simp [Command.bearing, Event.told]
  | function handler => simp [Command.bearing, Event.told]
  | native => simp [Command.bearing, Event.told]

/-- A signal comes: the process dies of it, the loop is told, or neither. -/
theorem Inv.sigterm (h : Inv s) : Inv s.sigterm := by
  have hlog : s.sigterm.log = s.log ++ [.arrived s.bearing] := rfl
  have hbears : Bears (s.note (.arrived s.bearing)) := h.bears.note rfl
  have hstops : Stops (s.note (.arrived s.bearing)) := h.stops.note rfl
  have hpaid : Paid (s.note (.arrived s.bearing)) := h.paid.note fun _ => ⟨rfl, rfl⟩
  refine ⟨hbears.of_eq rfl rfl rfl rfl rfl, ⟨?_, ?_, ?_, ?_, ?_⟩,
    hstops.of_eq rfl rfl rfl rfl, hpaid⟩
  · refine justified_concat.mpr ⟨h.tells.arrived, fun b hb => ?_⟩
    obtain rfl := Event.arrived.inj hb
    exact h.bears.bearing
  · have hdies : s.sigterm.dead = true ↔ s.dead = true ∨ s.bearing = .kills := by
      rw [bearing_kills_iff]
      simp [State.sigterm]
    rw [hdies, h.tells.killed, hlog]
    simp [eq_comm]
  · exact justified_concat.mpr ⟨h.tells.noticed, by simp⟩
  · have hnew : [Event.arrived (ω := ω) s.bearing].countP Event.isNoticed = 0 := rfl
    have htold := told_arrived_iff (s := s)
    have heach := h.tells.each
    rw [hlog, List.countP_append, List.countP_append, hnew, List.countP_singleton]
    simp only [htold, State.sigterm]
    split_ifs <;> omega
  · exact fun w hw => List.mem_append_left _ (h.tells.ready w hw)

theorem Paid.notice (h : Paid s) (callback : Callback) :
    Paid (({ s with ready := s.ready ++ [callback] } : State ω).note (.noticed callback)) := by
  intro w
  have hpaid := h w
  have hasks : (Event.noticed (ω := ω) callback).asksStop w = decide (callback = .stop w) := by
    cases callback <;> simp [Event.asksStop]
  have hstops : (Event.noticed (ω := ω) callback).stops w = false := rfl
  simp only [State.note, List.countP_append, List.countP_singleton, List.count_append,
    List.count_singleton, hasks, hstops]
  by_cases hc : callback = .stop w
  · simp only [hc, decide_true, beq_self_eq_true, Bool.false_eq_true, ↓reduceIte]
    omega
  · simpa [hc] using hpaid

/-- The loop is to call what it has for the signal by then. -/
theorem Inv.notice (h : Inv s) (hs : s.notice = some t) : Inv t := by
  unfold State.notice at hs
  cases hu : s.unread with
  | zero => simp [hu] at hs
  | succ unread =>
    have heach := h.tells.each
    simp only [hu, Option.some.injEq] at hs
    cases hh : s.handler with
    | none =>
      simp only [hh] at hs
      subst hs
      refine ⟨h.bears.of_eq rfl hh.symm rfl rfl rfl,
        ⟨h.tells.1, h.tells.2, h.tells.3, ?_, h.tells.5⟩,
        h.stops.of_eq rfl rfl rfl rfl, h.paid⟩
      rw [hu] at heach
      exact Nat.le_of_succ_le heach
    | some callback =>
      simp only [hh] at hs
      subst hs
      have hbears : Bears (s.note (.noticed callback)) := h.bears.note rfl
      have hstops : Stops (s.note (.noticed callback)) := h.stops.note rfl
      refine ⟨hbears.of_eq rfl hh.symm rfl rfl rfl, ⟨?_, ?_, ?_, ?_, ?_⟩,
        hstops.of_eq rfl rfl rfl rfl, h.paid.notice callback⟩
      · exact justified_concat.mpr ⟨h.tells.arrived, by simp⟩
      · simpa [State.note] using h.tells.killed
      · refine justified_concat.mpr ⟨h.tells.noticed, fun w hw => ?_⟩
        obtain rfl := Event.noticed.inj hw
        obtain ⟨previous, hp⟩ := h.bears.asks w hh
        rw [h.bears.progress, hp]
        rfl
      · have hnoticed : [Event.noticed (ω := ω) callback].countP Event.isNoticed = 1 := rfl
        have htold : [Event.noticed (ω := ω) callback].countP Event.told = 0 := rfl
        simp only [State.note, List.countP_append, hnoticed, htold]
        omega
      · intro w hw
        rcases List.mem_append.mp hw with hw | hw
        · exact List.mem_append_left _ (h.tells.ready w hw)
        · obtain rfl := List.mem_singleton.mp hw
          exact List.mem_append_right _ (List.mem_singleton_self _)

/-- What is scheduled may be called once its command is done. -/
theorem Inv.callback (h : Inv s) (hs : s.callback = some t) : Inv t := by
  unfold State.callback at hs
  cases hr : s.ready with
  | nil => simp [hr] at hs
  | cons callback ready =>
    have hsub : Inv { s with ready := ready } := by
      refine ⟨h.bears.of_eq rfl rfl rfl rfl rfl, ⟨h.tells.1, h.tells.2, h.tells.3, h.tells.4, ?_⟩,
        h.stops.of_eq rfl rfl rfl rfl, fun w => ?_⟩
      · intro w hw
        exact h.tells.ready w (by simp [hr, show Callback.stop w ∈ ready from hw])
      · have hpaid := h.paid w
        have hfewer : ready.count (.stop w) ≤ s.ready.count (.stop w) := by
          rw [hr]
          exact List.count_le_count_cons
        exact Nat.le_trans (Nat.add_le_add_left hfewer _) hpaid
    cases callback with
    | stop w =>
      simp only [hr, Option.some.injEq] at hs
      subst hs
      have hdue : Due { s with ready := ready } w := by
        have hpaid := h.paid w
        rw [hr, List.count_cons_self] at hpaid
        exact hpaid
      exact hsub.stopWorker (.inl (h.tells.ready w (by simp [hr]))) hdue
    | application callback =>
      simp only [hr, Option.some.injEq] at hs
      subst hs
      exact hsub.note rfl rfl rfl

theorem Paid.timedOut (h : Paid s) (id : Nat) : Paid (s.note (.timedOut id)) := by
  intro w
  have hstops : (s.note (.timedOut id)).log.countP (Event.stops w) =
      s.log.countP (Event.stops w) := by
    simp [State.note, List.countP_append, Event.stops]
  rw [hstops]
  exact Nat.le_trans (h w) (countP_note_le s _ _)

/-- A time limit runs out once. -/
theorem Inv.timeout (h : Inv s) {r : Running ω} (hc : s.command = some r)
    (ht : r.timer = true) :
    Inv ((({ s with command := some { r with timer := false } } : State ω).note
      (.timedOut r.id)).stopWorker r.id) := by
  have hprogress : inProgress s.log = some r.id := by
    rw [h.bears.progress, hc]
    rfl
  have hunused : .timedOut r.id ∉ s.log := h.stops.armed r hc ht
  have htimed : Inv (({ s with command := some { r with timer := false } } : State ω).note
      (.timedOut r.id)) := by
    have hbears : Bears (s.note (.timedOut r.id)) := h.bears.note rfl
    have htells : Tells (s.note (.timedOut r.id)) := h.tells.note rfl
    refine ⟨hbears.of_eq rfl rfl ?_ rfl rfl, htells.of_eq rfl rfl rfl rfl,
      ⟨?_, ?_, ?_, ?_, ?_, ?_⟩, h.paid.timedOut r.id⟩
    · simp [State.note, hc, Running.loan]
    · refine justified_concat.mpr ⟨h.stops.timedOut, fun w hw => ?_⟩
      obtain rfl := Event.timedOut.inj hw
      exact ⟨hprogress, hunused⟩
    · exact justified_concat.mpr ⟨h.stops.stopped, by simp⟩
    · intro q hq ha
      obtain rfl := Option.some.inj hq
      cases ha
    · intro w hm
      rcases List.mem_append.mp hm with hm | hm
      · exact h.stops.fresh w hm
      · obtain rfl := Event.timedOut.inj (List.mem_singleton.mp hm)
        exact h.stops.numbered r hc
    · intro q hq
      obtain rfl := Option.some.inj hq
      exact h.stops.numbered r hc
    · intro q hq
      rcases List.mem_append.mp hq with hq | hq
      · obtain rfl : q = { r with timer := false } := by simpa [State.note] using hq
        obtain ⟨hreach, hwinds, hstop⟩ := h.stops.workers r (by simp [hc])
        exact ⟨hreach, hwinds, Nat.le_trans hstop (countP_note_le s _ _)⟩
      · obtain ⟨hreach, hwinds, hstop⟩ := h.stops.workers q (List.mem_append_right _ hq)
        exact ⟨hreach, hwinds, Nat.le_trans hstop (countP_note_le s _ _)⟩
  refine htimed.stopWorker (.inr (List.mem_append_right _ (List.mem_singleton_self _))) ?_
  have hpaid := h.paid r.id
  simp only [Due, State.note, List.countP_append, List.countP_singleton, Event.stops,
    Event.asksStop, decide_true, Bool.false_eq_true, ↓reduceIte]
  omega

/-- The worker goes on, and its command with it. -/
theorem Inv.work (h : Inv s) {r : Running ω} (hc : s.command = some r)
    {action : Worker.Action ω} (hs : s.work r action = some t) : Inv t := by
  obtain ⟨hrun, hstop, w, hstep, ht⟩ : action ≠ .run ∧ action ≠ .stop ∧ ∃ w,
      r.worker.step r.state action = some w ∧
        (match w.phase with
          | .idle => s.finish { r with state := w } (endingOf w)
          | _ => { s with command := some { r with state := w } }) = t := by
    cases action <;> simp_all [State.work]
  obtain ⟨hreach, hwinds, hasked⟩ := h.stops.workers r (by simp [hc])
  have hworker : (Worker.machine ω r.worker).Reachable w ∧ Winds w ∧
      w.log.countP isStop ≤ s.log.countP (Event.stops r.id) := by
    refine ⟨hreach.next (a := action) trivial hstep, step_winds hwinds hrun hstep, ?_⟩
    exact Nat.le_trans (Nat.le_of_eq (stops_of_step hstop hstep)) hasked
  have hgoing : Inv { s with command := some { r with state := w } } := by
    refine ⟨h.bears.of_eq rfl rfl ?_ rfl rfl, h.tells.of_eq rfl rfl rfl rfl,
      ⟨h.stops.1, h.stops.2, ?_, h.stops.4, ?_, ?_⟩, h.paid⟩
    · simp [hc, Running.loan]
    · intro q hq
      obtain rfl := Option.some.inj hq
      exact h.stops.armed r hc
    · intro q hq
      obtain rfl := Option.some.inj hq
      exact h.stops.numbered r hc
    · intro q hq
      rcases List.mem_append.mp hq with hq | hq
      · obtain rfl : q = { r with state := w } := by simpa using hq
        exact hworker
      · exact h.stops.workers q (List.mem_append_right _ hq)
  cases hp : w.phase with
  | idle =>
    simp only [hp] at ht
    subst ht
    exact h.finish (by simp [hc, Running.loan]) hworker _
  | _ =>
    simp only [hp] at ht
    exact ht ▸ hgoing

theorem Inv.step {a : Action ω} (h : Inv s) (hs : step escape s a = some t) : Inv t := by
  unfold Command.step at hs
  split_ifs at hs
  cases hc : s.command with
  | none =>
    cases a with
    | install installation => exact h.install hc (by simpa [hc] using hs)
    | consume transports limited built arranges =>
      simp only [hc, Option.some.injEq] at hs
      exact hs ▸ h.consume hc transports limited built arranges
    | sigterm => exact Option.some.inj hs ▸ h.sigterm
    | notice => exact h.notice hs
    | callback => exact h.callback hs
    | timeout => simp [hc] at hs
    | work action => simp [hc] at hs
    | cancel => simp [hc] at hs
  | some r =>
    cases a with
    | install installation => simp [hc] at hs
    | consume transports limited built arranges => simp [hc] at hs
    | sigterm => exact Option.some.inj hs ▸ h.sigterm
    | notice => exact h.notice hs
    | callback => exact h.callback hs
    | timeout =>
      simp only [hc] at hs
      split_ifs at hs with ht
      exact Option.some.inj hs ▸ h.timeout hc ht
    | work action => exact h.work hc (by simpa [hc] using hs)
    | cancel =>
      simp only [hc, Option.some.injEq] at hs
      exact hs ▸ h.finish (by simp [hc]) (h.stops.workers r (by simp [hc])) _

end Steps

/-- In a process that calls the command any number of times, SIGTERM comes to what its history
says, and each worker is stopped for its own command alone and asks for nothing after. -/
theorem consumes {escape : String → String} {s : State ω}
    (h : (machine ω escape).Reachable s) : Consumes s := by
  have hinv : Inv s := by
    refine h.invariant (fun s hs => ?_) fun s a t _ hi _ hs => hi.step hs
    obtain rfl := hs
    exact ⟨⟨rfl, by simp, rfl, by simp, by simp⟩, ⟨.nil, by simp, .nil, Nat.le_refl _, by simp⟩,
      ⟨.nil, .nil, by simp, by simp, by simp, by simp⟩, fun _ => Nat.le_refl _⟩
  refine ⟨hinv.bears.bearing, fun r hr ha => ?_, hinv.tells.arrived, hinv.tells.killed,
    hinv.tells.noticed, hinv.tells.each, hinv.stops.timedOut, hinv.stops.stopped,
    fun w => Nat.le_of_add_right_le (hinv.paid w), fun r hr => ?_⟩
  · have hloan : s.command.map Running.loan = some (r.id, true, r.previous) := by
      rw [Option.mem_def.mp hr, Option.map_some, Running.loan, ha]
    exact (hinv.bears.borrowed _ _ hloan).1
  obtain ⟨hreach, hwinds, hstop⟩ := hinv.stops.workers r hr
  exact ⟨hreach, hwinds.winds, hstop⟩

section Samples

/-- An application with a handler of its own runs a worker, and is told to end while the worker
waits. -/
def toldToEnd : List (Action Int) :=
  [.install (.signal (.function 7)), .consume ["jobs"] false (.ok {}) true, .work (.opened none),
    .sigterm, .notice, .callback, .work .wake, .work (.fetched .cancelled), .work (.closed none)]

theorem consumes_toldToEnd : ∃ s, (machine Int id).run {} toldToEnd = some s ∧ Consumes s ∧
    s.bearing = .calls 7 ∧ s.command.isNone = true ∧ s.log = [.installed (.calls 7),
      .wrote .success "Consuming messages from jobs.",
      .wrote .note "Quit the worker with CONTROL-C.", .began 0 true,
      .arrived (.asks (.stop 0)), .noticed (.stop 0), .stopped 0, .ended 0 true .returned,
      .exited .success] := by
  obtain ⟨s, hrun⟩ : ∃ s, (machine Int id).run {} toldToEnd = some s := ⟨_, rfl⟩
  have hstart : (machine Int id).Reachable {} := .start rfl
  refine ⟨s, hrun, consumes (hstart.run _ hrun), ?_⟩
  obtain rfl := Option.some.inj hrun
  exact ⟨rfl, rfl, rfl⟩

end Samples
end XtrMessenger.Command
