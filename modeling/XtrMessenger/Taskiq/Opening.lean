import XtrMessenger.Taskiq.StartedBrokers

/-! The startups an owner makes for publishing: one at a time, and of a broker only while it is not
on record. -/
namespace XtrMessenger.Taskiq
open Foundation
variable {β : Type} [DecidableEq β]

/-- The broker whose startup is in progress, after one more event. -/
def Event.opening (current : Option β) : Event β → Option β
  | .startupCalled broker _ => some broker
  | .startupEnded _ _ => none
  | _ => current

/-- Whether `broker` is on record, after one more event. -/
def Event.recording (broker : β) (recorded : Bool) : Event β → Bool
  | .startupEnded b .returned => recorded || decide (b = broker)
  | .forgotten b => recorded && decide (b ≠ broker)
  | _ => recorded

/-- The broker whose startup is in progress after a history. -/
def opening (log : List (Event β)) : Option β := log.foldl Event.opening none

/-- Whether a history leaves `broker` on record. -/
def onRecord (broker : β) (log : List (Event β)) : Bool :=
  log.foldl (Event.recording broker) false

/-- When an event may come, by what came before it. -/
def Timely (pre : List (Event β)) : Event β → Prop
  | .startupCalled broker _ => opening pre = none ∧ onRecord broker pre = false
  | .startupEnded broker _ => opening pre = some broker ∧ onRecord broker pre = false
  | .ensured broker isWorkerProcess recorded =>
    recorded = onRecord broker pre ∧ (isWorkerProcess = false → recorded = true)
  | _ => True

/-- Lock and record are what the history makes of them, and it went by the rules. -/
structure Accounted (s : State β) : Prop where
  starting : s.starting = opening s.log
  started : ∀ broker, decide (broker ∈ s.started) = onRecord broker s.log
  fresh : ∀ broker, s.starting = some broker → broker ∉ s.started
  timely : Justified Timely s.log

/-- A publish through `broker` opens it: `ensure_started` calls `startup()`, at once or when it gets
the lock. -/
structure TriesAgain (s : State β) (broker : β) : Prop where
  unrecorded : broker ∉ s.started
  publish : s.isWorkerProcess broker = false → step s (.ensureStarted broker) =
    if s.starting = none ∧ s.waiters = [] then some (s.startup broker)
    else some { s with waiters := s.waiters ++ [broker] }
  acquire : ∀ waiters, s.starting = none → s.waiters = broker :: waiters →
    step s .acquire = some ({ s with waiters := waiters }.startup broker)

structure OpensOnce (s : State β) : Prop where
  recorded : ∀ broker, broker ∈ s.started ↔ onRecord broker s.log = true
  /-- Between two startups of a broker that returned it was forgotten, and had been on record. -/
  once : ∀ broker pre mid post, s.log = pre ++ .startupEnded broker .returned ::
      (mid ++ .startupEnded broker .returned :: post) →
    ∃ before after, mid = before ++ .forgotten broker :: after ∧
      onRecord broker (pre ++ .startupEnded broker .returned :: before) = true
  /-- A startup ends before another is called. -/
  apart : ∀ broker other flag flag' pre mid post, s.log = pre ++ .startupCalled broker flag ::
      (mid ++ .startupCalled other flag' :: post) →
    ∃ outcome, .startupEnded broker outcome ∈ mid
  /-- After a startup that failed the broker is not on record, and is tried again. -/
  retried : ∀ broker outcome pre post, outcome ≠ .returned →
    s.log = pre ++ .startupEnded broker outcome :: post →
    .startupEnded broker .returned ∉ post → TriesAgain s broker
  /-- Where no worker owns the broker, `ensure_started` returns while it is on record. -/
  ensured : ∀ broker recorded pre post, s.log = pre ++ .ensured broker false recorded :: post →
    recorded = true ∧ onRecord broker pre = true

section Log
variable {broker : β} {log pre mid post : List (Event β)} {e : Event β}

omit [DecidableEq β] in
theorem opening_concat : opening (log ++ [e]) = e.opening (opening log) := by
  simp [opening]

theorem onRecord_concat :
    onRecord broker (log ++ [e]) = e.recording broker (onRecord broker log) := by
  simp [onRecord]

theorem onRecord_append : onRecord broker (pre ++ e :: mid) =
    mid.foldl (Event.recording broker) (e.recording broker (onRecord broker pre)) := by
  simp [onRecord]

/-- A broker on record stays there until it is forgotten. -/
theorem forgotten_of_unrecorded (h : mid.foldl (Event.recording broker) true = false) :
    ∃ before after, mid = before ++ .forgotten broker :: after ∧
      before.foldl (Event.recording broker) true = true := by
  induction mid with
  | nil => simp at h
  | cons e mid ih =>
    rw [List.foldl_cons] at h
    cases hkept : e.recording broker true with
    | false =>
      refine ⟨[], mid, ?_, rfl⟩
      have he : e = .forgotten broker := by
        cases e with
        | forgotten b => simpa [Event.recording] using hkept
        | startupEnded b outcome => cases outcome <;> simp [Event.recording] at hkept
        | _ => simp [Event.recording] at hkept
      rw [he, List.nil_append]
    | true =>
      rw [hkept] at h
      obtain ⟨before, after, rfl, hbefore⟩ := ih h
      refine ⟨e :: before, after, rfl, ?_⟩
      rw [List.foldl_cons, hkept]
      exact hbefore

/-- A broker off record stays off until a startup of it returns. -/
theorem unrecorded_of_unreturned (h : Event.startupEnded broker .returned ∉ mid) :
    mid.foldl (Event.recording broker) false = false := by
  induction mid with
  | nil => rfl
  | cons e mid ih =>
    rw [List.mem_cons, not_or] at h
    have he : e.recording broker false = false := by
      cases e with
      | startupEnded b outcome =>
        cases outcome with
        | returned =>
          have hne : b ≠ broker := by
            rintro rfl
            exact h.1 rfl
          simp [Event.recording, hne]
        | raised => rfl
        | cancelled => rfl
      | _ => rfl
    rw [List.foldl_cons, he]
    exact ih h.2

/-- A startup that was called is in progress until it ends. -/
theorem ended_or_opening {isWorkerProcess : Bool}
    (h : Justified Timely (pre ++ .startupCalled broker isWorkerProcess :: mid)) :
    (∃ outcome, .startupEnded broker outcome ∈ mid) ∨
      opening (pre ++ .startupCalled broker isWorkerProcess :: mid) = some broker := by
  induction mid using List.reverseRecOn with
  | nil =>
    right
    rw [opening_concat]
    rfl
  | append_singleton mid e ih =>
    rw [← List.cons_append, ← List.append_assoc] at h ⊢
    obtain ⟨hbefore, he⟩ := justified_concat.mp h
    rcases ih hbefore with ⟨outcome, hended⟩ | hopening
    · exact .inl ⟨outcome, List.mem_append_left _ hended⟩
    · rw [opening_concat, hopening]
      cases e with
      | startupCalled b flag =>
        have hnone : opening (pre ++ .startupCalled broker isWorkerProcess :: mid) = none := he.1
        rw [hopening] at hnone
        cases hnone
      | startupEnded b outcome =>
        have hsome : opening (pre ++ .startupCalled broker isWorkerProcess :: mid) = some b := he.1
        obtain rfl := Option.some.inj (hopening.symm.trans hsome)
        exact .inl ⟨outcome, by simp⟩
      | _ => exact .inr rfl

end Log

section Steps
variable {s t : State β} {broker : β} {e : Event β}

/-- What an event makes of lock and record is what a step that logs it has to make of them. -/
theorem Accounted.advance (h : Accounted s) (he : Timely s.log e) (hlog : t.log = s.log ++ [e])
    (hstarting : t.starting = e.opening s.starting)
    (hstarted : ∀ b, decide (b ∈ t.started) = e.recording b (decide (b ∈ s.started))) :
    Accounted t where
  starting := by rw [hstarting, hlog, opening_concat, h.starting]
  started b := by rw [hstarted, hlog, onRecord_concat, h.started]
  fresh b hb := by
    rw [hstarting] at hb
    apply of_decide_eq_false
    rw [hstarted, h.started]
    cases e with
    | startupCalled b' flag =>
      obtain rfl := Option.some.inj hb
      exact he.2
    | startupEnded b' outcome => cases hb
    | forgotten b' =>
      have hnew : onRecord b s.log = false := by simpa [← h.started] using h.fresh b hb
      simp [Event.recording, hnew]
    | _ => simpa [Event.recording, ← h.started] using h.fresh b hb
  timely := hlog ▸ justified_concat.mpr ⟨h.timely, he⟩

/-- Most events leave lock and record alone. -/
theorem Accounted.note (h : Accounted s) (he : Timely s.log e)
    (hopening : e.opening s.starting = s.starting)
    (hrecording : ∀ b, e.recording b (decide (b ∈ s.started)) = decide (b ∈ s.started)) :
    Accounted (s.note e) :=
  h.advance he rfl hopening.symm fun b => (hrecording b).symm

theorem Accounted.ensure (h : Accounted s)
    (hb : s.isWorkerProcess broker = false → broker ∈ s.started) : Accounted (s.ensure broker) := by
  refine h.note ⟨h.started broker, fun hflag => ?_⟩ rfl fun _ => rfl
  exact decide_eq_true (hb hflag)

theorem Accounted.startup (h : Accounted s) (hfree : s.starting = none)
    (hnew : broker ∉ s.started) : Accounted (s.startup broker) := by
  have hcalled : Timely s.log (.startupCalled broker (s.isWorkerProcess broker)) := by
    refine ⟨h.starting.symm.trans hfree, ?_⟩
    rw [← h.started]
    exact decide_eq_false hnew
  exact h.advance hcalled rfl rfl fun _ => rfl

theorem Accounted.enter (h : Accounted s) (hfree : s.starting = none) :
    Accounted (s.enter broker) := by
  unfold State.enter
  split_ifs with hknown
  · exact h.ensure fun _ => hknown
  · exact h.startup hfree hknown

theorem Accounted.discard (h : Accounted s) : Accounted (s.discard broker) := by
  have herase : (s.discard broker).started = s.started.erase broker := rfl
  refine h.advance (e := .forgotten broker) trivial rfl rfl fun b => ?_
  rw [herase]
  rcases eq_or_ne b broker with rfl | hne
  · simp [Event.recording]
  · simp [Event.recording, hne, hne.symm]

theorem Accounted.shutdown (h : Accounted s) : Accounted (s.shutdown broker) :=
  h.discard.note trivial rfl fun _ => rfl

theorem Accounted.proceed {place : Nat} {rest failures : List β} (h : Accounted s) :
    Accounted (proceed s place rest failures) := by
  cases rest with
  | nil =>
    have hclosing : Accounted { s with closings := s.closings.eraseIdx place } :=
      ⟨h.starting, h.started, h.fresh, h.timely⟩
    exact hclosing.note trivial rfl fun _ => rfl
  | cons broker rest => exact Accounted.shutdown ⟨h.starting, h.started, h.fresh, h.timely⟩

theorem Accounted.ended (h : Accounted s) (hs : s.starting = some broker) (outcome : Outcome) :
    Timely s.log (.startupEnded broker outcome) := by
  refine ⟨h.starting.symm.trans hs, ?_⟩
  rw [← h.started]
  exact decide_eq_false (h.fresh broker hs)

theorem step_accounted {a : Action β} (h : Accounted s) (hs : Steps s a t) : Accounted t := by
  cases hs with
  | returns hknown =>
    refine h.ensure fun hflag => hknown.resolve_left ?_
    simp [hflag]
  | opens hflag hnew hfree => exact h.startup hfree hnew
  | waits => exact ⟨h.starting, h.started, h.fresh, h.timely⟩
  | acquired hfree hwaiters =>
    exact Accounted.enter ⟨h.starting, h.started, h.fresh, h.timely⟩ hfree
  | abandoned place => exact ⟨h.starting, h.started, h.fresh, h.timely⟩
  | @started broker hs =>
    refine Accounted.ensure ?_ fun _ => Finset.mem_insert_self broker s.started
    refine h.advance (h.ended hs .returned) rfl rfl fun b => ?_
    rcases eq_or_ne b broker with rfl | hne
    · simp [Event.recording]
    · simp [Event.recording, hne, hne.symm]
  | @unstarted broker outcome hs hfailed =>
    refine h.advance (h.ended hs outcome) rfl rfl fun b => ?_
    cases outcome with
    | returned => exact absurd rfl hfailed
    | raised => rfl
    | cancelled => rfl
  | forgot broker => exact h.discard
  | closedNone => exact h.note trivial rfl fun _ => rfl
  | closes hnodup horder => exact Accounted.shutdown ⟨h.starting, h.started, h.fresh, h.timely⟩
  | @proceeds place closing outcome failures hc =>
    have hnoted : Accounted (s.note (.shutdownEnded closing.broker outcome)) :=
      h.note trivial rfl fun _ => rfl
    exact hnoted.proceed
  | @cancelled place closing hc =>
    have hleft : Accounted { s with closings := s.closings.eraseIdx place } :=
      ⟨h.starting, h.started, h.fresh, h.timely⟩
    exact hleft.note trivial rfl fun _ => rfl
  | runStarted broker publishers => exact ⟨h.starting, h.started, h.fresh, h.timely⟩
  | runStopped hr => exact ⟨h.starting, h.started, h.fresh, h.timely⟩
  | @runForgot place run hr hpublishers =>
    have hleft : Accounted { s with runs := s.runs.eraseIdx place } :=
      ⟨h.starting, h.started, h.fresh, h.timely⟩
    have hdiscard : Accounted ({ s with runs := s.runs.eraseIdx place }.discard run.broker) :=
      hleft.discard
    exact ⟨hdiscard.starting, hdiscard.started, hdiscard.fresh, hdiscard.timely⟩
  | runEnded hr hpublishers => exact ⟨h.starting, h.started, h.fresh, h.timely⟩

theorem accounted (h : (machine β).Reachable s) : Accounted s := by
  refine h.invariant ?_ fun s a t _ hi _ hs => step_accounted hi (steps_of_step hs)
  rintro s ⟨flags, rfl⟩
  exact ⟨rfl, fun _ => rfl, by simp, .nil⟩

/-- A broker that is not on record is opened by the next publish. -/
theorem triesAgain_of_unrecorded (hnew : broker ∉ s.started) : TriesAgain s broker where
  unrecorded := hnew
  publish hflag := by
    have hunknown : ¬(s.isWorkerProcess broker = true ∨ broker ∈ s.started) := by
      simp [hflag, hnew]
    have hopens : s.enter broker = s.startup broker := if_neg hnew
    rw [step, if_neg hunknown, hopens]
  acquire waiters hfree hwaiters := by
    simp only [step, hfree, hwaiters]
    exact congrArg some (if_neg hnew)

theorem Accounted.once {pre mid post : List (Event β)} (h : Accounted s)
    (hlog : s.log = pre ++ .startupEnded broker .returned ::
      (mid ++ .startupEnded broker .returned :: post)) :
    ∃ before after, mid = before ++ .forgotten broker :: after ∧
      onRecord broker (pre ++ .startupEnded broker .returned :: before) = true := by
  have hset : Event.recording broker (onRecord broker pre) (.startupEnded broker .returned) =
      true := by
    simp [Event.recording]
  have hsecond := (h.timely (pre ++ .startupEnded broker .returned :: mid)
    (.startupEnded broker .returned) post (by simp [hlog])).2
  rw [onRecord_append, hset] at hsecond
  obtain ⟨before, after, hmid, hbefore⟩ := forgotten_of_unrecorded hsecond
  refine ⟨before, after, hmid, ?_⟩
  rw [onRecord_append, hset]
  exact hbefore

theorem Accounted.apart {other : β} {flag flag' : Bool} {pre mid post : List (Event β)}
    (h : Accounted s) (hlog : s.log = pre ++ .startupCalled broker flag ::
      (mid ++ .startupCalled other flag' :: post)) :
    ∃ outcome, .startupEnded broker outcome ∈ mid := by
  have hsplit : s.log = (pre ++ .startupCalled broker flag :: mid) ++
      .startupCalled other flag' :: post := by
    simp [hlog]
  have hfirst : Justified Timely (pre ++ .startupCalled broker flag :: mid) := by
    intro pre' e post' hpre
    exact h.timely pre' e (post' ++ .startupCalled other flag' :: post) (by simp [hsplit, hpre])
  have hnone := (h.timely _ _ _ hsplit).1
  refine (ended_or_opening hfirst).resolve_right fun hsome => ?_
  rw [hnone] at hsome
  cases hsome

theorem Accounted.retried {outcome : Outcome} {pre post : List (Event β)} (h : Accounted s)
    (hfailed : outcome ≠ .returned) (hlog : s.log = pre ++ .startupEnded broker outcome :: post)
    (hsince : .startupEnded broker .returned ∉ post) : TriesAgain s broker := by
  have hold : onRecord broker pre = false := (h.timely _ _ _ hlog).2
  have hended : Event.recording broker false (.startupEnded broker outcome) = false := by
    cases outcome with
    | returned => exact absurd rfl hfailed
    | raised => rfl
    | cancelled => rfl
  have hnow : onRecord broker s.log = false := by
    rw [hlog, onRecord_append, hold, hended]
    exact unrecorded_of_unreturned hsince
  exact triesAgain_of_unrecorded (of_decide_eq_false ((h.started broker).trans hnow))

/-- However the calls interleave, an owner makes one startup at a time; it starts a broker again
only once that was forgotten, tries again after a failure, and answers a publish only when the
broker is on record. -/
theorem opens_once (h : (machine β).Reachable s) : OpensOnce s := by
  have haccounted := accounted h
  refine ⟨fun broker => ?_, fun _ _ _ _ => haccounted.once, fun _ _ _ _ _ _ _ => haccounted.apart,
    fun _ _ _ _ => haccounted.retried, fun broker recorded pre post hlog => ?_⟩
  · rw [← haccounted.started broker, decide_eq_true_iff]
  · obtain ⟨hread, hset⟩ := haccounted.timely _ _ _ hlog
    exact ⟨hset rfl, hread.symm.trans (hset rfl)⟩

end Steps

/-- Two publishes wait for a startup that fails; the second of them finds the broker open. -/
def retriedThenForgotten : List (Action Nat) :=
  [.ensureStarted 0, .ensureStarted 0, .ensureStarted 0, .startupEnds .raised, .acquire,
    .startupEnds .returned, .acquire, .forget 0, .ensureStarted 0, .startupEnds .returned]

theorem opens_once_retried : ∃ s, (machine Nat).run {} retriedThenForgotten = some s ∧
    s.started = {0} ∧ OpensOnce s := by
  obtain ⟨s, hrun, hstarted⟩ : ∃ s, (machine Nat).run {} retriedThenForgotten = some s ∧
    s.started = {0} := ⟨_, rfl, rfl⟩
  exact ⟨s, hrun, hstarted,
    opens_once (Machine.Reachable.run (.start ⟨fun _ => false, rfl⟩) retriedThenForgotten hrun)⟩

end XtrMessenger.Taskiq
