import XtrMessenger.Worker.Run

/-! Every envelope a worker collects is settled once, before it asks for the next. The
history is read by a monitor that keeps the message in hand. -/
namespace XtrMessenger
open Foundation
variable {ω : Type}

namespace Worker

/-- What an event makes of the message in hand and the calls made about it so far. -/
def Event.advance (hand : Option (Envelope ω × List (Call ω))) :
    Event ω → Option (Envelope ω × List (Call ω))
  | .delivered e => some (e, [])
  | .call c => hand.map fun (e, calls) => (e, calls ++ [c])
  | .requested | .ended _ => none
  | _ => hand

/-- The message in hand at the end of a history, with the calls made about it. -/
def inHand (log : List (Event ω)) : Option (Envelope ω × List (Call ω)) :=
  log.foldl Event.advance none

/-- Events before which a message in hand must have been dealt with. -/
def Event.closes : Event ω → Bool
  | .requested | .delivered _ | .ended _ => true
  | _ => false

/-- The message was settled once, by the calls `_settle` makes about it. -/
def Dealt (worker : Worker) (envelope : Envelope ω) (calls : List (Call ω)) : Prop :=
  SettledOnce calls ∧ ∃ world, calls = (worker.settle world envelope).calls

/-- At most one call settled the message so far, and it was dispatched at most once. -/
def AtMostOnce (calls : List (Call ω)) : Prop :=
  calls.countP Call.isSettlement ≤ 1 ∧ calls.countP Call.isDispatch ≤ 1

/-- How an event must follow what happened before it. -/
def Follows (worker : Worker) (pre : List (Event ω)) (x : Event ω) : Prop :=
  (x.closes = true → ∀ e calls, inHand pre = some (e, calls) → Dealt worker e calls) ∧
    ∀ c, x = .call c → (inHand pre).isSome = true

/-- A history in which every delivered envelope is settled by exactly one call before the
next is requested and before the run ends, and in which no call is about anything else. -/
structure SettlesEach (worker : Worker) (log : List (Event ω)) : Prop where
  follows : Justified (Follows worker) log
  atMostOnce : ∀ e calls, inHand log = some (e, calls) → AtMostOnce calls

@[simp] theorem inHand_nil : inHand ([] : List (Event ω)) = none := rfl

@[simp] theorem inHand_concat (log : List (Event ω)) (x : Event ω) :
    inHand (log ++ [x]) = x.advance (inHand log) := by
  simp [inHand]

end Worker

/-- Every exception the bus or a listener raises about the message can be reported. -/
structure World.Reportable (world : World ω) : Prop where
  bus : ∀ e error, world.bus e = .error error → error.Reportable
  received : ∀ e n error, world.listeners.received e n = .error error → error.Reportable
  handled : ∀ e n error, world.listeners.handled e n = .error error → error.Reportable

theorem handle_raised {world : World ω} (hw : world.Reportable) (envelope : Envelope ω)
    (name : String) {dispatcher : Option (Listeners ω)}
    (hd : ∀ l ∈ dispatcher, l = world.listeners) :
    ∀ c ∈ (handle world.bus envelope name dispatcher).calls, ∀ error ∈ c.raised,
      error.Reportable := by
  intro c hc error he
  cases dispatcher with
  | none =>
    rw [handle_none] at hc
    obtain rfl := List.mem_singleton.mp hc
    rcases hb : world.bus envelope with raised | answer
    · simp only [hb, Call.raised, Option.mem_some_iff] at he
      exact he ▸ hw.bus _ _ hb
    · simp [hb, Call.raised] at he
  | some l =>
    obtain rfl := hd l rfl
    rw [handle_some] at hc
    rcases hr : world.listeners.received envelope name with raised | ⟨stamps, _ | _⟩
    · simp only [hr, List.mem_singleton] at hc
      subst hc
      simp only [Call.raised, Option.mem_some_iff] at he
      exact he ▸ hw.received _ _ _ hr
    · simp only [hr, List.mem_singleton] at hc
      subst hc
      simp [Call.raised] at he
    · rcases hb : world.bus (envelope.withStamps stamps) with raised | answer
      · simp only [hr, hb, List.mem_cons, List.not_mem_nil, or_false] at hc
        rcases hc with rfl | rfl
        · simp [Call.raised] at he
        · simp only [Call.raised, Option.mem_some_iff] at he
          exact he ▸ hw.bus _ _ hb
      · simp only [hr, hb, List.mem_cons, List.not_mem_nil, or_false] at hc
        rcases hc with rfl | rfl | rfl
        · simp [Call.raised] at he
        · simp [Call.raised] at he
        · rcases hh : world.listeners.handled answer name with raised | added
          · simp only [hh, Call.raised, Option.mem_some_iff] at he
            exact he ▸ hw.handled _ _ _ hh
          · simp [hh, Call.raised] at he

theorem settle_settledOnce (worker : Worker) {world : World ω} (hw : world.Reportable)
    (envelope : Envelope ω) : SettledOnce (worker.settle world envelope).calls := by
  rw [settle_settledOnce_iff]
  obtain ⟨o, -, heq⟩ := settle_calls worker world envelope
  have htail := (settleOutcome_silent worker world (receiverNameOf envelope worker.receiverName)
    o).append (resetting_silent worker world)
  have hd : ∀ l ∈ worker.dispatcher world, l = world.listeners := by
    intro l hl
    unfold Worker.dispatcher at hl
    split_ifs at hl
    · exact (Option.some.inj hl).symm
    · simp at hl
  intro c hc error he
  rw [heq] at hc
  rcases List.mem_append.mp hc with hc | hc
  · exact handle_raised hw _ _ hd c hc error he
  · simp [(htail c hc).2.2] at he

namespace Worker

/-- A step starts settling only a message whose failure, if it fails, can be reported. -/
def Reporting (_ : State ω) : Action ω → Prop
  | .settle world => world.Reportable
  | _ => True

/-- What each phase says of the message in hand. -/
def InPhase (worker : Worker) (hand : Option (Envelope ω × List (Call ω))) : Phase ω → Prop
  | .idle | .starting | .opening | .waiting none | .cancelling => hand = none
  | .waiting (some (.delivered e)) | .collected e => hand = some (e, [])
  | .waiting (some _) => hand = none
  | .settling todo _ => ∃ e made, ∃ world : World ω, world.Reportable ∧ hand = some (e, made) ∧
      made ++ todo = (worker.settle world e).calls
  | .running | .closing _ | .stopping _ => ∀ e calls, hand = some (e, calls) →
      Dealt worker e calls

structure Inv (worker : Worker) (s : State ω) : Prop where
  follows : Justified (Follows worker) s.log
  phase : InPhase worker (inHand s.log) s.phase

/-- A history that may go on to the next request, or end. -/
structure Clear (worker : Worker) (log : List (Event ω)) : Prop where
  follows : Justified (Follows worker) log
  dealt : ∀ e calls, inHand log = some (e, calls) → Dealt worker e calls

variable {worker : Worker} {s t : State ω}

theorem Clear.of_none (h : Justified (Follows worker) s.log) (hn : inHand s.log = none) :
    Clear worker s.log := ⟨h, by simp [hn]⟩

/-- Events that neither close a message nor are about one. -/
def Event.Quiet (x : Event ω) : Prop :=
  x.closes = false ∧ (∀ c, x ≠ .call c) ∧ ∀ hand, x.advance hand = hand

theorem Event.Quiet.follows {x : Event ω} (hx : x.Quiet) (log : List (Event ω)) :
    Follows worker log x := ⟨by simp [hx.1], fun c hc => absurd hc (hx.2.1 c)⟩

theorem Inv.note_quiet (h : Inv worker s) {x : Event ω} (hx : x.Quiet) : Inv worker (s.note x) where
  follows := justified_concat.mpr ⟨h.follows, hx.follows _⟩
  phase := by simpa [State.note, hx.2.2] using h.phase

theorem Clear.note_quiet (h : Clear worker s.log) {x : Event ω} (hx : x.Quiet) :
    Clear worker (s.note x).log where
  follows := justified_concat.mpr ⟨h.follows, hx.follows _⟩
  dealt := by simpa [State.note, hx.2.2] using h.dealt

theorem Clear.finish (h : Clear worker s.log) (raised : Option (Exc ω)) :
    Inv worker (s.finish raised) where
  follows := justified_concat.mpr ⟨h.follows, fun _ => h.dealt, by simp⟩
  phase := by simp [State.finish, State.note, State.enter, InPhase, Event.advance]

theorem Clear.leave (h : Clear worker s.log) (raised : Option (Exc ω)) :
    Inv worker (s.leave raised) where
  follows := h.follows
  phase := h.dealt

theorem Clear.collect (h : Clear worker s.log) : Inv worker s.collect := by
  unfold State.collect
  split_ifs
  · exact h.leave none
  · exact ⟨justified_concat.mpr ⟨h.follows, fun _ => h.dealt, by simp⟩,
      by simp [State.note, State.enter, InPhase, Event.advance]⟩

/-- Once the fetch has ended, what is in hand is what it delivered. -/
theorem take_inv {fetch : Fetched ω} (h : Justified (Follows worker) s.log)
    (hp : InPhase worker (inHand s.log) (.waiting (some fetch))) : Inv worker (s.take fetch) := by
  cases fetch with
  | delivered e => exact ⟨h, hp⟩
  | exhausted => exact (Clear.of_none h hp).leave none
  | cancelled => exact (Clear.of_none h hp).leave none
  | raised e => exact (Clear.of_none h hp).leave (some e)

theorem arrive_inv (h : Justified (Follows worker) s.log) (hn : inHand s.log = none)
    (fetch : Fetched ω) : Justified (Follows worker) (s.arrive fetch).log ∧
      InPhase worker (inHand (s.arrive fetch).log) (.waiting (some fetch)) := by
  cases fetch with
  | delivered e =>
    exact ⟨justified_concat.mpr ⟨h, by simp [hn], by simp⟩,
      by simp [State.arrive, State.note, InPhase, Event.advance]⟩
  | exhausted => exact ⟨h, hn⟩
  | cancelled => exact ⟨h, hn⟩
  | raised e => exact ⟨h, hn⟩

theorem quiet_stop : (Event.stop : Event ω).Quiet := ⟨rfl, by simp, fun _ => rfl⟩
theorem quiet_runs : (Event.runs : Event ω).Quiet := ⟨rfl, by simp, fun _ => rfl⟩
theorem quiet_announced (e : WorkerEvent) (r : Option (Exc ω)) :
    (Event.announced e r).Quiet := ⟨rfl, by simp, fun _ => rfl⟩
theorem quiet_opened (r : Option (Exc ω)) : (Event.opened r).Quiet := ⟨rfl, by simp, fun _ => rfl⟩
theorem quiet_closed (r : Option (Exc ω)) : (Event.closed r).Quiet := ⟨rfl, by simp, fun _ => rfl⟩

/-- With every call of `_settle` made, the message in hand is dealt with. -/
theorem Inv.clear_of_settled (hi : Inv worker s) {result : Except (Exc ω) Unit}
    (hph : s.phase = .settling [] result) : Clear worker s.log := by
  refine ⟨hi.follows, fun e calls hh => ?_⟩
  have hp := hi.phase
  rw [hph] at hp
  obtain ⟨e', made, world, hw, hhand, hcalls⟩ := hp
  obtain ⟨rfl, rfl⟩ : e' = e ∧ made = calls := by simpa [hhand] using hh
  rw [List.append_nil] at hcalls
  exact ⟨hcalls ▸ settle_settledOnce worker hw e', world, hcalls⟩

theorem step_inv {a : Action ω} (hi : Inv worker s) (ha : Reporting s a)
    (h : Steps worker s a t) : Inv worker t := by
  have hp := hi.phase
  cases h with
  | stop =>
    have hn := hi.note_quiet quiet_stop
    unfold State.stop
    split <;> exact ⟨hn.follows, hn.phase⟩
  | run hph =>
    rw [hph] at hp
    have hc := (Clear.of_none hi.follows hp).note_quiet quiet_runs
    have hnone : inHand (s.note .runs).log = none := (inHand_concat _ _).trans hp
    refine ⟨hc.follows, ?_⟩
    unfold State.start
    cases worker.hasDispatcher <;> exact hnone
  | started hph =>
    rw [hph] at hp
    have hc := (Clear.of_none hi.follows hp).note_quiet (quiet_announced .started none)
    exact ⟨hc.follows, (inHand_concat _ _).trans hp⟩
  | startFailed hph e =>
    rw [hph] at hp
    exact ((Clear.of_none hi.follows hp).note_quiet (quiet_announced .started (some e))).finish _
  | opened hph =>
    rw [hph] at hp
    exact ((Clear.of_none hi.follows hp).note_quiet (quiet_opened none)).collect
  | openFailed hph e =>
    rw [hph] at hp
    exact ((Clear.of_none hi.follows hp).note_quiet (quiet_opened (some e))).finish _
  | fetched hph fetch =>
    rw [hph] at hp
    obtain ⟨hf, hw⟩ := arrive_inv hi.follows hp fetch
    exact ⟨hf, hw⟩
  | woken fetch hph =>
    rw [hph] at hp
    exact take_inv hi.follows hp
  | halted hph hs =>
    rw [hph] at hp
    exact ⟨hi.follows, hp⟩
  | gathered hph fetch =>
    rw [hph] at hp
    obtain ⟨hf, hw⟩ := arrive_inv hi.follows hp fetch
    exact take_inv hf hw
  | settle e hph world =>
    rw [hph] at hp
    exact ⟨hi.follows, e, [], world, ha, hp, rfl⟩
  | perform c todo result hph =>
    rw [hph] at hp
    obtain ⟨e, made, world, hw, hhand, hcalls⟩ := hp
    refine ⟨justified_concat.mpr ⟨hi.follows, by simp [Event.closes], by simp [hhand]⟩, ?_⟩
    exact ⟨e, made ++ [c], world, hw, by simp [State.note, State.enter, hhand, Event.advance],
      by simpa using hcalls⟩
  | settled hph hd =>
    have hc := hi.clear_of_settled hph
    exact ⟨hc.follows, hc.dealt⟩
  | settledUnheard hph hd => exact (hi.clear_of_settled hph).collect
  | settleFailed e hph => exact (hi.clear_of_settled hph).leave _
  | ran hph =>
    rw [hph] at hp
    exact (Clear.note_quiet ⟨hi.follows, hp⟩ (quiet_announced .running none)).collect
  | runFailed hph e =>
    rw [hph] at hp
    exact (Clear.note_quiet ⟨hi.follows, hp⟩ (quiet_announced .running (some e))).leave _
  | closed raised hph hd =>
    rw [hph] at hp
    have hc := Clear.note_quiet ⟨hi.follows, hp⟩ (quiet_closed none)
    exact ⟨hc.follows, hc.dealt⟩
  | closedUnheard raised hph hd =>
    rw [hph] at hp
    exact (Clear.note_quiet ⟨hi.follows, hp⟩ (quiet_closed none)).finish _
  | closeFailed raised hph e =>
    rw [hph] at hp
    exact (Clear.note_quiet ⟨hi.follows, hp⟩ (quiet_closed (some e))).finish _
  | stopped raised hph raised' =>
    rw [hph] at hp
    exact (Clear.note_quiet ⟨hi.follows, hp⟩ (quiet_announced .stopped raised')).finish _

theorem reach_inv (h : (machine ω worker).Reach Reporting s) : Inv worker s := by
  refine h.invariant ?_ fun s a t _ hi ha hs => step_inv hi ha (steps_of_step hs)
  rintro s rfl
  exact ⟨.nil, rfl⟩

theorem settledOnce_atMostOnce {made todo : List (Call ω)} (h : SettledOnce (made ++ todo)) :
    AtMostOnce made := by
  have h1 := h.once
  have h2 := h.dispatched
  rw [List.countP_append] at h1 h2
  exact ⟨by omega, by omega⟩

theorem InPhase.atMostOnce {hand : Option (Envelope ω × List (Call ω))} {phase : Phase ω}
    (h : InPhase worker hand phase) : ∀ e calls, hand = some (e, calls) → AtMostOnce calls := by
  have ofNone : hand = none → ∀ e calls, hand = some (e, calls) → AtMostOnce calls := by
    rintro rfl e calls hh
    simp at hh
  have ofFresh : ∀ e', hand = some (e', []) → ∀ e calls, hand = some (e, calls) →
      AtMostOnce calls := by
    rintro e' rfl e calls hh
    obtain ⟨rfl, rfl⟩ : e' = e ∧ [] = calls := by simpa using hh
    simp [AtMostOnce]
  have ofDealt : (∀ e calls, hand = some (e, calls) → Dealt worker e calls) →
      ∀ e calls, hand = some (e, calls) → AtMostOnce calls := fun hd e calls hh =>
    settledOnce_atMostOnce (by rw [List.append_nil]; exact (hd e calls hh).1)
  cases phase with
  | idle => exact ofNone h
  | starting => exact ofNone h
  | opening => exact ofNone h
  | waiting fetch =>
    rcases fetch with _ | e | _ | e | _
    · exact ofNone h
    · exact ofFresh e h
    · exact ofNone h
    · exact ofNone h
    · exact ofNone h
  | cancelling => exact ofNone h
  | collected e => exact ofFresh e h
  | settling todo result =>
    obtain ⟨e', made, world, hw, rfl, heq⟩ := h
    intro e calls hh
    obtain ⟨rfl, rfl⟩ : e' = e ∧ made = calls := by simpa using hh
    exact settledOnce_atMostOnce (heq ▸ settle_settledOnce worker hw e')
  | running => exact ofDealt h
  | closing raised => exact ofDealt h
  | stopping raised => exact ofDealt h

/-- In every run whose failures can be reported, each delivered envelope is settled by
exactly one call before the next is requested and before the run ends, whenever it is
stopped: acknowledged or rejected as its handling came out. -/
theorem settles_each_delivery (h : (machine ω worker).Reach Reporting s) :
    SettlesEach worker s.log :=
  ⟨(reach_inv h).follows, (reach_inv h).phase.atMostOnce⟩

/-- A world whose bus raises `error`, with listeners and a receiver that only return. -/
def failingWorld (error : Exc Unit) : World Unit where
  bus _ := .error error
  listeners := ⟨fun _ _ => .ok ([], true), fun _ _ => .ok [], fun _ _ _ _ => ([], none)⟩
  ack _ := none
  reject _ := none
  reset := none

/-- A worker stopped while it waits; the fetch it cancels delivers a message all the same,
whose handling raises `error`, and as many calls follow as `performed` says. -/
def stoppedWithOne (error : Exc Unit) (performed : Nat) : List (Action Unit) :=
  [.run, .opened none, .stop, .wake, .fetched (.delivered ⟨(), []⟩),
    .settle (failingWorld error)] ++ List.replicate performed .perform ++ [.closed none]

theorem settles_each_delivery_stopped : SettlesEach {}
    ([.runs, .opened none, .requested, .stop, .delivered ⟨(), []⟩,
      .call (.dispatch ⟨(), []⟩ (.error (.exception "ValueError" "no"))),
      .call (.reject ⟨(), [.shipped (.errorDetails "ValueError" "no")]⟩ none),
      .closed none, .ended none] : List (Event Unit)) := by
  have hw : (failingWorld (.exception "ValueError" "no")).Reportable :=
    ⟨fun _ error h => (Except.error.inj h) ▸ ⟨"no", rfl⟩, by simp [failingWorld],
      by simp [failingWorld]⟩
  have hr : (machine Unit {}).Reach Reporting _ :=
    Machine.Reach.run (.start rfl) (stoppedWithOne (.exception "ValueError" "no") 3)
      (by simp [stoppedWithOne, Reporting, hw]) rfl
  exact settles_each_delivery hr

/-- What a handler raised cannot always be put into words: an exception whose `__str__`
raises ends the run with its message neither acknowledged nor rejected. -/
theorem unprintable_failure_unsettled :
    ¬∀ (worker : Worker) (s : State Unit), (machine Unit worker).Reachable s →
      SettlesEach worker s.log := by
  intro h
  have hr : (machine Unit {}).Reachable _ :=
    Machine.Reachable.run (.start rfl) (stoppedWithOne
      (.unprintable "OrderError" (.exception "AttributeError" "reason")) 2) rfl
  have hend := (h {} _ hr).follows
    [.runs, .opened none, .requested, .stop, .delivered ⟨(), []⟩,
      .call (.dispatch ⟨(), []⟩
        (.error (.unprintable "OrderError" (.exception "AttributeError" "reason")))), .closed none]
    (.ended (some (.exception "AttributeError" "reason"))) [] rfl
  have hs := (hend.1 rfl _ _ rfl).1.once
  exact absurd hs (by decide)

end Worker
end XtrMessenger
