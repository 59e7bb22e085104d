import XtrMessenger.Bus.Frames
import XtrMessenger.Bus.Redispatching

/-! A redispatch to named transports: its senders are called as if nothing had happened to the
message it carries before. -/
namespace XtrMessenger.Bus
open Foundation RedispatchingHandlers
variable {ω : Type}

/-- `RedispatchMessageHandler.__call__`, through a bus. -/
def RedispatchMessageHandler.call [Messages ω] (bus : List (Middleware ω))
    (message : RedispatchMessage ω) : Dispatching ω ω := do
  let envelope := (wrap message.envelope).withoutStamps .nonSendable
  let stamps := if message.transportNames.isEmpty then []
    else [.shipped (.transportNames message.transportNames)]
  let dispatched ← dispatch bus envelope stamps
  return handledResult dispatched

/-- What the handler a call runs returned. -/
def BusCall.answered? [Messages ω] : BusCall ω → Option ω
  | .invoke _ _ (.ok result) => some result
  | .publish _ (.ok dispatched) => some (handledResult dispatched)
  | _ => none

/-- Whether what was called raised. -/
def BusCall.failed : BusCall ω → Bool
  | .send _ _ (.error _) => true
  | .invoke _ _ (.error _) => true
  | .publish _ (.error _) => true
  | _ => false

section Statement
variable [Messages ω] [BEq (Stamp ω)] (f : MessageBusFactory ω) (locator : SendersLocator ω)
  (r : RedispatchMessage ω)

/-- Nothing is raised once a dispatch returned, neither by what logs it nor by the messages held
back meanwhile. -/
structure Quiet (current : Bool) (after : Envelope ω → Except (Exc ω) Unit) : Prop where
  logged : ∀ record, logging record ∈ f.config.middleware → ∀ d, record d = .ok ()
  afterwards : current = false → ∀ d, after d = .ok ()

/-- What handling a redispatch to named transports does, and what it returns. -/
structure Reroutes (quiet : Prop) (run : Dispatching ω ω) : Prop where
  names : (locator.routed r.transportNames).map Prod.fst = r.transportNames.eraseDups
  sent : Answered f locator (redispatched r) →
    sends run.calls = (locator.routed r.transportNames).map (sending (redispatched r))
  cut : ∀ before s rest error, locator.routed r.transportNames = before ++ s :: rest →
    (∀ b ∈ before, ∃ returned, answer (redispatched r) b = .ok returned) →
      answer (redispatched r) s = .error error →
        run = ⟨(before ++ [s]).map (sending (redispatched r)), .error error⟩
  clean : ∀ senderAlias envelope given, .send senderAlias envelope given ∈ run.calls →
    envelope.message = r.message ∧ ∃ sender, locator.senders.get? senderAlias = some sender ∧
      envelope.all .nonSendable = [.shipped (.sent sender.className senderAlias)]
  handled : Answered f locator (redispatched r) → HandedBack f locator (redispatched r) →
    HandledOnce f.handlers r.message run.calls
  unhandled : ¬(Answered f locator (redispatched r) ∧ HandedBack f locator (redispatched r)) →
    Unhandled run.calls
  last : ∀ value, run.result = .ok value → ∀ result,
    (run.calls.filterMap BusCall.answered?).getLast? = some result → value = result
  otherwise : ∀ value, run.result = .ok value → run.calls.filterMap BusCall.answered? = [] →
    value = Messages.none ∨ ∃ senderAlias envelope given stamp name,
      .send senderAlias envelope (.ok given) ∈ run.calls ∧ stamp ∈ given.stamps ∧
        stamp.asShipped = some (.handled name value)
  completes : quiet → (∀ c ∈ run.calls, c.failed = false) →
    (HandedBack f locator (redispatched r) →
      handlersFor f.handlers (PyObject.typeOf r.message) = [] → f.config.requireHandler = false) →
        ∃ value, run.result = .ok value

end Statement

section Logged
variable {quiet : Prop}

theorem logging_follows {record : Envelope ω → Except (Exc ω) Unit}
    (h : quiet → ∀ d, record d = .ok ()) (envelope : Envelope ω)
    (next : Envelope ω → Dispatching ω (Envelope ω)) :
    (logging record envelope next).Follows quiet (next envelope) :=
  Traced.follows_andThen (next envelope) h

theorem chain_logged {middleware : List (Middleware ω)}
    (plain : ∀ m ∈ middleware, ∃ record, m = logging record)
    (h : quiet → ∀ record, logging record ∈ middleware → ∀ d, record d = .ok ())
    (rest : List (Middleware ω)) (e : Envelope ω) :
    (chain (middleware ++ rest) e).Follows quiet (chain rest e) := by
  induction middleware with
  | nil => exact .refl _
  | cons m middleware ih =>
    obtain ⟨record, rfl⟩ := plain m List.mem_cons_self
    have hfirst : quiet → ∀ d, record d = .ok () := fun hq => h hq record List.mem_cons_self
    have hrest := ih (fun m hm => plain m (List.mem_cons_of_mem _ hm))
      fun hq record hm => h hq record (List.mem_cons_of_mem _ hm)
    exact (logging_follows hfirst e _).trans hrest

/-- What does not wait goes on at once, whatever is being handled. -/
theorem holdingBack_follows (current : Bool) {after : Envelope ω → Except (Exc ω) Unit}
    (h : quiet → current = false → ∀ d, after d = .ok ()) {e : Envelope ω}
    (he : e.last (.shipped .dispatchAfterCurrentBus) = none)
    (next : Envelope ω → Dispatching ω (Envelope ω)) :
    (holdingBack current after e next).Follows quiet (next e) := by
  have hsame : goingOn e = e := withoutStamps_of_last_eq_none he
  rw [holdingBack_eq]
  split_ifs with hcurrent
  · have hnext : (dispatchAfterCurrentBus after e next).Follows quiet (next (goingOn e)) :=
      Traced.follows_andThen _ fun hq => h hq hcurrent
    rwa [hsame] at hnext
  · rw [hsame]
    exact .refl _

end Logged

section Redispatched
variable {r : RedispatchMessage ω}

theorem isInstance_nonSendable {s : Stamp ω} {kind : StampKind} (hk : kind.nonSendable = true)
    (h : s.isInstance (.shipped kind) = true) : s.isInstance .nonSendable = true := by
  simp only [Stamp.isInstance, decide_eq_true_eq] at h ⊢
  cases s with
  | shipped s =>
    obtain rfl : s.kind = kind := by simpa [Stamp.asShipped] using h
    exact hk
  | app s =>
    have hbase : s.cls.base = some kind := s.fits.symm.trans h
    simp [Stamp.cls, StampClass.nonSendable, hbase, hk]

theorem redispatched_sendable :
    ∀ s ∈ (redispatched r).stamps, s.isInstance .nonSendable = false := by
  intro s hs
  rcases List.mem_append.mp hs with hs | hs
  · simpa using (List.mem_filter.mp hs).2
  · split_ifs at hs
    · simp at hs
    · obtain rfl := List.mem_singleton.mp hs
      rfl

/-- Nothing of what the old process did with the message is left on it. -/
theorem redispatched_last_eq_none {kind : StampKind} (hk : kind.nonSendable = true) :
    (redispatched r).last (.shipped kind) = none := by
  rw [Envelope.last_eq_none_iff]
  intro s hs
  by_contra hi
  have hn := isInstance_nonSendable hk (Bool.not_eq_false _ ▸ hi)
  simp [redispatched_sendable s hs] at hn

theorem goingOn_redispatched : goingOn (redispatched r) = redispatched r :=
  withoutStamps_of_last_eq_none (redispatched_last_eq_none rfl)

theorem overrideNames_redispatched (h : r.transportNames ≠ []) :
    SendersLocator.overrideNames (redispatched r) = some r.transportNames := by
  have hempty : r.transportNames.isEmpty = false := by simpa using h
  have hlast : (redispatched r).last (.shipped .transportNames) =
      some (.shipped (.transportNames r.transportNames)) := by
    unfold redispatched
    simp only [hempty, Bool.false_eq_true, if_false]
    exact Envelope.last_withStamps_of_isInstance _ rfl []
  simp [SendersLocator.overrideNames, hlast, Stamp.asShipped]

variable [Messages ω] (f : MessageBusFactory ω) (locator : SendersLocator ω)

theorem transportNames_redispatched (h : r.transportNames ≠ []) :
    locator.transportNames f.messages (redispatched r) = r.transportNames := by
  rw [SendersLocator.transportNames, overrideNames_redispatched h]

theorem call_eq (bus : List (Middleware ω)) (r : RedispatchMessage ω) :
    RedispatchMessageHandler.call bus r =
      chain bus (redispatched r) >>= fun dispatched => pure (handledResult dispatched) := rfl

/-- The handler the factories add answers what the handler of the library does through their bus. -/
theorem redispatch_result (bus : List (Middleware ω)) {message : ω} {r : RedispatchMessage ω}
    (h : Messages.asRedispatch message = some r) :
    (redispatch (.ok fun e => (dispatch bus e []).result) message).result =
      (RedispatchMessageHandler.call bus r).result := by
  have hdispatch : dispatch bus (redispatched r) [] = chain bus (redispatched r) := by
    rw [dispatch, Envelope.withStamps_nil]
  rw [call_eq, Traced.bind_pure, redispatch, h]
  dsimp only
  rw [Traced.bind_of_ok _ (Traced.lift_result _), Traced.bind_pure]
  dsimp only [Traced.call_result]
  rw [hdispatch]

end Redispatched

section Recorded
variable [Messages ω]

/-- A handler's answer is what its call shows. -/
theorem invoke_answered (itself : Envelope ω → Except (Exc ω) (Envelope ω)) (found : Found ω)
    (envelope : Envelope ω) : (invoke (.ok itself) found envelope).calls.filterMap
      BusCall.answered? = match (invoke (.ok itself) found envelope).result with
        | .ok result => [result]
        | .error _ => [] := by
  cases found with
  | registered d => cases h : d.invoke envelope <;> simp [invoke, BusCall.answered?, h]
  | redispatching =>
    dsimp only [invoke]
    unfold redispatch
    cases ha : Messages.asRedispatch envelope.message with
    | none => rfl
    | some message =>
      dsimp only
      rw [Traced.bind_of_ok (a := itself) _ rfl]
      cases h : itself (redispatched message) with
      | error error =>
        rw [Traced.bind_of_error (e := error) _ rfl]
        rfl
      | ok dispatched =>
        rw [Traced.bind_of_ok (a := dispatched) _ rfl]
        rfl

/-- What a handler that ran leaves on the envelope. -/
def recording (recorded : String × ω) : Stamp ω := .shipped (.handled recorded.1 recorded.2)

theorem handleEach_recorded (itself : Envelope ω → Except (Exc ω) (Envelope ω))
    (found : List (Found ω)) (envelope : Envelope ω) (errors : List (String × Exc ω)) :
    ∃ (recorded : List (String × ω)) (failures : List (String × Exc ω)),
      (handleEach (invoke (.ok itself)) found envelope errors).result =
        .ok (envelope.withStamps (recorded.map recording), failures) ∧
      (handleEach (invoke (.ok itself)) found envelope errors).calls.filterMap
        BusCall.answered? = recorded.map Prod.snd := by
  induction found generalizing envelope errors with
  | nil => exact ⟨[], errors, by simp [handleEach], rfl⟩
  | cons f rest ih =>
    have hfirst := invoke_answered itself f envelope
    unfold handleEach
    rw [Traced.attempt_bind]
    cases hr : (invoke (.ok itself) f envelope).result with
    | error error =>
      rw [hr] at hfirst
      obtain ⟨recorded, failures, hresult, hcalls⟩ := ih envelope (errors ++ [(unused errors f.name,
        error)])
      refine ⟨recorded, failures, hresult, ?_⟩
      rw [List.filterMap_append, hfirst, hcalls]
      rfl
    | ok result =>
      rw [hr] at hfirst
      obtain ⟨recorded, failures, hresult, hcalls⟩ := ih (envelope.withStamps
        [.shipped (.handled f.name result)]) errors
      refine ⟨(f.name, result) :: recorded, failures, ?_, ?_⟩
      · rw [hresult]
        simp [Envelope.withStamps, recording]
      · rw [List.filterMap_append, hfirst, hcalls]
        rfl

/-- Where the handling step returns, what the handlers returned is on the envelope. -/
theorem handlingStep_recorded (f : MessageBusFactory ω)
    (itself : Envelope ω → Except (Exc ω) (Envelope ω)) {envelope handled : Envelope ω}
    (h : (handlingStep f itself envelope).result = .ok handled) :
    ∃ recorded : List (String × ω),
      handled = envelope.withStamps (recorded.map recording) ∧
        (handlingStep f itself envelope).calls.filterMap BusCall.answered? =
          recorded.map Prod.snd := by
  obtain ⟨recorded, failures, hresult, hcalls⟩ := handleEach_recorded itself
    (handlersFor f.handlers (PyObject.typeOf envelope.message)) envelope []
  refine ⟨recorded, ?_, (congrArg _ (handleMessage_calls _ _ envelope)).trans hcalls⟩
  unfold handlingStep handleMessage at h
  dsimp only [interface] at h
  split_ifs at h with hnone
  · simp at h
  · rw [Traced.bind_of_ok _ hresult] at h
    dsimp only at h
    split_ifs at h with hfailed
    · exact (Except.ok.inj h).symm
    · cases hf : Exc.handlersFailedError (envelope.withStamps (recorded.map recording)) failures <;>
        simp [hf, bind, Except.bind] at h

theorem invoke_failed {inner : HandlersLocator ω}
    {itself : Envelope ω → Except (Exc ω) (Envelope ω)} {found : Found ω} {message : ω}
    (hf : found ∈ handlersFor inner (PyObject.typeOf message))
    {envelope : Envelope ω} (he : envelope.message = message) {error : Exc ω}
    (h : (invoke (.ok itself) found envelope).result = .error error) :
    ∃ c ∈ (invoke (.ok itself) found envelope).calls, c.failed = true := by
  cases found with
  | registered d =>
    have hd : d.invoke envelope = .error error := h
    exact ⟨_, List.mem_singleton_self _, by simp [BusCall.failed, hd]⟩
  | redispatching =>
    obtain ⟨r, hr⟩ := asRedispatch_of_found hf
    rw [invoke, he] at h ⊢
    rw [redispatch_of_some hr rfl]
    refine ⟨_, List.mem_singleton_self _, ?_⟩
    unfold redispatch at h
    rw [hr] at h
    dsimp only at h
    rw [Traced.bind_of_ok (a := itself) _ rfl] at h
    cases ha : itself (redispatched r) with
    | error error => rfl
    | ok dispatched =>
      rw [ha, Traced.bind_of_ok (a := dispatched) _ rfl] at h
      simp at h

omit [Messages ω] in
/-- The loop collects no failure where no call failed. -/
theorem handleEach_completes {invoke : Found ω → Envelope ω → Dispatching ω ω} {message : ω}
    {found : List (Found ω)} (hf : ∀ f ∈ found, ∀ e : Envelope ω, e.message = message →
      ∀ error, (invoke f e).result = .error error → ∃ c ∈ (invoke f e).calls, c.failed = true)
    {envelope : Envelope ω} (he : envelope.message = message) (errors : List (String × Exc ω))
    (hc : ∀ c ∈ (handleEach invoke found envelope errors).calls, c.failed = false) :
    ∃ handled, (handleEach invoke found envelope errors).result = .ok (handled, errors) := by
  induction found generalizing envelope with
  | nil => exact ⟨envelope, rfl⟩
  | cons f rest ih =>
    have hrest := fun g hg => hf g (List.mem_cons_of_mem _ hg)
    unfold handleEach at hc ⊢
    rw [Traced.attempt_bind] at hc ⊢
    cases hr : (invoke f envelope).result with
    | error error =>
      obtain ⟨c, hm, hfailed⟩ := hf f List.mem_cons_self envelope he error hr
      have hunfailed := hc c (List.mem_append_left _ hm)
      simp [hunfailed] at hfailed
    | ok result =>
      rw [hr] at hc
      have he' : (envelope.withStamps [.shipped (.handled f.name result)]).message = message := he
      exact ih hrest he' fun c hm => hc c (List.mem_append_right _ hm)

theorem handlingStep_completes (f : MessageBusFactory ω)
    (itself : Envelope ω → Except (Exc ω) (Envelope ω)) {envelope : Envelope ω}
    (hfound : handlersFor f.handlers (PyObject.typeOf envelope.message) = [] →
      f.config.requireHandler = false)
    (hc : ∀ c ∈ (handlingStep f itself envelope).calls, c.failed = false) :
    ∃ handled, (handlingStep f itself envelope).result = .ok handled := by
  have hcalls : (handlingStep f itself envelope).calls = (handleEach (invoke (.ok itself))
      (handlersFor f.handlers (PyObject.typeOf envelope.message)) envelope []).calls :=
    handleMessage_calls _ _ envelope
  rw [hcalls] at hc
  obtain ⟨handled, hresult⟩ := handleEach_completes (fun g hg e he error hr =>
    invoke_failed hg he hr) rfl [] hc
  refine ⟨handled, ?_⟩
  unfold handlingStep handleMessage
  dsimp only [interface]
  split_ifs with hnone
  · simp only [Bool.and_eq_true, List.isEmpty_iff] at hnone
    simp [hfound hnone.1] at hnone
  · rw [Traced.bind_of_ok _ hresult]
    rfl

theorem handledResult_recording (envelope : Envelope ω) (recorded : List (String × ω))
    (last : String × ω) : handledResult (envelope.withStamps ((recorded ++ [last]).map recording)) =
      last.2 := by
  have hlast : (envelope.withStamps ((recorded ++ [last]).map recording)).last (.shipped .handled) =
      some (recording last) := by
    rw [List.map_append]
    exact Envelope.last_withStamps_of_isInstance envelope rfl _
  unfold handledResult
  rw [hlast]
  rfl

theorem handledResult_eq (envelope : Envelope ω) : handledResult envelope = Messages.none ∨
    ∃ stamp ∈ envelope.stamps, ∃ name, stamp.asShipped = some (.handled name
      (handledResult envelope)) := by
  cases hl : envelope.last (.shipped .handled) with
  | none =>
    left
    simp [handledResult, hl]
  | some stamp =>
    right
    have hi := Envelope.last_isInstance hl
    have hm := (List.mem_filter.mp (List.mem_of_getLast? hl)).1
    simp only [Stamp.isInstance, decide_eq_true_eq] at hi
    refine ⟨stamp, hm, ?_⟩
    cases hs : stamp.asShipped with
    | none => simp [hs] at hi
    | some shipped =>
      cases shipped <;> simp_all [ShippedStamp.kind, handledResult]

end Recorded

section Sending
variable {e : Envelope ω} {before rest : List (String × Sender ω)} {s : String × Sender ω}

/-- The first sender that raises ends the loop. -/
theorem sendEach_cut [BEq (Stamp ω)]
    (hb : ∀ b ∈ before, ∃ returned, answer e b = .ok returned) {error : Exc ω}
    (hs : answer e s = .error error) : sendEach e ((before ++ s :: rest).map .ok) =
      ⟨(before ++ [s]).map (sending e), .error error⟩ := by
  induction before with
  | nil =>
    rw [List.nil_append, List.map_cons, sendEach, Traced.bind_of_error (e := error) _ hs]
    rfl
  | cons b before ih =>
    obtain ⟨returned, hr⟩ := hb b List.mem_cons_self
    have hrest := ih fun c hc => hb c (List.mem_cons_of_mem _ hc)
    rw [List.cons_append, List.map_cons, sendEach, Traced.bind_of_ok (a := returned) _ hr, hrest,
      Traced.bind_of_error (e := error) _ rfl]
    simp

/-- Either every sender answers, or there is a first one that does not. -/
theorem answers_or_cut (e : Envelope ω) (routed : List (String × Sender ω)) :
    (∀ s ∈ routed, ∃ returned, answer e s = .ok returned) ∨
      ∃ before s rest error, routed = before ++ s :: rest ∧
        (∀ b ∈ before, ∃ returned, answer e b = .ok returned) ∧ answer e s = .error error := by
  induction routed with
  | nil => exact .inl (by simp)
  | cons s routed ih =>
    cases hs : answer e s with
    | error error => exact .inr ⟨[], s, routed, error, rfl, by simp, hs⟩
    | ok returned =>
      obtain hall | ⟨before, t, rest, error, rfl, hb, ht⟩ := ih
      · exact .inl (List.forall_mem_cons.mpr ⟨⟨returned, hs⟩, hall⟩)
      · exact .inr ⟨s :: before, t, rest, error, rfl, List.forall_mem_cons.mpr ⟨⟨returned, hs⟩, hb⟩,
          ht⟩

end Sending

section Steps
variable {f : MessageBusFactory ω} {locator : SendersLocator ω} {r : RedispatchMessage ω}

variable [Messages ω]

/-- The envelope that goes out goes to the transports named. -/
theorem sendersFor_redispatched (hne : r.transportNames ≠ [])
    (hknown : ∀ name ∈ r.transportNames, name ∈ locator.senders.keys) :
    (locator.interface f.messages).sendersFor (redispatched r) =
      (locator.routed r.transportNames).map .ok := by
  rw [← SendersLocator.resolve_all hknown, ← transportNames_redispatched f locator hne]
  rfl

theorem answered_iff (hne : r.transportNames ≠ [])
    (hknown : ∀ name ∈ r.transportNames, name ∈ locator.senders.keys) :
    Answered f locator (redispatched r) ↔
      ∀ s ∈ locator.routed r.transportNames, ∃ returned,
        answer (redispatched r) s = .ok returned := by
  constructor
  · intro h
    have hrouted := Answered.routed h
    rwa [transportNames_redispatched f locator hne, goingOn_redispatched] at hrouted
  · intro h name hm
    rw [transportNames_redispatched f locator hne] at hm
    rw [goingOn_redispatched]
    obtain ⟨sender, hs⟩ := locator.senders.get?_of_mem_keys (hknown name hm)
    obtain ⟨returned, hr⟩ := h (name, sender) (SendersLocator.mem_routed.mpr ⟨hm, hs⟩)
    exact ⟨sender, returned, hs, hr⟩

theorem handedBack_iff (hne : r.transportNames ≠ []) : HandedBack f locator (redispatched r) ↔
    ∃ s ∈ locator.routed r.transportNames, ∃ returned,
      answer (redispatched r) s = .ok returned ∧ returned.last (.shipped .received) ≠ none := by
  unfold HandedBack
  rw [transportNames_redispatched f locator hne, goingOn_redispatched]

variable [BEq (Stamp ω)]

/-- Handling a redispatch comes to what sending and handling what goes out come to, but may raise
once they returned. -/
theorem call_follows (on : f.config.defaultMiddleware = true)
    (plain : ∀ m ∈ f.config.middleware, ∃ record, m = logging record)
    (hl : f.locator = .ok locator) {current : Bool} {after : Envelope ω → Except (Exc ω) Unit}
    {itself : Envelope ω → Except (Exc ω) (Envelope ω)} {bus : List (Middleware ω)}
    (hb : f.busWithin current after itself = .ok bus) (r : RedispatchMessage ω) :
    (RedispatchMessageHandler.call bus r).Follows (Quiet f current after)
      ⟨(sendingStep f locator itself (redispatched r)).calls,
        (sendingStep f locator itself (redispatched r)).result.map handledResult⟩ := by
  unfold MessageBusFactory.busWithin MessageBusConfig.chainWithin at hb
  simp only [on, Bool.not_true, Bool.false_eq_true, if_false, hl] at hb
  obtain rfl := Except.ok.inj hb
  have hwaits := @redispatched_last_eq_none ω r .dispatchAfterCurrentBus rfl
  have hheld := holdingBack_follows current (fun quiet : Quiet f current after =>
    quiet.afterwards) hwaits
  have hlogged := chain_logged plain (fun quiet : Quiet f current after => quiet.logged)
  exact ((hheld _).trans (hlogged _ _)).map handledResult

variable {itself : Envelope ω → Except (Exc ω) (Envelope ω)}

theorem sendingStep_cut (hne : r.transportNames ≠ [])
    (hknown : ∀ name ∈ r.transportNames, name ∈ locator.senders.keys)
    {before rest : List (String × Sender ω)} {s : String × Sender ω} {error : Exc ω}
    (hrouted : locator.routed r.transportNames = before ++ s :: rest)
    (hb : ∀ b ∈ before, ∃ returned, answer (redispatched r) b = .ok returned)
    (hs : answer (redispatched r) s = .error error) :
    sendingStep f locator itself (redispatched r) =
      ⟨(before ++ [s]).map (sending (redispatched r)), .error error⟩ := by
  have hsenders := sendersFor_redispatched (f := f) hne hknown
  have hcut := @sendEach_cut ω _ before rest s _ hb error hs
  have hsome : (locator.interface f.messages).sendersFor (redispatched r) ≠ [] := by
    simp [hsenders, hrouted]
  rw [sendingStep, sendMessage_resolved _ _ _ (redispatched_last_eq_none rfl) hsome, hsenders,
    hrouted, hcut, Traced.bind_of_error (e := error) _ rfl]

/-- What sending and handling come to once every sender answered. -/
theorem sendingStep_answered (hne : r.transportNames ≠ [])
    (hknown : ∀ name ∈ r.transportNames, name ∈ locator.senders.keys)
    {returned : List (Envelope ω)}
    (ha : List.Forall₂ (fun s given => answer (redispatched r) s = .ok given)
      (locator.routed r.transportNames) returned) :
    let merged := (redispatched r).withStamps
      (returned.map fun given => addedBy given.stamps (redispatched r).stamps).flatten
    let rest := if merged.last (.shipped .received) = none then pure merged
      else handlingStep f itself merged
    sendingStep f locator itself (redispatched r) =
      ⟨(locator.routed r.transportNames).map (sending (redispatched r)) ++ rest.calls,
        rest.result⟩ := by
  have hsenders := sendersFor_redispatched (f := f) hne hknown
  exact sendMessage_routed f.config.requireSender f.config.handleUnrouted (handlingStep f itself)
    (redispatched_last_eq_none rfl) hsenders (SendersLocator.routed_ne_nil hne hknown) ha

/-- Where sending and handling return, every sender answered, and what they added and what the
handlers returned since is on the envelope. -/
theorem sendingStep_returned (hne : r.transportNames ≠ [])
    (hknown : ∀ name ∈ r.transportNames, name ∈ locator.senders.keys) {d : Envelope ω}
    (h : (sendingStep f locator itself (redispatched r)).result = .ok d) :
    ∃ (returned : List (Envelope ω)) (recorded : List (String × ω)),
      List.Forall₂ (fun s given => answer (redispatched r) s = .ok given)
        (locator.routed r.transportNames) returned ∧
      d = ((redispatched r).withStamps (returned.map fun given => addedBy given.stamps
        (redispatched r).stamps).flatten).withStamps (recorded.map recording) ∧
      (sendingStep f locator itself (redispatched r)).calls.filterMap BusCall.answered? =
        recorded.map Prod.snd := by
  obtain hall | ⟨before, s, rest, error, hrouted, hb, hs⟩ :=
    answers_or_cut (redispatched r) (locator.routed r.transportNames)
  · obtain ⟨returned, ha⟩ := exists_forall₂ hall
    have hnone : ((locator.routed r.transportNames).map (sending (redispatched r))).filterMap
        BusCall.answered? = [] := by
      simp [sending, BusCall.answered?]
    rw [sendingStep_answered hne hknown ha] at h ⊢
    dsimp only at h ⊢
    rw [List.filterMap_append, hnone, List.nil_append]
    split_ifs at h ⊢ with hreceived
    · refine ⟨returned, [], ha, ?_, rfl⟩
      simpa using (Except.ok.inj h).symm
    · obtain ⟨recorded, hd, hcalls⟩ := handlingStep_recorded f itself h
      exact ⟨returned, recorded, ha, hd, hcalls⟩
  · rw [sendingStep_cut hne hknown hrouted hb hs] at h
    simp at h

/-- Where no call raises, sending and handling return, if a handler is found or none required. -/
theorem sendingStep_completes [StampEquality ω] (hne : r.transportNames ≠ [])
    (hknown : ∀ name ∈ r.transportNames, name ∈ locator.senders.keys)
    (hc : ∀ c ∈ (sendingStep f locator itself (redispatched r)).calls, c.failed = false)
    (hfound : HandedBack f locator (redispatched r) →
      handlersFor f.handlers (PyObject.typeOf r.message) = [] → f.config.requireHandler = false) :
    ∃ d, (sendingStep f locator itself (redispatched r)).result = .ok d := by
  obtain hall | ⟨before, s, rest, error, hrouted, hb, hs⟩ :=
    answers_or_cut (redispatched r) (locator.routed r.transportNames)
  · obtain ⟨returned, ha⟩ := exists_forall₂ hall
    have hmerged := merged_received_iff (redispatched r) _ (redispatched_last_eq_none rfl) ha
    rw [sendingStep_answered hne hknown ha] at hc ⊢
    dsimp only at hc ⊢
    split_ifs at hc ⊢ with hreceived
    · exact ⟨_, rfl⟩
    · have hback : HandedBack f locator (redispatched r) :=
        (handedBack_iff hne).mpr (hmerged.mp hreceived)
      refine handlingStep_completes f itself (fun hnone => hfound hback ?_)
        fun c hm => hc c (List.mem_append_right _ hm)
      rw [← redispatched_message r]
      exact hnone
  · rw [sendingStep_cut hne hknown hrouted hb hs] at hc
    have hfailed := hc (sending (redispatched r) s) (List.mem_map_of_mem (by simp))
    simp [sending, hs, BusCall.failed] at hfailed

omit [Messages ω] [BEq (Stamp ω)] in
/-- Whatever a redispatch sends goes to one of the senders named, as the message carried with
nothing of the old process on it. -/
theorem sending_clean {s : String × Sender ω} (hs : s ∈ locator.routed r.transportNames)
    {senderAlias : String} {envelope : Envelope ω} {given : Except (Exc ω) (Envelope ω)}
    (h : sending (redispatched r) s = .send senderAlias envelope given) :
    envelope.message = r.message ∧ ∃ sender, locator.senders.get? senderAlias = some sender ∧
      envelope.all .nonSendable = [.shipped (.sent sender.className senderAlias)] := by
  obtain ⟨-, hget⟩ := SendersLocator.mem_routed.mp hs
  simp only [sending, BusCall.send.injEq] at h
  obtain ⟨rfl, rfl, -⟩ := h
  refine ⟨redispatched_message r, s.2, hget, ?_⟩
  have hnone : (redispatched r).stamps.filter (fun stamp => stamp.isInstance .nonSendable) = [] :=
    List.filter_eq_nil_iff.mpr fun stamp hm => by simp [redispatched_sendable stamp hm]
  rw [Envelope.all, handed, Envelope.withStamps_stamps, List.filter_append, hnone]
  rfl

variable (itself) in
/-- Who was called, and who ran, once every sender answered. -/
theorem sendingStep_sent [StampEquality ω] (hne : r.transportNames ≠ [])
    (ha : Answered f locator (redispatched r)) :
    let calls := (sendingStep f locator itself (redispatched r)).calls
    sends calls = (locator.routed r.transportNames).map (sending (redispatched r)) ∧
      (HandedBack f locator (redispatched r) → HandledOnce f.handlers r.message calls) ∧
      (¬HandedBack f locator (redispatched r) → Unhandled calls) := by
  have hsome : locator.transportNames f.messages (redispatched r) ≠ [] :=
    transportNames_redispatched f locator hne ▸ hne
  obtain ⟨-, hsends, hhandled, hunhandled⟩ :=
    sendingStep_routed itself (redispatched_last_eq_none rfl) hsome ha
  rw [transportNames_redispatched f locator hne] at hsends
  rw [goingOn_redispatched] at hsends hhandled hunhandled
  exact ⟨hsends, redispatched_message r ▸ hhandled, hunhandled⟩

/-- Every call of a sender is that of one of those named. -/
theorem mem_sendingStep [StampEquality ω] (hne : r.transportNames ≠ [])
    (hknown : ∀ name ∈ r.transportNames, name ∈ locator.senders.keys) {c : BusCall ω}
    (hc : c ∈ (sendingStep f locator itself (redispatched r)).calls) (hsend : c.isSend = true) :
    ∃ s ∈ locator.routed r.transportNames, sending (redispatched r) s = c := by
  obtain hall | ⟨before, s, rest, error, hrouted, hb, hs⟩ :=
    answers_or_cut (redispatched r) (locator.routed r.transportNames)
  · have ha := (answered_iff (f := f) hne hknown).mpr hall
    obtain ⟨hsends, -, -⟩ := sendingStep_sent itself hne ha
    have hm : c ∈ sends (sendingStep f locator itself (redispatched r)).calls :=
      List.mem_filter.mpr ⟨hc, hsend⟩
    exact List.mem_map.mp (hsends ▸ hm)
  · rw [sendingStep_cut hne hknown hrouted hb hs] at hc
    obtain ⟨t, ht, rfl⟩ := List.mem_map.mp hc
    refine ⟨t, ?_, rfl⟩
    rw [hrouted]
    simp only [List.mem_append, List.mem_cons, List.not_mem_nil, or_false] at ht ⊢
    tauto

/-- The result is that of the last handler that ran. -/
theorem value_of_last (hne : r.transportNames ≠ [])
    (hknown : ∀ name ∈ r.transportNames, name ∈ locator.senders.keys) {value result : ω}
    (hv : (sendingStep f locator itself (redispatched r)).result.map handledResult = .ok value)
    (hlast : ((sendingStep f locator itself (redispatched r)).calls.filterMap
      BusCall.answered?).getLast? = some result) : value = result := by
  obtain ⟨d, hd, rfl⟩ := map_eq_ok_iff.mp hv
  obtain ⟨returned, recorded, -, rfl, hanswered⟩ := sendingStep_returned hne hknown hd
  rw [hanswered] at hlast
  rcases List.eq_nil_or_concat recorded with rfl | ⟨before, last, rfl⟩
  · simp at hlast
  · rw [List.concat_eq_append] at hlast ⊢
    rw [handledResult_recording]
    simpa using hlast

/-- Where no handler ran, the result is what a sender recorded, if any did. -/
theorem value_of_none [EquivBEq (Stamp ω)] (hne : r.transportNames ≠ [])
    (hknown : ∀ name ∈ r.transportNames, name ∈ locator.senders.keys) {value : ω}
    (hv : (sendingStep f locator itself (redispatched r)).result.map handledResult = .ok value)
    (hnone : (sendingStep f locator itself (redispatched r)).calls.filterMap
      BusCall.answered? = []) : value = Messages.none ∨ ∃ senderAlias envelope given stamp name,
        .send senderAlias envelope (.ok given) ∈
            (sendingStep f locator itself (redispatched r)).calls ∧
          stamp ∈ given.stamps ∧ stamp.asShipped = some (.handled name value) := by
  obtain ⟨d, hd, hvalue⟩ := map_eq_ok_iff.mp hv
  obtain ⟨returned, recorded, ha, rfl, hanswered⟩ := sendingStep_returned hne hknown hd
  obtain rfl : recorded = [] := List.map_eq_nil_iff.mp (hanswered.symm.trans hnone)
  rw [List.map_nil, Envelope.withStamps_nil] at hvalue
  obtain hn | ⟨stamp, hm, name, hs⟩ := handledResult_eq ((redispatched r).withStamps
    (returned.map fun given => addedBy given.stamps (redispatched r).stamps).flatten)
  · exact .inl (hvalue ▸ hn)
  · right
    rw [hvalue] at hs
    rcases List.mem_append.mp hm with hm | hm
    · -- nothing recorded earlier is left on what goes out
      have hold := Envelope.last_eq_none_iff.mp (@redispatched_last_eq_none ω r .handled rfl) _ hm
      simp [Stamp.isInstance, hs, ShippedStamp.kind] at hold
    · obtain ⟨added, hadded, hm⟩ := List.mem_flatten.mp hm
      obtain ⟨given, hgiven, rfl⟩ := List.mem_map.mp hadded
      obtain ⟨s, hrouted, hanswer⟩ := exists_of_mem_right ha hgiven
      have hcalled : sending (redispatched r) s =
          .send s.1 (handed (redispatched r) s) (.ok given) := by rw [sending, hanswer]
      rw [addedBy_eq_surplus] at hm
      refine ⟨s.1, handed (redispatched r) s, given, stamp, name, ?_,
        (surplus_sublist _ _).subset hm, hs⟩
      rw [sendingStep_answered hne hknown ha, ← hcalled]
      exact List.mem_append_left _ (List.mem_map_of_mem hrouted)

/-- No handler runs where a sender raises or none hands the message back. -/
theorem sendingStep_unhandled [StampEquality ω] (hne : r.transportNames ≠ [])
    (hknown : ∀ name ∈ r.transportNames, name ∈ locator.senders.keys)
    (h : ¬(Answered f locator (redispatched r) ∧ HandedBack f locator (redispatched r))) :
    Unhandled (sendingStep f locator itself (redispatched r)).calls := by
  obtain hall | ⟨before, s, rest, error, hrouted, hb, hs⟩ :=
    answers_or_cut (redispatched r) (locator.routed r.transportNames)
  · have ha := (answered_iff (f := f) hne hknown).mpr hall
    exact (sendingStep_sent itself hne ha).2.2 fun hback => h ⟨ha, hback⟩
  · rw [sendingStep_cut hne hknown hrouted hb hs]
    exact unhandled_sendings _ _

end Steps

/-- A redispatch to named transports goes to each of them once and in order, up to the first that
raises, as new, and returns what came of it now. -/
theorem reroutes [Messages ω] [BEq (Stamp ω)] [StampEquality ω] (f : MessageBusFactory ω)
    (on : f.config.defaultMiddleware = true)
    (plain : ∀ m ∈ f.config.middleware, ∃ record, m = logging record)
    {locator : SendersLocator ω} (hl : f.locator = .ok locator) {current : Bool}
    {after : Envelope ω → Except (Exc ω) Unit} {itself : Envelope ω → Except (Exc ω) (Envelope ω)}
    {bus : List (Middleware ω)} (hb : f.busWithin current after itself = .ok bus)
    (carried : Carried ω) {names : List String} (hne : ∃ name ∈ names, name ≠ "")
    (hknown : ∀ name ∈ names, name ≠ "" → name ∈ locator.senders.keys) :
    Reroutes f locator (.of carried names) (Quiet f current after)
      (RedispatchMessageHandler.call bus (.of carried names)) := by
  generalize hr : RedispatchMessage.of carried names = r
  have hnames : r.transportNames = names.filter fun name => name ≠ "" := hr ▸ rfl
  have hsome : r.transportNames ≠ [] := by
    obtain ⟨name, hm, hname⟩ := hne
    exact List.ne_nil_of_mem (hnames ▸ List.mem_filter.mpr ⟨hm, by simpa using hname⟩)
  have hconfigured : ∀ name ∈ r.transportNames, name ∈ locator.senders.keys := by
    intro name hm
    obtain ⟨hm, hname⟩ := List.mem_filter.mp (hnames ▸ hm)
    exact hknown name hm (by simpa using hname)
  have hfollows := call_follows on plain hl hb r
  have hcalls : (RedispatchMessageHandler.call bus r).calls =
      (sendingStep f locator itself (redispatched r)).calls := hfollows.calls
  constructor
  case names => exact SendersLocator.routed_names hconfigured
  case sent => exact fun ha => hcalls ▸ (sendingStep_sent itself hsome ha).1
  case cut =>
    intro before s rest error hrouted hb hs
    have hcut : sendingStep f locator itself (redispatched r) = _ :=
      sendingStep_cut hsome hconfigured hrouted hb hs
    rw [hcut] at hfollows
    exact hfollows.raised rfl
  case clean =>
    intro senderAlias envelope given hm
    obtain ⟨s, hs, hsending⟩ := mem_sendingStep hsome hconfigured (hcalls ▸ hm) rfl
    exact sending_clean hs hsending
  case handled => exact fun ha => hcalls ▸ (sendingStep_sent itself hsome ha).2.1
  case unhandled => exact fun h => hcalls ▸ sendingStep_unhandled hsome hconfigured h
  case last =>
    intro value hv result hlast
    exact value_of_last hsome hconfigured (hfollows.returned hv) (hcalls ▸ hlast)
  case otherwise =>
    intro value hv hnone
    rw [hcalls] at hnone ⊢
    exact value_of_none hsome hconfigured (hfollows.returned hv) hnone
  case completes =>
    intro quiet hc hfound
    obtain ⟨d, hd⟩ := sendingStep_completes hsome hconfigured (hcalls ▸ hc) hfound
    refine ⟨handledResult d, (hfollows.result_eq quiet).trans ?_⟩
    simp [hd, Except.map]

section Samples

/-- Two transports, the first answering as it is given to. -/
def twoSenders (first : Envelope Sample → Except (Exc Sample) (Envelope Sample)) :
    SendersLocator Sample :=
  ⟨.empty, ((Dict.empty : Dict String (Sender Sample)).set "urgent" ⟨"SyncTransport", first⟩).set
    "reports" ⟨"InMemoryTransport", .ok⟩, by simp [Dict.values, Dict.empty]⟩

def twoSendersFactory (first : Envelope Sample → Except (Exc Sample) (Envelope Sample)) :
    MessageBusFactory Sample where
  config := { middleware := [logging fun _ => .ok ()] }
  senders := .ok (twoSenders first).senders
  messages := .empty
  handlers := ⟨.empty⟩

/-- A report a worker of an old process received, routed, held back and handled. -/
def staleReport : Carried Sample := .envelope ⟨.report, [.shipped (.received "reports"),
  .shipped (.transportNames ["reports"]), .shipped .dispatchAfterCurrentBus,
  .shipped (.ackReceipt 3), .shipped (.handled "build" .redispatch), .shipped (.delay 250)]⟩

theorem reroutes_urgent : ∃ bus, (twoSendersFactory .ok).busWithin true (fun _ => .ok ()) .ok =
      .ok bus ∧
    Reroutes (twoSendersFactory .ok) (twoSenders .ok) (.of staleReport ["urgent", "", "urgent"])
      (Quiet (twoSendersFactory .ok) true fun _ => .ok ())
      (RedispatchMessageHandler.call bus (.of staleReport ["urgent", "", "urgent"])) := by
  refine ⟨_, rfl, ?_⟩
  refine reroutes (twoSendersFactory .ok) rfl (fun m hm => ?_) rfl rfl staleReport
    ⟨"urgent", by decide, by decide⟩ (by decide)
  exact ⟨_, List.mem_singleton.mp hm⟩

/-- A sender that raises, as that of `sync://` does when asked for a delay. -/
def refusing : Envelope Sample → Except (Exc Sample) (Envelope Sample) := fun _ =>
  .error (.exception "UnsupportedStampError" "the 'sync' transport cannot honour a DelayStamp")

/-- A sender that answers with a result, as if the message had been handled where it went. -/
def answering : Envelope Sample → Except (Exc Sample) (Envelope Sample) := fun e =>
  .ok (e.withStamps [.shipped (.handled "remote" .redispatch)])

/-- A sender that raises leaves those named after it uncalled, and where no handler runs, a sender
may still have recorded a result. -/
theorem uncalled_and_recorded :
    (∃ bus, (twoSendersFactory refusing).busWithin true (fun _ => .ok ()) .ok = .ok bus ∧
      sends (RedispatchMessageHandler.call bus (.of staleReport ["urgent", "reports"])).calls ≠
        ((twoSenders refusing).routed ["urgent", "reports"]).map
          (sending (redispatched (.of staleReport ["urgent", "reports"])))) ∧
    ∃ bus, (twoSendersFactory answering).busWithin true (fun _ => .ok ()) .ok = .ok bus ∧
      (RedispatchMessageHandler.call bus (.of staleReport ["urgent"])).result = .ok .redispatch ∧
      Unhandled (RedispatchMessageHandler.call bus (.of staleReport ["urgent"])).calls := by
  refine ⟨⟨_, rfl, fun h => ?_⟩, _, rfl, rfl, rfl⟩
  have hcount := congrArg List.length h
  exact absurd hcount (by decide)

end Samples
end XtrMessenger.Bus
