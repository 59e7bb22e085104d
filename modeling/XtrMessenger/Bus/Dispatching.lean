import XtrMessenger.Bus.Factories

/-! Whether a message dispatched through a factory's bus is sent, handled, both or neither. -/
namespace XtrMessenger.Bus
open Foundation
variable {ω : Type}

/-- Every handler of a message ran once: those bound to its class or a base, or for a redispatch
without any the one the factory adds. -/
structure HandledOnce [Messages ω] (handlers : HandlersLocator ω) (message : ω)
    (calls : List (BusCall ω)) : Prop where
  runs : RunsEach handlers (PyObject.typeOf message) calls
  published : (calls.filterMap BusCall.published?).length =
    if handlers.boundTo (PyObject.typeOf message) = [] ∧
      redispatchMessage ∈ mro ω (PyObject.typeOf message) then 1 else 0

/-- No handler ran. -/
def Unhandled (calls : List (BusCall ω)) : Prop := calls.filterMap BusCall.ran? = []

/-- The calls of senders. -/
def sends (calls : List (BusCall ω)) : List (BusCall ω) := calls.filter BusCall.isSend

/-- The envelope past the middleware that holds messages back. -/
def goingOn (envelope : Envelope ω) : Envelope ω :=
  envelope.withoutStamps (.shipped .dispatchAfterCurrentBus)

section Statement
variable [Messages ω] [BEq (Stamp ω)] (f : MessageBusFactory ω) (locator : SendersLocator ω)
  (envelope : Envelope ω)

/-- Every transport named is known, and its sender answers. -/
def Answered : Prop := ∀ name ∈ locator.transportNames f.messages envelope,
  ∃ sender returned, locator.senders.get? name = some sender ∧
    answer (goingOn envelope) (name, sender) = .ok returned

/-- A sender hands the message back received. -/
def HandedBack : Prop := ∃ s ∈ locator.routed (locator.transportNames f.messages envelope),
  ∃ returned, answer (goingOn envelope) s = .ok returned ∧
    returned.last (.shipped .received) ≠ none

/-- What a dispatch does with a message. -/
structure SendsOrHandles (run : Dispatching ω (Envelope ω)) : Prop where
  received : envelope.last (.shipped .received) ≠ none →
    sends run.calls = [] ∧ HandledOnce f.handlers envelope.message run.calls
  routed : envelope.last (.shipped .received) = none →
    locator.transportNames f.messages envelope ≠ [] → Answered f locator envelope →
      (locator.routed (locator.transportNames f.messages envelope)).map Prod.fst =
        (locator.transportNames f.messages envelope).eraseDups ∧
      sends run.calls = (locator.routed (locator.transportNames f.messages envelope)).map
        (sending (goingOn envelope)) ∧
      (HandedBack f locator envelope → HandledOnce f.handlers envelope.message run.calls) ∧
      (¬HandedBack f locator envelope → Unhandled run.calls)
  refused : envelope.last (.shipped .received) = none →
    locator.transportNames f.messages envelope = [] → f.config.requireSender = true →
      run = ⟨[], .error (noSenderForMessageError (PyObject.typeOf envelope.message)
        locator.routedTypeNames)⟩
  unrouted : envelope.last (.shipped .received) = none →
    locator.transportNames f.messages envelope = [] → f.config.requireSender = false →
      sends run.calls = [] ∧
      (f.config.handleUnrouted = true → HandledOnce f.handlers envelope.message run.calls) ∧
      (f.config.handleUnrouted = false → Unhandled run.calls)

end Statement

section Parts

theorem sends_eq_nil {calls : List (BusCall ω)} (h : ∀ c ∈ calls, c.isSend = false) :
    sends calls = [] := List.filter_eq_nil_iff.mpr fun c hc => by simp [h c hc]

variable [Messages ω]

/-- The handling step runs every handler of the message it is handed. -/
theorem handledOnce (handlers : HandlersLocator ω)
    (itself : Envelope ω → Except (Exc ω) (Envelope ω)) (requireHandler : Bool)
    (envelope : Envelope ω) :
    let run := handleMessage (RedispatchingHandlers.interface handlers (.ok itself)) requireHandler
      envelope pure
    HandledOnce handlers envelope.message run.calls ∧ ∀ c ∈ run.calls, c.isSend = false := by
  obtain ⟨hran, hsend⟩ := handleMessage_ran
    (RedispatchingHandlers.interface handlers (.ok itself)) requireHandler envelope
    fun f hf e he => RedispatchingHandlers.invoke_ran hf he
  have hfound : (RedispatchingHandlers.interface handlers (.ok itself)).handlersFor
      (PyObject.typeOf envelope.message) =
      RedispatchingHandlers.handlersFor handlers (PyObject.typeOf envelope.message) := rfl
  rw [hfound] at hran
  by_cases hbound : handlers.boundTo (PyObject.typeOf envelope.message) = []
  · rw [RedispatchingHandlers.handlersFor_of_unbound hbound] at hran
    have hnone := HandlersLocator.handlersFor_eq_nil.mpr hbound
    refine ⟨⟨runsEach_of_invoked ?_, ?_⟩, hsend⟩
    · rw [filterMap_invoked?, hran, hnone]
      split_ifs <;> rfl
    · rw [length_published, hran]
      by_cases hm : redispatchMessage ∈ mro ω (PyObject.typeOf envelope.message)
      · simp [hm, hbound, Found.isRedispatching]
      · simp [hm]
  · rw [RedispatchingHandlers.handlersFor_of_bound hbound] at hran
    refine ⟨⟨runsEach_of_invoked ?_, ?_⟩, hsend⟩
    · rw [filterMap_invoked?, hran, List.filterMap_map]
      simp [Function.comp_def, Found.descriptor?]
    · rw [length_published, hran, countP_registered, if_neg fun h => hbound h.1]

theorem transportNames_goingOn (locator : SendersLocator ω) (messages : MessageRegistry)
    (envelope : Envelope ω) : locator.transportNames messages (goingOn envelope) =
      locator.transportNames messages envelope := by
  have hkept := last_withoutStamps_of_ne envelope
    (show StampKind.transportNames ≠ .dispatchAfterCurrentBus by decide)
  unfold SendersLocator.transportNames SendersLocator.overrideNames goingOn
  rw [hkept]
  rfl

end Parts

section Routed
variable (envelope : Envelope ω) (routed : List (String × Sender ω)) {calls : List (BusCall ω)}

theorem sends_append_sendings (h : ∀ c ∈ calls, c.isSend = false) :
    sends (routed.map (sending envelope) ++ calls) = routed.map (sending envelope) := by
  have hall : ∀ c ∈ routed.map (sending envelope), c.isSend = true := by
    intro c hc
    obtain ⟨s, -, rfl⟩ := List.mem_map.mp hc
    rfl
  have hnone := sends_eq_nil h
  unfold sends at hnone ⊢
  rw [List.filter_append, hnone, List.filter_eq_self.mpr hall, List.append_nil]

theorem unhandled_sendings : Unhandled (routed.map (sending envelope)) := by
  unfold Unhandled
  simp [sending, BusCall.ran?]

theorem HandledOnce.after_sendings [Messages ω] {handlers : HandlersLocator ω} {message : ω}
    (h : HandledOnce handlers message calls) :
    HandledOnce handlers message (routed.map (sending envelope) ++ calls) := by
  have hinvoked : (routed.map (sending envelope) ++ calls).filterMap BusCall.invoked? =
      calls.filterMap BusCall.invoked? := by
    simp [List.filterMap_append, sending, BusCall.invoked?]
  have hpublished : (routed.map (sending envelope) ++ calls).filterMap BusCall.published? =
      calls.filterMap BusCall.published? := by
    simp [List.filterMap_append, sending, BusCall.published?]
  exact ⟨⟨hinvoked ▸ h.runs.once, hinvoked ▸ h.runs.each⟩, hpublished ▸ h.published⟩

theorem merged_received_iff [BEq (Stamp ω)] [StampEquality ω] {returned : List (Envelope ω)}
    (hr : envelope.last (.shipped .received) = none)
    (ha : List.Forall₂ (fun s r => answer envelope s = .ok r) routed returned) :
    (envelope.withStamps (returned.map fun r => addedBy r.stamps envelope.stamps).flatten).last
        (.shipped .received) ≠ none ↔
      ∃ s ∈ routed, ∃ r, answer envelope s = .ok r ∧ r.last (.shipped .received) ≠ none := by
  have hbefore := Envelope.last_eq_none_iff.mp hr
  have hsome : ∀ e : Envelope ω, e.last (.shipped .received) ≠ none ↔
      ∃ s ∈ e.stamps, s.isInstance (.shipped .received) = true := by
    intro e
    rw [Ne, Envelope.last_eq_none_iff]
    simp
  rw [hsome]
  constructor
  · rintro ⟨s, hs, hi⟩
    rcases List.mem_append.mp hs with hs | hs
    · simp [hbefore s hs] at hi
    obtain ⟨added, hm, hs⟩ := List.mem_flatten.mp hs
    obtain ⟨r, hreturned, rfl⟩ := List.mem_map.mp hm
    obtain ⟨from_, hf, hanswer⟩ := exists_of_mem_right ha hreturned
    exact ⟨from_, hf, r, hanswer, (hsome r).mpr ((exists_addedBy_iff hbefore).mp ⟨s, hs, hi⟩)⟩
  · rintro ⟨from_, hf, r, hanswer, hreceived⟩
    obtain ⟨r', hm, hanswer'⟩ := exists_of_mem_right ha.flip hf
    obtain rfl : r = r' := Except.ok.inj (hanswer.symm.trans hanswer')
    obtain ⟨s, hs, hi⟩ := (exists_addedBy_iff hbefore).mpr ((hsome r).mp hreceived)
    exact ⟨s, List.mem_append_right _ (List.mem_flatten.mpr
      ⟨_, List.mem_map.mpr ⟨r, hm, rfl⟩, hs⟩), hi⟩

end Routed

section Steps
variable [Messages ω] [BEq (Stamp ω)] (f : MessageBusFactory ω) (locator : SendersLocator ω)
  (itself : Envelope ω → Except (Exc ω) (Envelope ω))

def handlingStep (envelope : Envelope ω) : Dispatching ω (Envelope ω) :=
  handleMessage (RedispatchingHandlers.interface f.handlers (.ok itself)) f.config.requireHandler
    envelope pure

def sendingStep (envelope : Envelope ω) : Dispatching ω (Envelope ω) :=
  sendMessage (locator.interface f.messages) f.config.requireSender f.config.handleUnrouted
    envelope (handlingStep f itself)

variable {f locator} {envelope : Envelope ω}

omit [BEq (Stamp ω)] in
theorem Answered.known (ha : Answered f locator envelope) :
    ∀ name ∈ locator.transportNames f.messages envelope, name ∈ locator.senders.keys := by
  intro name hm
  obtain ⟨sender, -, hs, -⟩ := ha name hm
  by_contra hk
  simp [(Dict.get?_eq_none_iff _).mpr hk] at hs

omit [BEq (Stamp ω)] in
theorem Answered.routed (ha : Answered f locator envelope) :
    ∀ s ∈ locator.routed (locator.transportNames f.messages envelope),
      ∃ r, answer (goingOn envelope) s = .ok r := by
  intro s hs
  obtain ⟨hm, hget⟩ := SendersLocator.mem_routed.mp hs
  obtain ⟨sender, r, hsender, hr⟩ := ha s.1 hm
  obtain rfl : s.2 = sender := Option.some.inj (hget.symm.trans hsender)
  exact ⟨r, hr⟩

theorem sendingStep_routed [StampEquality ω] (hr : envelope.last (.shipped .received) = none)
    (hne : locator.transportNames f.messages envelope ≠ []) (ha : Answered f locator envelope) :
    let routed := locator.routed (locator.transportNames f.messages envelope)
    let run := sendingStep f locator itself (goingOn envelope)
    routed.map Prod.fst = (locator.transportNames f.messages envelope).eraseDups ∧
      sends run.calls = routed.map (sending (goingOn envelope)) ∧
      (HandedBack f locator envelope → HandledOnce f.handlers envelope.message run.calls) ∧
      (¬HandedBack f locator envelope → Unhandled run.calls) := by
  have hknown := ha.known
  obtain ⟨returned, hall⟩ := exists_forall₂ ha.routed
  have hreceived : (goingOn envelope).last (.shipped .received) = none :=
    (last_withoutStamps_of_ne envelope (by decide)).trans hr
  have hsenders : (locator.interface f.messages).sendersFor (goingOn envelope) =
      (locator.routed (locator.transportNames f.messages envelope)).map .ok := by
    rw [← SendersLocator.resolve_all hknown, ← transportNames_goingOn]
    rfl
  have hnames := SendersLocator.routed_names hknown
  have hsome := SendersLocator.routed_ne_nil hne hknown
  have hrun := sendMessage_routed f.config.requireSender f.config.handleUnrouted
    (handlingStep f itself) hreceived hsenders hsome hall
  have hmerged := merged_received_iff (goingOn envelope) _ hreceived hall
  obtain ⟨honce, hunsent⟩ := handledOnce f.handlers itself f.config.requireHandler
    ((goingOn envelope).withStamps
      (returned.map fun r => addedBy r.stamps (goingOn envelope).stamps).flatten)
  dsimp only [sendingStep]
  rw [hrun]
  dsimp only
  refine ⟨hnames, ?_⟩
  by_cases hback : HandedBack f locator envelope
  · rw [if_neg (hmerged.mpr hback)]
    exact ⟨sends_append_sendings _ _ hunsent, fun _ => honce.after_sendings _ _,
      fun h => absurd hback h⟩
  · rw [if_pos (not_not.mp fun h => hback (hmerged.mp h))]
    refine ⟨sends_append_sendings _ _ (by simp), fun h => absurd h hback, fun _ => ?_⟩
    simpa using unhandled_sendings (goingOn envelope) _

end Steps

/-- A message is sent, handled, both or neither, as it was received, is routed or is not. -/
theorem sends_or_handles [Messages ω] [BEq (Stamp ω)] [StampEquality ω] (f : MessageBusFactory ω)
    (on : f.config.defaultMiddleware = true) (plain : f.config.middleware = [])
    {locator : SendersLocator ω} (hl : f.locator = .ok locator)
    {after : Envelope ω → Except (Exc ω) Unit} {itself : Envelope ω → Except (Exc ω) (Envelope ω)}
    {bus : List (Middleware ω)} (hb : f.bus after itself = .ok bus) (envelope : Envelope ω) :
    SendsOrHandles f locator envelope (dispatch bus envelope []) := by
  obtain ⟨locator', hl', rfl⟩ := MessageBusFactory.bus_eq_ok on hb
  obtain rfl : locator = locator' := Except.ok.inj (hl.symm.trans hl')
  have hrun : dispatch (dispatchAfterCurrentBus after :: (f.config.middleware ++
      [sendMessage (locator.interface f.messages) f.config.requireSender f.config.handleUnrouted,
        handleMessage (RedispatchingHandlers.interface f.handlers (.ok itself))
          f.config.requireHandler])) envelope [] =
      dispatchAfterCurrentBus after envelope (sendingStep f locator itself) := by
    rw [plain, dispatch, Envelope.withStamps_nil]
    rfl
  have hcalls : (dispatchAfterCurrentBus after envelope (sendingStep f locator itself)).calls =
      (sendingStep f locator itself (goingOn envelope)).calls :=
    dispatchAfterCurrentBus_calls after envelope _
  obtain ⟨honce, hunsent⟩ := handledOnce f.handlers itself f.config.requireHandler
    (goingOn envelope)
  have hkept : (goingOn envelope).last (.shipped .received) =
      envelope.last (.shipped .received) := last_withoutStamps_of_ne envelope (by decide)
  have hnowhere : locator.transportNames f.messages envelope = [] →
      (locator.interface f.messages).sendersFor (goingOn envelope) = [] := by
    intro h
    rw [← transportNames_goingOn] at h
    change (locator.transportNames f.messages (goingOn envelope)).eraseDups.map _ = _
    rw [h]
    rfl
  rw [hrun]
  refine ⟨fun hr => ?_, fun hr hne ha => ?_, fun hr hn hreq => ?_, fun hr hn hreq => ?_⟩
  · rw [hcalls, sendingStep, sendMessage_received _ _ _ _ (hkept.symm ▸ hr)]
    exact ⟨sends_eq_nil hunsent, honce⟩
  · rw [hcalls]
    exact sendingStep_routed itself hr hne ha
  · have hsent := sendMessage_unrouted f.config.requireSender f.config.handleUnrouted
      (handlingStep f itself) (hkept.trans hr) (hnowhere hn)
    rw [hreq, if_pos rfl] at hsent
    have hstep : sendingStep f locator itself (goingOn envelope) = Traced.lift (.error
        (noSenderForMessageError (PyObject.typeOf envelope.message) locator.routedTypeNames)) := by
      rw [sendingStep, hreq, hsent]
      rfl
    rw [dispatchAfterCurrentBus_error after (by rw [← goingOn, hstep]; rfl), ← goingOn, hstep]
    rfl
  · have hsent := sendMessage_unrouted f.config.requireSender f.config.handleUnrouted
      (handlingStep f itself) (hkept.trans hr) (hnowhere hn)
    rw [hreq, if_neg (by simp)] at hsent
    rw [hcalls, sendingStep, hreq, hsent]
    split_ifs with hu
    · exact ⟨sends_eq_nil hunsent, fun _ => honce, fun h => absurd hu (by simp [h])⟩
    · exact ⟨rfl, fun h => absurd h hu, fun _ => rfl⟩

/-- A sender that hands a message back received, as `sync://` does. -/
def handingBack : Sender Sample :=
  ⟨"SyncTransport", fun e => .ok (e.withStamps [.shipped (.received "known")])⟩

/-- One transport that hands back what it is sent. -/
def oneHandingBack : SendersLocator Sample :=
  ⟨.empty, (Dict.empty : Dict String (Sender Sample)).set "known" handingBack,
    by simp [Dict.values, Dict.empty]⟩

/-- A factory with one such transport, which nothing is routed to, and a handler of reports. -/
def handingBackFactory : MessageBusFactory Sample where
  config := {}
  senders := .ok oneHandingBack.senders
  messages := .empty
  handlers := ⟨(Dict.empty : Dict PyType (List (HandlerDescriptor Sample))).set
    ⟨2, "app.messages", "BuildReport"⟩ [⟨0, "build", false, fun _ _ => .ok .report⟩]⟩

/-- The message is sent to the transport it names, handed back, and handled. -/
theorem sends_or_handles_named : ∃ bus,
    handingBackFactory.bus (fun _ => .ok ()) .ok = .ok bus ∧
      SendsOrHandles handingBackFactory oneHandingBack (named ["known"])
        (dispatch bus (named ["known"]) []) ∧
      HandedBack handingBackFactory oneHandingBack (named ["known"]) ∧
      HandledOnce handingBackFactory.handlers .report
        (dispatch bus (named ["known"]) []).calls := by
  have hnames : oneHandingBack.transportNames .empty (named ["known"]) = ["known"] := rfl
  have hanswer : answer (goingOn (named ["known"])) ("known", handingBack) = .ok
      ((handed (goingOn (named ["known"])) ("known", handingBack)).withStamps
        [.shipped (.received "known")]) := rfl
  have hback : HandedBack handingBackFactory oneHandingBack (named ["known"]) :=
    ⟨("known", handingBack), List.mem_singleton_self _, _, hanswer, by decide⟩
  have hanswered : Answered handingBackFactory oneHandingBack (named ["known"]) := by
    intro name hname
    obtain rfl : name = "known" := by simpa [handingBackFactory, hnames] using hname
    exact ⟨handingBack, _, rfl, hanswer⟩
  obtain ⟨bus, hbus⟩ : ∃ bus, handingBackFactory.bus (fun _ => .ok ()) .ok = .ok bus := ⟨_, rfl⟩
  have hlocator : handingBackFactory.locator = .ok oneHandingBack := rfl
  have hruns := sends_or_handles handingBackFactory rfl rfl hlocator hbus (named ["known"])
  have hnamed : oneHandingBack.transportNames handingBackFactory.messages (named ["known"]) ≠ [] :=
    List.cons_ne_nil _ _
  exact ⟨bus, hbus, hruns, hback, (hruns.routed rfl hnamed hanswered).2.2.1 hback⟩

end XtrMessenger.Bus
