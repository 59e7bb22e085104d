import XtrMessenger.Bus.Factories

/-! Handling a `RedispatchMessage`, and the handlers of other classes that stand in its way. -/
namespace XtrMessenger.Bus
open Foundation
variable {ω : Type} [Messages ω]

/-- The message carried is dispatched once, besides whatever other handlers apply. -/
structure Redispatches (handlers : HandlersLocator ω) (r : RedispatchMessage ω)
    (messageType : PyType) (calls : List (BusCall ω)) : Prop where
  published : ∃ envelope, calls.filterMap BusCall.published? = [envelope] ∧
    envelope.message = r.message
  others : RunsEach handlers messageType calls

omit [Messages ω] in
theorem redispatched_message (r : RedispatchMessage ω) :
    (RedispatchingHandlers.redispatched r).message = r.message := by
  obtain ⟨carried, names⟩ := r
  cases carried <;> rfl

section Step
variable {handlers : HandlersLocator ω} {publishing : PublishingBus ω} {envelope : Envelope ω}
  (requireHandler : Bool)

/-- Where a handler is bound, only bound handlers run. -/
theorem handle_bound (h : handlers.boundTo (PyObject.typeOf envelope.message) ≠ []) :
    (handleMessage (RedispatchingHandlers.interface handlers publishing) requireHandler envelope
      pure).calls.filterMap BusCall.published? = [] := by
  have hfound := RedispatchingHandlers.handlersFor_of_bound h
  obtain ⟨hran, -⟩ := handleMessage_ran (RedispatchingHandlers.interface handlers publishing)
    requireHandler envelope fun f hf e he => by
      have hm : f ∈ (handlers.handlersFor (PyObject.typeOf envelope.message)).map .registered :=
        hfound ▸ hf
      obtain ⟨d, -, rfl⟩ := List.mem_map.mp hm
      exact RedispatchingHandlers.invoke_registered publishing d e
  have hranFound := hran.trans hfound
  rw [← List.length_eq_zero_iff, length_published, hranFound, countP_registered]

theorem handle_unbound (h : handlers.boundTo (PyObject.typeOf envelope.message) = [])
    {r : RedispatchMessage ω} (hr : Messages.asRedispatch envelope.message = some r) :
    (handleMessage (RedispatchingHandlers.interface handlers publishing) requireHandler envelope
      pure).calls = (RedispatchingHandlers.redispatch publishing envelope.message).calls := by
  have hm : redispatchMessage ∈ mro ω (PyObject.typeOf envelope.message) :=
    (Messages.isSome_asRedispatch _).mp (hr ▸ rfl)
  exact handleMessage_single (RedispatchingHandlers.interface handlers publishing) requireHandler
    envelope ((RedispatchingHandlers.handlersFor_of_unbound h).trans (if_pos hm))

end Step

/-- A received redispatch goes out once exactly when no handler is bound to any class the message
is an instance of, and the publishing bus can be built. -/
theorem redispatches_iff [BEq (Stamp ω)] {handlers : HandlersLocator ω}
    {publishing : PublishingBus ω} {bus : List (Middleware ω)}
    (hb : BuiltOver handlers publishing bus) (envelope : Envelope ω)
    (hreceived : envelope.last (.shipped .received) ≠ none) {r : RedispatchMessage ω}
    (hr : Messages.asRedispatch envelope.message = some r) :
    Redispatches handlers r (PyObject.typeOf envelope.message) (dispatch bus envelope []).calls ↔
      handlers.boundTo (PyObject.typeOf envelope.message) = [] ∧
        ∃ publish, publishing = .ok publish := by
  obtain ⟨requireHandler, handed, hmessage, hcalls⟩ := hb.received hreceived
  rw [hcalls, ← hmessage]
  rw [← hmessage] at hr
  by_cases hbound : handlers.boundTo (PyObject.typeOf handed.message) = []
  · rw [handle_unbound requireHandler hbound hr]
    rcases hp : publishing with error | publish
    · refine iff_of_false ?_ (by simp)
      rintro ⟨⟨e, he, -⟩, -⟩
      rw [RedispatchingHandlers.redispatch_of_error hr rfl] at he
      simp at he
    · rw [RedispatchingHandlers.redispatch_of_some hr rfl]
      refine iff_of_true ⟨⟨_, rfl, redispatched_message r⟩, ?_⟩ ⟨hbound, publish, rfl⟩
      exact runsEach_of_invoked (HandlersLocator.handlersFor_eq_nil.mpr hbound).symm
  · refine iff_of_false ?_ fun h => hbound h.1
    rintro ⟨⟨e, he, -⟩, -⟩
    rw [handle_bound requireHandler hbound] at he
    simp at he

section Samples

/-- A handler that returns nothing. -/
def idle (handler : Nat) (name : String) : HandlerDescriptor Sample :=
  ⟨handler, name, false, fun _ _ => .ok .report⟩

/-- One handler, bound to one class. -/
def boundOnce (messageType : PyType) (descriptor : HandlerDescriptor Sample) :
    HandlersLocator Sample :=
  ⟨(Dict.empty : Dict PyType (List (HandlerDescriptor Sample))).set messageType [descriptor]⟩

/-- The bus of a worker that is configured with nothing, and redispatches. -/
def workerBus (handlers : HandlersLocator Sample) : List (Middleware Sample) :=
  [dispatchAfterCurrentBus fun _ => .ok (),
    handleMessage (RedispatchingHandlers.interface handlers (.ok .ok)) true]

theorem workerBus_built (handlers : HandlersLocator Sample) :
    BuiltOver handlers (.ok .ok) (workerBus handlers) :=
  .worker (f := ⟨{}, handlers⟩) rfl rfl (by simp) rfl

/-- A redispatch, as a receiver delivered it. -/
def redispatchReceived : Envelope Sample := ⟨.redispatch, [.shipped (.received "schedule")]⟩

theorem redispatches_iff_reportHandler :
    Redispatches (boundOnce ⟨2, "app.messages", "BuildReport"⟩ (idle 0 "build"))
      (.of (.message .report) []) redispatchMessage
      (dispatch (workerBus (boundOnce ⟨2, "app.messages", "BuildReport"⟩ (idle 0 "build")))
        redispatchReceived []).calls :=
  (redispatches_iff (workerBus_built _) redispatchReceived (by decide) rfl).mpr
    ⟨rfl, _, rfl⟩

/-- A handler bound to `object`, an audit trail say, is found for the redispatch, so the handler
that would dispatch it is not added. -/
theorem redispatch_swallowed : ¬∀ (handlers : HandlersLocator Sample)
    (publishing : PublishingBus Sample) (bus : List (Middleware Sample)),
    handlers.handlers.get? redispatchMessage = none → (∃ publish, publishing = .ok publish) →
    BuiltOver handlers publishing bus →
      ∀ (envelope : Envelope Sample) (r : RedispatchMessage Sample),
      envelope.last (.shipped .received) ≠ none →
      Messages.asRedispatch envelope.message = some r →
      Redispatches handlers r (PyObject.typeOf envelope.message)
        (dispatch bus envelope []).calls := by
  intro h
  obtain ⟨⟨e, he, -⟩, -⟩ := h (boundOnce object (idle 0 "audit")) (.ok .ok) _ (by decide)
    ⟨_, rfl⟩ (workerBus_built _) redispatchReceived _ (by decide) rfl
  have hnone : (dispatch (workerBus (boundOnce object (idle 0 "audit"))) redispatchReceived
      []).calls.filterMap BusCall.published? = [] := rfl
  rw [hnone] at he
  simp at he

end Samples
end XtrMessenger.Bus
