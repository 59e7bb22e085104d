import XtrMessenger.Bus.Message

/-! The handlers of a message, and `HandleMessageMiddleware`, which runs them. -/
namespace XtrMessenger.Bus
open Foundation
variable {ω : Type}

/-- Which handlers are bound to which classes, as they are called. -/
structure HandlersLocator (ω : Type) where
  handlers : Dict PyType (List (HandlerDescriptor ω))

/-- The descriptors whose handler was not seen before, the first of each. -/
def unseen (seen : List Nat) : List (HandlerDescriptor ω) → List (HandlerDescriptor ω)
  | [] => []
  | descriptor :: rest =>
    if descriptor.handler ∈ seen then unseen seen rest
    else descriptor :: unseen (descriptor.handler :: seen) rest

namespace HandlersLocator
variable [Messages ω]

/-- Every descriptor bound to a class or one of its bases, most specific first. -/
def boundTo (l : HandlersLocator ω) (messageType : PyType) : List (HandlerDescriptor ω) :=
  (mro ω messageType).flatMap fun base => (l.handlers.get? base).getD []

def handlersFor (l : HandlersLocator ω) (messageType : PyType) : List (HandlerDescriptor ω) :=
  unseen [] (l.boundTo messageType)

def messageTypes (l : HandlersLocator ω) : List PyType := l.handlers.keys

end HandlersLocator

/-- A handler a lookup finds: a registered one, or the one `RedispatchingHandlers` adds. -/
inductive Found (ω : Type)
  | registered (descriptor : HandlerDescriptor ω)
  | redispatching

def Found.name : Found ω → String
  | registered descriptor => descriptor.name
  | redispatching => "RedispatchMessageHandler"

/-- What looks handlers up, and how each found is invoked. -/
structure HandlersLocatorInterface (ω : Type) where
  handlersFor : PyType → List (Found ω)
  messageTypes : List PyType
  invoke : Found ω → Envelope ω → Dispatching ω ω

/-- The bus a redispatch goes through: what building it raised, or what dispatching through it
comes to. -/
abbrev PublishingBus (ω : Type) := Except (Exc ω) (Envelope ω → Except (Exc ω) (Envelope ω))

namespace RedispatchingHandlers
variable [Messages ω]

/-- `RedispatchMessageHandler.__call__`: what dispatching is called with. -/
def redispatched (message : RedispatchMessage ω) : Envelope ω :=
  let envelope := (wrap message.envelope).withoutStamps .nonSendable
  let stamps := if message.transportNames.isEmpty then []
    else [.shipped (.transportNames message.transportNames)]
  envelope.withStamps stamps

/-- The result on the last `HandledStamp`. -/
def handledResult (envelope : Envelope ω) : ω :=
  match (envelope.last (.shipped .handled)).bind Stamp.asShipped with
  | some (.handled _ result) => result
  | _ => Messages.none

/-- `_redispatch`, of a message that is no `RedispatchMessage` an error no lookup leads to. -/
def redispatch (bus : PublishingBus ω) (message : ω) : Dispatching ω ω :=
  match Messages.asRedispatch message with
  | none => Traced.lift (.error (.exception "AttributeError" "envelope"))
  | some message => do
    let bus ← Traced.lift bus
    let answer := bus (redispatched message)
    let dispatched ← Traced.call (.publish (redispatched message) answer) answer
    return handledResult dispatched

/-- `handlers_for`: the redispatching handler only where `inner` finds none. -/
def handlersFor (inner : HandlersLocator ω) (messageType : PyType) : List (Found ω) :=
  let found := inner.handlersFor messageType
  if !found.isEmpty || redispatchMessage ∉ mro ω messageType then found.map .registered
  else [.redispatching]

def messageTypes (inner : HandlersLocator ω) : List PyType :=
  if redispatchMessage ∈ inner.messageTypes then inner.messageTypes
  else inner.messageTypes ++ [redispatchMessage]

/-- `HandlerDescriptor.invoke` of either kind. -/
def invoke (bus : PublishingBus ω) : Found ω → Envelope ω → Dispatching ω ω
  | .registered descriptor, envelope =>
    Traced.call (.invoke descriptor envelope (descriptor.invoke envelope))
      (descriptor.invoke envelope)
  | .redispatching, envelope => redispatch bus envelope.message

def interface (inner : HandlersLocator ω) (bus : PublishingBus ω) : HandlersLocatorInterface ω :=
  ⟨handlersFor inner, messageTypes inner, invoke bus⟩

end RedispatchingHandlers

/-- `_unused`: the name, or `name#2`, `name#3` and so on. -/
def unused (errors : List (String × Exc ω)) (name : String) : String :=
  let numbered := (List.range errors.length).map fun n => name ++ "#" ++ toString (n + 2)
  ((name :: numbered).find? fun key => key ∉ errors.map Prod.fst).getD name

/-- The loop over the handlers: every one runs, whichever of them raise. -/
def handleEach (invoke : Found ω → Envelope ω → Dispatching ω ω) : List (Found ω) →
    Envelope ω → List (String × Exc ω) → Dispatching ω (Envelope ω × List (String × Exc ω))
  | [], envelope, errors => return (envelope, errors)
  | found :: rest, envelope, errors => do
    match ← Traced.attempt (invoke found envelope) with
    | .error error =>
      handleEach invoke rest envelope (errors ++ [(unused errors found.name, error)])
    | .ok result =>
      handleEach invoke rest (envelope.withStamps [.shipped (.handled found.name result)]) errors

/-- `HandleMessageMiddleware.handle`. -/
def handleMessage [PyObject ω] (registry : HandlersLocatorInterface ω) (requireHandler : Bool) :
    Middleware ω := fun envelope next => do
  let messageType := PyObject.typeOf envelope.message
  let descriptors := registry.handlersFor messageType
  if descriptors.isEmpty && requireHandler then
    Traced.lift (.error (noHandlerForMessageError messageType
      (sorted (registry.messageTypes.map PyType.qualname))))
  else
    let (envelope, errors) ← handleEach registry.invoke descriptors envelope []
    if errors.isEmpty then next envelope
    else Traced.lift (Exc.handlersFailedError envelope errors >>= .error)

section Lookup

theorem unseen_handlers (seen : List Nat) (l : List (HandlerDescriptor ω)) :
    ((unseen seen l).map HandlerDescriptor.handler).Nodup ∧
      ∀ handler, handler ∈ (unseen seen l).map HandlerDescriptor.handler ↔
        handler ∈ l.map HandlerDescriptor.handler ∧ handler ∉ seen := by
  induction l generalizing seen with
  | nil => simp [unseen]
  | cons d rest ih =>
    unfold unseen
    split_ifs with hd
    · obtain ⟨hnodup, hmem⟩ := ih seen
      refine ⟨hnodup, fun handler => ?_⟩
      rw [hmem, List.map_cons, List.mem_cons]
      constructor
      · rintro ⟨hr, hs⟩
        exact ⟨.inr hr, hs⟩
      · rintro ⟨rfl | hr, hs⟩
        · exact absurd hd hs
        · exact ⟨hr, hs⟩
    · obtain ⟨hnodup, hmem⟩ := ih (d.handler :: seen)
      rw [List.map_cons, List.nodup_cons]
      refine ⟨⟨fun h => ((hmem _).mp h).2 List.mem_cons_self, hnodup⟩, fun handler => ?_⟩
      rw [List.mem_cons, hmem, List.map_cons, List.mem_cons, List.mem_cons, not_or]
      by_cases he : handler = d.handler
      · subst he
        simp [hd]
      · simp [he]

variable [Messages ω]

theorem HandlersLocator.handlersFor_eq_nil {l : HandlersLocator ω} {messageType : PyType} :
    l.handlersFor messageType = [] ↔ l.boundTo messageType = [] := by
  obtain ⟨-, hmem⟩ := unseen_handlers [] (l.boundTo messageType)
  unfold handlersFor
  constructor
  · intro h
    rw [h] at hmem
    rcases hb : l.boundTo messageType with _ | ⟨d, rest⟩
    · rfl
    · simpa [hb] using hmem d.handler
  · intro h
    rw [h]
    rfl

end Lookup

/-- The handler a call runs. -/
def BusCall.ran? : BusCall ω → Option (Found ω)
  | .send _ _ _ => none
  | .invoke descriptor _ _ => some (.registered descriptor)
  | .publish _ _ => some .redispatching

section Running
variable {invoke : Found ω → Envelope ω → Dispatching ω ω} {message : ω}

/-- The loop itself raises nothing. -/
theorem handleEach_result (invoke : Found ω → Envelope ω → Dispatching ω ω) (found : List (Found ω))
    (envelope : Envelope ω) (errors : List (String × Exc ω)) :
    ∃ handled, (handleEach invoke found envelope errors).result = .ok handled := by
  induction found generalizing envelope errors with
  | nil => exact ⟨_, rfl⟩
  | cons f rest ih =>
    unfold handleEach
    rw [Traced.attempt_bind]
    rcases (invoke f envelope).result with error | result
    · exact ih _ _
    · exact ih _ _

/-- Every handler found runs, each once and in turn, whatever they answer. -/
theorem handleEach_ran {found : List (Found ω)} {envelope : Envelope ω}
    (h : ∀ f ∈ found, ∀ e : Envelope ω, e.message = message →
      (invoke f e).calls.filterMap BusCall.ran? = [f] ∧ ∀ c ∈ (invoke f e).calls, c.isSend = false)
    (he : envelope.message = message) (errors : List (String × Exc ω)) :
    let run := handleEach invoke found envelope errors
    run.calls.filterMap BusCall.ran? = found ∧ ∀ c ∈ run.calls, c.isSend = false := by
  induction found generalizing envelope errors with
  | nil => simp [handleEach]
  | cons f rest ih =>
    obtain ⟨hran, hsend⟩ := h f List.mem_cons_self envelope he
    have hrest : ∀ g ∈ rest, ∀ e : Envelope ω, e.message = message →
        (invoke g e).calls.filterMap BusCall.ran? = [g] ∧
          ∀ c ∈ (invoke g e).calls, c.isSend = false := fun g hg =>
      h g (List.mem_cons_of_mem _ hg)
    unfold handleEach
    rw [Traced.attempt_bind]
    rcases (invoke f envelope).result with error | result
    · obtain ⟨hr, hs⟩ := ih hrest he (errors ++ [(unused errors f.name, error)])
      refine ⟨by rw [List.filterMap_append, hran, hr]; rfl, fun c hc => ?_⟩
      exact (List.mem_append.mp hc).elim (hsend c) (hs c)
    · have he' : (envelope.withStamps [.shipped (.handled f.name result)]).message = message := he
      obtain ⟨hr, hs⟩ := ih hrest he' errors
      refine ⟨by rw [List.filterMap_append, hran, hr]; rfl, fun c hc => ?_⟩
      exact (List.mem_append.mp hc).elim (hsend c) (hs c)

theorem handleMessage_calls [PyObject ω] (registry : HandlersLocatorInterface ω)
    (requireHandler : Bool) (envelope : Envelope ω) :
    (handleMessage registry requireHandler envelope pure).calls = (handleEach registry.invoke
      (registry.handlersFor (PyObject.typeOf envelope.message)) envelope []).calls := by
  obtain ⟨⟨handled, errors⟩, hok⟩ := handleEach_result registry.invoke
    (registry.handlersFor (PyObject.typeOf envelope.message)) envelope []
  unfold handleMessage
  dsimp only
  split_ifs with hd
  · simp only [Bool.and_eq_true, List.isEmpty_iff] at hd
    simp [hd.1, handleEach]
  · rw [Traced.bind_of_ok _ hok]
    dsimp only
    split_ifs <;> simp

theorem handleMessage_ran [PyObject ω] (registry : HandlersLocatorInterface ω)
    (requireHandler : Bool) (envelope : Envelope ω)
    (h : ∀ f ∈ registry.handlersFor (PyObject.typeOf envelope.message), ∀ e : Envelope ω,
      e.message = envelope.message → (registry.invoke f e).calls.filterMap BusCall.ran? = [f] ∧
        ∀ c ∈ (registry.invoke f e).calls, c.isSend = false) :
    let run := handleMessage registry requireHandler envelope pure
    run.calls.filterMap BusCall.ran? = registry.handlersFor (PyObject.typeOf envelope.message) ∧
      ∀ c ∈ run.calls, c.isSend = false := by
  dsimp only
  rw [handleMessage_calls]
  exact handleEach_ran h rfl []

theorem handleMessage_single [PyObject ω] (registry : HandlersLocatorInterface ω)
    (requireHandler : Bool) (envelope : Envelope ω) {f : Found ω}
    (h : registry.handlersFor (PyObject.typeOf envelope.message) = [f]) :
    (handleMessage registry requireHandler envelope pure).calls =
      (registry.invoke f envelope).calls := by
  rw [handleMessage_calls, h, handleEach, Traced.attempt_bind]
  rcases (registry.invoke f envelope).result with error | result <;> simp [handleEach]

end Running

namespace RedispatchingHandlers
variable [Messages ω] {inner : HandlersLocator ω} {messageType : PyType}

theorem handlersFor_of_bound (h : inner.boundTo messageType ≠ []) :
    handlersFor inner messageType = (inner.handlersFor messageType).map .registered := by
  have hfound : inner.handlersFor messageType ≠ [] := fun he =>
    h (HandlersLocator.handlersFor_eq_nil.mp he)
  unfold handlersFor
  simp [hfound]

theorem handlersFor_of_unbound (h : inner.boundTo messageType = []) :
    handlersFor inner messageType =
      if redispatchMessage ∈ mro ω messageType then [.redispatching] else [] := by
  have hfound : inner.handlersFor messageType = [] := HandlersLocator.handlersFor_eq_nil.mpr h
  unfold handlersFor
  by_cases hm : redispatchMessage ∈ mro ω messageType <;> simp [hfound, hm]

/-- The redispatching handler is found for redispatches only. -/
theorem asRedispatch_of_found {message : ω}
    (hf : .redispatching ∈ handlersFor inner (PyObject.typeOf message)) :
    ∃ r, Messages.asRedispatch message = some r := by
  have hm : redispatchMessage ∈ mro ω (PyObject.typeOf message) := by
    by_contra hm
    unfold handlersFor at hf
    simp [hm] at hf
  exact Option.isSome_iff_exists.mp ((Messages.isSome_asRedispatch message).mpr hm)

theorem redispatch_of_some {bus : PublishingBus ω} {message : ω} {r : RedispatchMessage ω}
    (h : Messages.asRedispatch message = some r)
    {publish : Envelope ω → Except (Exc ω) (Envelope ω)} (hb : bus = .ok publish) :
    (redispatch bus message).calls = [.publish (redispatched r) (publish (redispatched r))] := by
  unfold redispatch
  rw [h, hb]
  dsimp only
  rw [Traced.bind_of_ok (a := publish) _ rfl]
  rcases ha : publish (redispatched r) with error | dispatched
  · rw [Traced.bind_of_error (e := error) _ rfl]
    rfl
  · rw [Traced.bind_of_ok (a := dispatched) _ rfl]
    rfl

theorem redispatch_of_error {bus : PublishingBus ω} {message : ω} {r : RedispatchMessage ω}
    (h : Messages.asRedispatch message = some r) {error : Exc ω} (hb : bus = .error error) :
    (redispatch bus message).calls = [] := by
  unfold redispatch
  rw [h, hb]
  dsimp only
  rw [Traced.bind_of_error (e := error) _ rfl]
  rfl

theorem invoke_registered (bus : PublishingBus ω) (d : HandlerDescriptor ω)
    (e : Envelope ω) : (invoke bus (.registered d) e).calls.filterMap BusCall.ran? =
      [.registered d] ∧ ∀ c ∈ (invoke bus (.registered d) e).calls, c.isSend = false := by
  simp [invoke, BusCall.ran?, BusCall.isSend]

theorem invoke_ran {publish : Envelope ω → Except (Exc ω) (Envelope ω)} {message : ω} {f : Found ω}
    (hf : f ∈ handlersFor inner (PyObject.typeOf message)) {e : Envelope ω}
    (he : e.message = message) : (invoke (.ok publish) f e).calls.filterMap BusCall.ran? = [f] ∧
      ∀ c ∈ (invoke (.ok publish) f e).calls, c.isSend = false := by
  cases f with
  | registered d => exact invoke_registered _ d e
  | redispatching =>
    obtain ⟨r, hr⟩ := asRedispatch_of_found hf
    rw [invoke, he, redispatch_of_some hr rfl]
    simp [BusCall.ran?, BusCall.isSend]

end RedispatchingHandlers

/-- The registered handler a call invokes. -/
def BusCall.invoked? : BusCall ω → Option (HandlerDescriptor ω)
  | .invoke descriptor _ _ => some descriptor
  | _ => none

/-- What a call publishes. -/
def BusCall.published? : BusCall ω → Option (Envelope ω)
  | .publish envelope _ => some envelope
  | _ => none

/-- Every handler bound to a class or to one of its bases is invoked, each once, and no other. -/
structure RunsEach [Messages ω] (l : HandlersLocator ω) (messageType : PyType)
    (calls : List (BusCall ω)) : Prop where
  once : ((calls.filterMap BusCall.invoked?).map HandlerDescriptor.handler).Nodup
  each : ∀ handler, handler ∈ (calls.filterMap BusCall.invoked?).map HandlerDescriptor.handler ↔
    handler ∈ (l.boundTo messageType).map HandlerDescriptor.handler

section Ran
variable {calls : List (BusCall ω)}

def Found.descriptor? : Found ω → Option (HandlerDescriptor ω)
  | registered descriptor => some descriptor
  | redispatching => none

theorem filterMap_invoked? (calls : List (BusCall ω)) :
    calls.filterMap BusCall.invoked? =
      (calls.filterMap BusCall.ran?).filterMap Found.descriptor? := by
  rw [List.filterMap_filterMap]
  congr 1
  funext c
  cases c <;> rfl

theorem runsEach_of_invoked [Messages ω] {l : HandlersLocator ω} {messageType : PyType}
    (h : calls.filterMap BusCall.invoked? = l.handlersFor messageType) :
    RunsEach l messageType calls := by
  obtain ⟨hnodup, hmem⟩ := unseen_handlers [] (l.boundTo messageType)
  refine ⟨h ▸ hnodup, fun handler => ?_⟩
  rw [h, HandlersLocator.handlersFor, hmem]
  simp

def Found.isRedispatching : Found ω → Bool
  | registered _ => false
  | redispatching => true

theorem length_published (calls : List (BusCall ω)) :
    (calls.filterMap BusCall.published?).length =
      (calls.filterMap BusCall.ran?).countP Found.isRedispatching := by
  induction calls with
  | nil => rfl
  | cons c calls ih =>
    cases c <;> simp [List.filterMap_cons, List.countP_cons, BusCall.published?, BusCall.ran?,
      Found.isRedispatching, ih]

theorem countP_registered (found : List (HandlerDescriptor ω)) :
    (found.map Found.registered).countP Found.isRedispatching = 0 := by
  simp [List.countP_map, Function.comp_def, Found.isRedispatching]

end Ran

end XtrMessenger.Bus
