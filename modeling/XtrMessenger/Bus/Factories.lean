import XtrMessenger.Bus.Sending
import XtrMessenger.Bus.Handlers

/-! The chains a configuration describes: the bus of a publishing process, and the one a worker
dispatches what it collected through. -/
namespace XtrMessenger.Bus
open Foundation
variable {ω : Type}

/-- `MessageBusConfig`, with the middleware its names stand for built. -/
structure MessageBusConfig (ω : Type) where
  routing : Dict RouteKey Route := .empty
  middleware : List (Middleware ω) := []
  defaultMiddleware : Bool := true
  requireSender : Bool := false
  handleUnrouted : Bool := false
  requireHandler : Bool := true

/-- `middleware.named.chain`: what the defaults open is opened only where they are on. -/
def MessageBusConfig.chain (config : MessageBusConfig ω) (after : Envelope ω → Except (Exc ω) Unit)
    (defaults : Except (Exc ω) (List (Middleware ω))) : Except (Exc ω) (List (Middleware ω)) :=
  if !config.defaultMiddleware then .ok config.middleware
  else do return dispatchAfterCurrentBus after :: (config.middleware ++ (← defaults))

/-- `senders` are the transports built for the configuration, by name. -/
structure MessageBusFactory (ω : Type) where
  config : MessageBusConfig ω
  senders : Except (Exc ω) (Dict String (Sender ω))
  messages : MessageRegistry
  handlers : HandlersLocator ω

def MessageBusFactory.locator (f : MessageBusFactory ω) : Except (Exc ω) (SendersLocator ω) := do
  SendersLocator.create f.config.routing (← f.senders)

/-- `bus`, a redispatch handled by dispatching through this same bus. -/
def MessageBusFactory.bus [Messages ω] [BEq (Stamp ω)] (f : MessageBusFactory ω)
    (after : Envelope ω → Except (Exc ω) Unit) (itself : Envelope ω → Except (Exc ω) (Envelope ω)) :
    Except (Exc ω) (List (Middleware ω)) :=
  f.config.chain after do
    let locator ← f.locator
    return [sendMessage (locator.interface f.messages) f.config.requireSender
        f.config.handleUnrouted,
      handleMessage (RedispatchingHandlers.interface f.handlers (.ok itself))
        f.config.requireHandler]

/-- A `WorkerFactory` given no bus of its own. -/
structure WorkerFactory (ω : Type) where
  config : MessageBusConfig ω
  handlers : HandlersLocator ω

def WorkerFactory.dispatcher [Messages ω] (f : WorkerFactory ω)
    (after : Envelope ω → Except (Exc ω) Unit) (publishing : PublishingBus ω) :
    Except (Exc ω) (List (Middleware ω)) :=
  f.config.chain after (.ok [handleMessage (RedispatchingHandlers.interface f.handlers publishing)
    f.config.requireHandler])

section Chains

theorem dispatchAfterCurrentBus_calls (after : Envelope ω → Except (Exc ω) Unit)
    (envelope : Envelope ω) (next : Envelope ω → Dispatching ω (Envelope ω)) :
    (dispatchAfterCurrentBus after envelope next).calls =
      (next (envelope.withoutStamps (.shipped .dispatchAfterCurrentBus))).calls := by
  unfold dispatchAfterCurrentBus
  rcases h : (next (envelope.withoutStamps (.shipped .dispatchAfterCurrentBus))).result with e | a
  · rw [Traced.bind_of_error _ h]
  · rw [Traced.bind_of_ok _ h]
    rcases ha : after a with e | u
    · rw [Traced.bind_of_error (e := e) _ rfl]
      simp
    · rw [Traced.bind_of_ok (a := u) _ rfl]
      simp

theorem dispatchAfterCurrentBus_error (after : Envelope ω → Except (Exc ω) Unit)
    {envelope : Envelope ω} {next : Envelope ω → Dispatching ω (Envelope ω)} {error : Exc ω}
    (h : (next (envelope.withoutStamps (.shipped .dispatchAfterCurrentBus))).result =
      .error error) : dispatchAfterCurrentBus after envelope next =
        ⟨(next (envelope.withoutStamps (.shipped .dispatchAfterCurrentBus))).calls,
          .error error⟩ := Traced.bind_of_error _ h

/-- Whether a message waits for another says nothing about its other stamps. -/
theorem last_withoutStamps_of_ne (envelope : Envelope ω) {kind : StampKind}
    (h : kind ≠ .dispatchAfterCurrentBus) :
    (envelope.withoutStamps (.shipped .dispatchAfterCurrentBus)).last (.shipped kind) =
      envelope.last (.shipped kind) := by
  simp only [Envelope.last, Envelope.all, Envelope.withoutStamps, List.filter_filter]
  congr 1
  refine List.filter_congr fun s _ => ?_
  simp only [Stamp.isInstance]
  rcases hk : s.asShipped.map ShippedStamp.kind with _ | k
  · simp
  · by_cases he : k = kind
    · simp [he, h]
    · simp [he]

/-- A middleware that hands a message on once, with stamps added at most, and calls no sender
and no handler of its own. -/
def PassesOn (m : Middleware ω) : Prop := ∀ envelope next, ∃ stamps,
  (m envelope next).calls = (next (envelope.withStamps stamps)).calls

theorem chain_passesOn {middleware : List (Middleware ω)} (h : ∀ m ∈ middleware, PassesOn m)
    (rest : List (Middleware ω)) (envelope : Envelope ω) : ∃ stamps,
      (chain (middleware ++ rest) envelope).calls =
        (chain rest (envelope.withStamps stamps)).calls := by
  induction middleware generalizing envelope with
  | nil => exact ⟨[], by simp⟩
  | cons m middleware ih =>
    obtain ⟨first, hm⟩ := h m List.mem_cons_self envelope (chain (middleware ++ rest))
    obtain ⟨stamps, hs⟩ := ih (fun m hm => h m (List.mem_cons_of_mem _ hm))
      (envelope.withStamps first)
    refine ⟨first ++ stamps, ?_⟩
    rw [List.cons_append, chain, hm, hs]
    simp [Envelope.withStamps]

end Chains

theorem MessageBusConfig.chain_eq_ok {config : MessageBusConfig ω}
    {after : Envelope ω → Except (Exc ω) Unit} {defaults : Except (Exc ω) (List (Middleware ω))}
    {bus : List (Middleware ω)} (on : config.defaultMiddleware = true)
    (h : config.chain after defaults = .ok bus) : ∃ d, defaults = .ok d ∧
      bus = dispatchAfterCurrentBus after :: (config.middleware ++ d) := by
  simp only [MessageBusConfig.chain, on, Bool.not_true, Bool.false_eq_true, if_false] at h
  obtain ⟨d, hd, hb⟩ := bind_eq_ok_iff.mp h
  exact ⟨d, hd, (Except.ok.inj hb).symm⟩

/-- What a bus does past the middleware it was configured with. -/
theorem dispatch_calls {after : Envelope ω → Except (Exc ω) Unit}
    {middleware : List (Middleware ω)} (h : ∀ m ∈ middleware, PassesOn m)
    (defaults : List (Middleware ω)) (envelope : Envelope ω) : ∃ stamps,
      (dispatch (dispatchAfterCurrentBus after :: (middleware ++ defaults)) envelope []).calls =
        (chain defaults ((envelope.withoutStamps (.shipped .dispatchAfterCurrentBus)).withStamps
          stamps)).calls := by
  obtain ⟨stamps, hs⟩ := chain_passesOn h defaults
    (envelope.withoutStamps (.shipped .dispatchAfterCurrentBus))
  refine ⟨stamps, ?_⟩
  rw [dispatch, Envelope.withStamps_nil, chain, dispatchAfterCurrentBus_calls, hs]

theorem MessageBusFactory.bus_eq_ok [Messages ω] [BEq (Stamp ω)] {f : MessageBusFactory ω}
    {after : Envelope ω → Except (Exc ω) Unit} {itself : Envelope ω → Except (Exc ω) (Envelope ω)}
    {bus : List (Middleware ω)} (on : f.config.defaultMiddleware = true)
    (h : f.bus after itself = .ok bus) : ∃ locator, f.locator = .ok locator ∧
      bus = dispatchAfterCurrentBus after :: (f.config.middleware ++
        [sendMessage (locator.interface f.messages) f.config.requireSender
            f.config.handleUnrouted,
          handleMessage (RedispatchingHandlers.interface f.handlers (.ok itself))
            f.config.requireHandler]) := by
  obtain ⟨d, hd, hb⟩ := MessageBusConfig.chain_eq_ok on h
  obtain ⟨locator, hl, hd⟩ := bind_eq_ok_iff.mp hd
  obtain rfl := Except.ok.inj hd
  exact ⟨locator, hl, hb⟩

/-- A bus with the default middleware on, over handlers and a publishing bus. -/
inductive BuiltOver [Messages ω] [BEq (Stamp ω)] (handlers : HandlersLocator ω)
    (publishing : PublishingBus ω) : List (Middleware ω) → Prop
  | message {f : MessageBusFactory ω} {after : Envelope ω → Except (Exc ω) Unit}
      {itself : Envelope ω → Except (Exc ω) (Envelope ω)} {bus : List (Middleware ω)}
      (same : f.handlers = handlers) (through : publishing = .ok itself)
      (on : f.config.defaultMiddleware = true) (passes : ∀ m ∈ f.config.middleware, PassesOn m)
      (built : f.bus after itself = .ok bus) : BuiltOver handlers publishing bus
  | worker {f : WorkerFactory ω} {after : Envelope ω → Except (Exc ω) Unit}
      {bus : List (Middleware ω)} (same : f.handlers = handlers)
      (on : f.config.defaultMiddleware = true) (passes : ∀ m ∈ f.config.middleware, PassesOn m)
      (built : f.dispatcher after publishing = .ok bus) : BuiltOver handlers publishing bus

section Handling
variable [Messages ω] [BEq (Stamp ω)] {handlers : HandlersLocator ω} {publishing : PublishingBus ω}
  {bus : List (Middleware ω)}

/-- What a factory's bus does with a received message is what its handling step does with it. -/
theorem BuiltOver.received (h : BuiltOver handlers publishing bus) {envelope : Envelope ω}
    (hr : envelope.last (.shipped .received) ≠ none) : ∃ requireHandler handed,
      handed.message = envelope.message ∧ (dispatch bus envelope []).calls =
        (handleMessage (RedispatchingHandlers.interface handlers publishing) requireHandler handed
          pure).calls := by
  cases h with
  | @message f after itself bus same through on passes built =>
    obtain ⟨locator, -, rfl⟩ := MessageBusFactory.bus_eq_ok on built
    obtain ⟨stamps, hs⟩ := dispatch_calls passes _ envelope
    refine ⟨f.config.requireHandler, (envelope.withoutStamps
      (.shipped .dispatchAfterCurrentBus)).withStamps stamps, rfl, hs.trans ?_⟩
    have hkept := last_withoutStamps_of_ne envelope
      (show StampKind.received ≠ .dispatchAfterCurrentBus by decide)
    have hreceived := Envelope.last_withStamps_ne_none (hkept.symm ▸ hr) stamps
    rw [chain, sendMessage_received _ _ _ _ hreceived, same, through]
    rfl
  | @worker f after bus same on passes built =>
    obtain ⟨d, hd, rfl⟩ := MessageBusConfig.chain_eq_ok on built
    obtain rfl := Except.ok.inj hd
    obtain ⟨stamps, hs⟩ := dispatch_calls passes _ envelope
    refine ⟨f.config.requireHandler, (envelope.withoutStamps
      (.shipped .dispatchAfterCurrentBus)).withStamps stamps, rfl, hs.trans ?_⟩
    rw [same]
    rfl

end Handling

end XtrMessenger.Bus
