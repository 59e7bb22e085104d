import XtrMessenger.Bus.Dispatching

/-! What a dispatch may change of an envelope: a bus of the library's middleware only adds stamps at
its end, in whatever context it is dispatched through. -/
namespace XtrMessenger.Bus
open Foundation
variable {ω : Type}

/-- `DispatchAfterCurrentBusMiddleware.handle`; `current` says whether a message is being handled in
the context, and `after` is what dispatching those held back meanwhile comes to. -/
def holdingBack (current : Bool) (after : Envelope ω → Except (Exc ω) Unit) : Middleware ω :=
  fun envelope next => do
    let stamped := (envelope.last (.shipped .dispatchAfterCurrentBus)).isSome
    let envelope := if stamped then
      envelope.withoutStamps (.shipped .dispatchAfterCurrentBus) else envelope
    if stamped && current then return envelope
    else if current then next envelope
    else
      let handled ← next envelope
      Traced.lift (after handled)
      return handled

/-- `LoggingMiddleware.handle`, with what recording the outcome raises, if it does. -/
def logging (record : Envelope ω → Except (Exc ω) Unit) : Middleware ω := fun envelope next => do
  let result ← next envelope
  Traced.lift (record result)
  return result

/-- `UnitOfWorkMiddleware.handle`, with what entering and leaving the unit raise, if they do: one
that is joined, or a new one. -/
def unitOfWork (enter : Bool → Except (Exc ω) Unit)
    (leave : Bool → Except (Exc ω) (Envelope ω) → Except (Exc ω) Unit) : Middleware ω :=
  fun envelope next => do
    let join := (envelope.last (.shipped .received)).isNone
    Traced.lift (enter join)
    (next envelope).finallyDo (Traced.lift (leave join (next envelope).result))

/-- `middleware.named.chain`, in a context. -/
def MessageBusConfig.chainWithin (config : MessageBusConfig ω) (current : Bool)
    (after : Envelope ω → Except (Exc ω) Unit) (defaults : Except (Exc ω) (List (Middleware ω))) :
    Except (Exc ω) (List (Middleware ω)) :=
  if !config.defaultMiddleware then .ok config.middleware
  else do return holdingBack current after :: (config.middleware ++ (← defaults))

section Contexts
variable [Messages ω] [BEq (Stamp ω)]

/-- `MessageBusFactory.bus`, in a context. -/
def MessageBusFactory.busWithin (f : MessageBusFactory ω) (current : Bool)
    (after : Envelope ω → Except (Exc ω) Unit) (itself : Envelope ω → Except (Exc ω) (Envelope ω)) :
    Except (Exc ω) (List (Middleware ω)) :=
  f.config.chainWithin current after do
    let locator ← f.locator
    return [sendMessage (locator.interface f.messages) f.config.requireSender
        f.config.handleUnrouted,
      handleMessage (RedispatchingHandlers.interface f.handlers (.ok itself))
        f.config.requireHandler]

/-- `WorkerFactory._dispatcher`, in a context. -/
def WorkerFactory.dispatcherWithin (f : WorkerFactory ω) (current : Bool)
    (after : Envelope ω → Except (Exc ω) Unit) (publishing : PublishingBus ω) :
    Except (Exc ω) (List (Middleware ω)) :=
  f.config.chainWithin current after (.ok [handleMessage
    (RedispatchingHandlers.interface f.handlers publishing) f.config.requireHandler])

/-- The library's middleware, whoever configures it; `S` is what its senders are known to be. -/
inductive OfLibrary (S : Sender ω → Prop) : Middleware ω → Prop
  | logging (record : Envelope ω → Except (Exc ω) Unit) : OfLibrary S (logging record)
  | unitOfWork (enter : Bool → Except (Exc ω) Unit)
      (leave : Bool → Except (Exc ω) (Envelope ω) → Except (Exc ω) Unit) :
      OfLibrary S (unitOfWork enter leave)
  | dispatchAfterCurrentBus (current : Bool) (after : Envelope ω → Except (Exc ω) Unit) :
      OfLibrary S (holdingBack current after)
  | sendMessage (locator : SendersLocatorInterface ω) (requireSender handleUnrouted : Bool)
      (senders : ∀ envelope routed, .ok routed ∈ locator.sendersFor envelope → S routed.2) :
      OfLibrary S (sendMessage locator requireSender handleUnrouted)
  | handleMessage (registry : HandlersLocatorInterface ω) (requireHandler : Bool) :
      OfLibrary S (handleMessage registry requireHandler)

/-- A bus a factory builds without custom middleware, as it is in a context. -/
inductive Plain (S : Sender ω → Prop) (defaultMiddleware : Bool) : List (Middleware ω) → Prop
  | message {f : MessageBusFactory ω} {current : Bool} {after : Envelope ω → Except (Exc ω) Unit}
      {itself : Envelope ω → Except (Exc ω) (Envelope ω)} {bus : List (Middleware ω)}
      (same : f.config.defaultMiddleware = defaultMiddleware)
      (plain : ∀ m ∈ f.config.middleware, OfLibrary S m)
      (senders : ∀ senders, f.senders = .ok senders → ∀ s ∈ senders.values, S s)
      (built : f.busWithin current after itself = .ok bus) : Plain S defaultMiddleware bus
  | worker {f : WorkerFactory ω} {current : Bool} {after : Envelope ω → Except (Exc ω) Unit}
      {publishing : PublishingBus ω} {bus : List (Middleware ω)}
      (same : f.config.defaultMiddleware = defaultMiddleware)
      (plain : ∀ m ∈ f.config.middleware, OfLibrary S m)
      (built : f.dispatcherWithin current after publishing = .ok bus) :
      Plain S defaultMiddleware bus

end Contexts

section Holding

theorem withoutStamps_of_last_eq_none {envelope : Envelope ω} {base : StampBase}
    (h : envelope.last base = none) : envelope.withoutStamps base = envelope := by
  have hall := Envelope.last_eq_none_iff.mp h
  have hfilter : envelope.stamps.filter (fun s => !s.isInstance base) = envelope.stamps :=
    List.filter_eq_self.mpr fun s hs => by simp [hall s hs]
  rw [Envelope.withoutStamps, hfilter]

/-- Stamped or not, a message goes on without the stamp, or is held back so. -/
theorem holdingBack_eq (current : Bool) (after : Envelope ω → Except (Exc ω) Unit)
    (envelope : Envelope ω) (next : Envelope ω → Dispatching ω (Envelope ω)) :
    holdingBack current after envelope next =
      if current = false then dispatchAfterCurrentBus after envelope next
      else if envelope.last (.shipped .dispatchAfterCurrentBus) = none then next (goingOn envelope)
      else pure (goingOn envelope) := by
  unfold holdingBack
  cases h : envelope.last (.shipped .dispatchAfterCurrentBus) with
  | none =>
    have hsame : goingOn envelope = envelope := withoutStamps_of_last_eq_none h
    unfold goingOn at hsame ⊢
    cases current <;> simp [dispatchAfterCurrentBus, hsame]
  | some stamp => cases current <;> simp [dispatchAfterCurrentBus, goingOn]

/-- The bus of a process that handles no message yet. -/
theorem chainWithin_false (config : MessageBusConfig ω) (after : Envelope ω → Except (Exc ω) Unit)
    (defaults : Except (Exc ω) (List (Middleware ω))) :
    config.chainWithin false after defaults = config.chain after defaults := by
  have hfirst : holdingBack false after = dispatchAfterCurrentBus after := by
    funext envelope next
    exact (holdingBack_eq false after envelope next).trans (if_pos rfl)
  rw [MessageBusConfig.chainWithin, hfirst, MessageBusConfig.chain]

end Holding

/-- A middleware keeps an invariant of the envelope where the rest of the chain does. -/
def Keeps (I : Envelope ω → Prop) (m : Middleware ω) : Prop :=
  ∀ next : Envelope ω → Dispatching ω (Envelope ω), (∀ e, I e → (next e).Ensures I) →
    ∀ e, I e → (m e next).Ensures I

/-- What library middleware keep: an invariant that stamps meeting `P` do not break, added at the
end, nor dropping what holds a message back. -/
structure Stable (P : Stamp ω → Prop) (I : Envelope ω → Prop) : Prop where
  adding : ∀ e stamps, I e → (∀ s ∈ stamps, P s) → I (e.withStamps stamps)
  goingOn : ∀ e, I e → I (goingOn e)

section Keeping
variable {P : Stamp ω → Prop} {I : Envelope ω → Prop}

theorem chain_keeps {middleware : List (Middleware ω)} (h : ∀ m ∈ middleware, Keeps I m)
    (e : Envelope ω) (he : I e) : (chain middleware e).Ensures I := by
  induction middleware generalizing e with
  | nil => exact Traced.ensures_pure he
  | cons m middleware ih =>
    have hrest := ih fun m hm => h m (List.mem_cons_of_mem _ hm)
    exact h m List.mem_cons_self _ hrest e he

/-- Past the middleware that holds back, the invariant has to hold of what goes on only. -/
theorem holdingBack_ensures (current : Bool) (after : Envelope ω → Except (Exc ω) Unit)
    {next : Envelope ω → Dispatching ω (Envelope ω)} (hnext : ∀ e, I e → (next e).Ensures I)
    {e : Envelope ω} (he : I (goingOn e)) : (holdingBack current after e next).Ensures I := by
  rw [holdingBack_eq]
  split_ifs
  · exact (hnext _ he).andThen after
  · exact hnext _ he
  · exact Traced.ensures_pure he

theorem handleEach_keeps (stable : Stable P I)
    (hP : ∀ name result, P (.shipped (.handled name result)))
    (invoke : Found ω → Envelope ω → Dispatching ω ω) (found : List (Found ω))
    (envelope : Envelope ω) (errors : List (String × Exc ω)) (h : I envelope) :
    (handleEach invoke found envelope errors).Ensures fun handled => I handled.1 := by
  induction found generalizing envelope errors with
  | nil => exact Traced.ensures_pure h
  | cons f rest ih =>
    unfold handleEach
    rw [Traced.attempt_bind]
    cases (invoke f envelope).result with
    | error error => exact ih envelope _ h
    | ok result =>
      have hstamped := stable.adding envelope [.shipped (.handled f.name result)] h
        (by simpa using hP f.name result)
      exact ih _ errors hstamped

theorem handleMessage_keeps [PyObject ω] (stable : Stable P I)
    (hP : ∀ name result, P (.shipped (.handled name result)))
    (registry : HandlersLocatorInterface ω) (requireHandler : Bool) :
    Keeps I (handleMessage registry requireHandler) := by
  intro next hnext e he
  unfold handleMessage
  dsimp only
  split_ifs with hnone
  · exact Traced.ensures_error _
  · refine (handleEach_keeps stable hP registry.invoke _ e [] he).bind fun handled h => ?_
    obtain ⟨handled, errors⟩ := handled
    dsimp only at h ⊢
    split_ifs with hfailed
    · exact hnext handled h
    · intro returned hr
      cases hf : Exc.handlersFailedError handled errors with
      | error error => simp [hf, bind, Except.bind] at hr
      | ok error => simp [hf, bind, Except.bind] at hr

variable [BEq (Stamp ω)]

/-- What counts as added by a sender meets `P`. -/
def AddsOnly (P : Stamp ω → Prop) (sender : Sender ω) : Prop :=
  ∀ senderAlias envelope returned, answer envelope (senderAlias, sender) = .ok returned →
    ∀ s ∈ addedBy returned.stamps envelope.stamps, P s

theorem sendEach_adds (envelope : Envelope ω)
    {resolved : List (Except (Exc ω) (String × Sender ω))}
    (h : ∀ routed, .ok routed ∈ resolved → AddsOnly P routed.2) :
    (sendEach envelope resolved).Ensures fun added => ∀ s ∈ added, P s := by
  induction resolved with
  | nil => exact Traced.ensures_pure (by simp)
  | cons resolution rest ih =>
    have hrest := ih fun routed hm => h routed (List.mem_cons_of_mem _ hm)
    cases resolution with
    | error error => exact Traced.ensures_error error
    | ok routed =>
      have hfirst := h routed List.mem_cons_self routed.1 envelope
      unfold sendEach
      refine (Traced.ensures_call hfirst).bind fun returned hr => ?_
      refine hrest.bind fun added ha => Traced.ensures_pure fun s hs => ?_
      exact (List.mem_append.mp hs).elim (hr s) (ha s)

theorem sendMessage_keeps [PyObject ω] (stable : Stable P I) (locator : SendersLocatorInterface ω)
    (requireSender handleUnrouted : Bool)
    (h : ∀ envelope routed, .ok routed ∈ locator.sendersFor envelope → AddsOnly P routed.2) :
    Keeps I (sendMessage locator requireSender handleUnrouted) := by
  intro next hnext e he
  unfold sendMessage
  by_cases hreceived : e.last (.shipped .received) ≠ none
  · rw [if_pos hreceived]
    exact hnext e he
  · rw [if_neg hreceived]
    refine (sendEach_adds e (h e)).bind fun added ha => ?_
    have hadded := stable.adding e added he ha
    dsimp only
    split_ifs
    · exact Traced.ensures_pure hadded
    · exact hnext _ hadded
    · exact Traced.ensures_error _
    · exact Traced.ensures_pure he
    · exact hnext e he

theorem OfLibrary.keeps [Messages ω] {S : Sender ω → Prop} {m : Middleware ω} (h : OfLibrary S m)
    (stable : Stable P I) (hP : ∀ name result, P (.shipped (.handled name result)))
    (hS : ∀ s, S s → AddsOnly P s) : Keeps I m := by
  cases h with
  | logging record => exact fun next hnext e he => (hnext e he).andThen record
  | unitOfWork enter leave =>
    intro next hnext e he
    exact (Traced.ensures_true _).bind fun _ _ => (hnext e he).finallyDo _
  | dispatchAfterCurrentBus current after =>
    exact fun next hnext e he => holdingBack_ensures current after hnext (stable.goingOn e he)
  | sendMessage locator requireSender handleUnrouted senders =>
    exact sendMessage_keeps stable locator requireSender handleUnrouted
      fun envelope routed hr => hS _ (senders envelope routed hr)
  | handleMessage registry requireHandler =>
    exact handleMessage_keeps stable hP registry requireHandler

end Keeping

section Built

theorem SendersLocator.create_senders {routing : Dict RouteKey Route}
    {senders : Dict String (Sender ω)} {locator : SendersLocator ω}
    (h : SendersLocator.create routing senders = .ok locator) : locator.senders = senders := by
  unfold SendersLocator.create at h
  dsimp only at h
  split at h
  · simp at h
  · cases h
    rfl

theorem SendersLocator.resolved_mem {locator : SendersLocator ω} {names : List String}
    {routed : String × Sender ω} (h : .ok routed ∈ names.map locator.resolve) :
    routed.2 ∈ locator.senders.values := by
  obtain ⟨name, -, hr⟩ := List.mem_map.mp h
  unfold SendersLocator.resolve at hr
  cases hs : locator.senders.get? name with
  | none => simp [hs] at hr
  | some sender =>
    simp only [hs, Except.ok.injEq] at hr
    subst hr
    exact List.mem_map_of_mem (f := Prod.snd) ((Dict.get?_eq_some_iff _).mp hs)

variable [Messages ω] [BEq (Stamp ω)] {S : Sender ω → Prop}

/-- A chain of library middleware, that which holds back ahead of the others where the defaults
are on. -/
structure LibraryChain (S : Sender ω → Prop) (defaultMiddleware : Bool)
    (bus : List (Middleware ω)) : Prop where
  library : ∀ m ∈ bus, OfLibrary S m
  first : defaultMiddleware = true → ∃ current after rest, bus = holdingBack current after :: rest

theorem libraryChain_of_chainWithin {config : MessageBusConfig ω} {current : Bool}
    {after : Envelope ω → Except (Exc ω) Unit} {defaults : Except (Exc ω) (List (Middleware ω))}
    {bus : List (Middleware ω)} (plain : ∀ m ∈ config.middleware, OfLibrary S m)
    (hd : ∀ d, defaults = .ok d → ∀ m ∈ d, OfLibrary S m)
    (h : config.chainWithin current after defaults = .ok bus) :
    LibraryChain S config.defaultMiddleware bus := by
  unfold MessageBusConfig.chainWithin at h
  cases hon : config.defaultMiddleware with
  | false =>
    simp only [hon, Bool.not_false, if_true, Except.ok.injEq] at h
    exact ⟨h ▸ plain, by simp⟩
  | true =>
    simp only [hon, Bool.not_true, Bool.false_eq_true, if_false] at h
    obtain ⟨d, hdefaults, hb⟩ := bind_eq_ok_iff.mp h
    obtain rfl := Except.ok.inj hb
    refine ⟨fun m hm => ?_, fun _ => ⟨current, after, _, rfl⟩⟩
    rcases List.mem_cons.mp hm with rfl | hm
    · exact .dispatchAfterCurrentBus current after
    · exact (List.mem_append.mp hm).elim (plain m) (hd d hdefaults m)

theorem Plain.libraryChain {on : Bool} {bus : List (Middleware ω)} (h : Plain S on bus) :
    LibraryChain S on bus := by
  cases h with
  | @message f current after itself bus same plain senders built =>
    refine same ▸ libraryChain_of_chainWithin plain (fun d hd m hm => ?_) built
    obtain ⟨locator, hlocator, hd⟩ := bind_eq_ok_iff.mp hd
    obtain ⟨built, hbuilt, hcreate⟩ := bind_eq_ok_iff.mp hlocator
    obtain rfl := Except.ok.inj hd
    rcases List.mem_pair.mp hm with rfl | rfl
    · refine .sendMessage _ _ _ fun envelope routed hr => senders built hbuilt _ ?_
      exact SendersLocator.create_senders hcreate ▸ SendersLocator.resolved_mem hr
    · exact .handleMessage _ _
  | @worker f current after publishing bus same plain built =>
    refine same ▸ libraryChain_of_chainWithin plain (fun d hd m hm => ?_) built
    obtain rfl := Except.ok.inj hd
    obtain rfl := List.mem_singleton.mp hm
    exact .handleMessage _ _

end Built

/-- An envelope of the same message, the stamps of another with more at the end. -/
structure Above (before after : Envelope ω) : Prop where
  message : after.message = before.message
  stamps : before.stamps <+: after.stamps

section Frames

theorem goingOn_goingOn (e : Envelope ω) : goingOn (goingOn e) = goingOn e := by
  simp [goingOn, Envelope.withoutStamps, List.filter_filter]

theorem Above.goingOn {before after : Envelope ω} (h : Above before after) :
    Above (goingOn before) (goingOn after) := ⟨h.message, h.stamps.filter _⟩

theorem Above.withStamps {before after : Envelope ω} (h : Above before after)
    (stamps : List (Stamp ω)) : Above before (after.withStamps stamps) :=
  ⟨h.message, h.stamps.trans (List.prefix_append _ _)⟩

/-- What does not wait stays at the front of whatever comes of it. -/
theorem stable_above (before : Envelope ω) :
    Stable (fun _ => True) (Above (goingOn before)) := by
  constructor
  · exact fun e stamps h _ => h.withStamps stamps
  · exact fun e h => goingOn_goingOn before ▸ h.goingOn

/-- The same of what waits, once it does not. -/
theorem stable_above_goingOn (before : Envelope ω) :
    Stable (fun _ => True) (fun e => Above (goingOn before) (goingOn e)) := by
  constructor
  · intro e stamps h _
    have hsplit : goingOn (e.withStamps stamps) = (goingOn e).withStamps
        (stamps.filter fun s => !s.isInstance (.shipped .dispatchAfterCurrentBus)) := by
      simp [goingOn, Envelope.withoutStamps, Envelope.withStamps]
    exact hsplit ▸ h.withStamps _
  · intro e h
    rwa [goingOn_goingOn]

/-- Stamps of other kinds do not change which one of a kind is the last. -/
theorem stable_last {kind : StampKind} (hkind : kind ≠ .dispatchAfterCurrentBus)
    (last : Option (Stamp ω)) : Stable (fun s => s.isInstance (.shipped kind) = false)
      (fun e => e.last (.shipped kind) = last) := by
  constructor
  · intro e stamps h hP
    have hnone : stamps.filter (fun s => s.isInstance (.shipped kind)) = [] :=
      List.filter_eq_nil_iff.mpr fun s hs => by simp [hP s hs]
    rw [← h]
    simp [Envelope.last, Envelope.all, Envelope.withStamps, hnone]
  · exact fun e h => (last_withoutStamps_of_ne e hkind).trans h

variable [Messages ω] [BEq (Stamp ω)] {S : Sender ω → Prop} {on : Bool} {bus : List (Middleware ω)}

theorem Plain.keeps (h : Plain S on bus) {P : Stamp ω → Prop} {I : Envelope ω → Prop}
    (stable : Stable P I) (hP : ∀ name result, P (.shipped (.handled name result)))
    (hS : ∀ s, S s → AddsOnly P s) {e : Envelope ω} (he : I e) : (chain bus e).Ensures I :=
  chain_keeps (fun m hm => (h.libraryChain.library m hm).keeps stable hP hS) e he

/-- What a dispatch through a factory's bus returns is of the same message, and begins with what
was dispatched, whether or not it was to wait. -/
theorem Plain.above (h : Plain S on bus) (e : Envelope ω) : (chain bus e).Ensures fun returned =>
    Above (goingOn e) (goingOn returned) ∧ (on = true → Above (goingOn e) returned) := by
  intro returned hr
  constructor
  · exact h.keeps (stable_above_goingOn e) (fun _ _ => trivial) (fun _ _ _ _ _ _ _ _ => trivial)
      ⟨rfl, List.prefix_refl _⟩ returned hr
  · intro hon
    obtain ⟨current, after, rest, rfl⟩ := h.libraryChain.first hon
    refine holdingBack_ensures current after (fun e' he' => chain_keeps (fun m hm => ?_) e' he')
      ⟨rfl, List.prefix_refl _⟩ returned hr
    exact (h.libraryChain.library m (List.mem_cons_of_mem _ hm)).keeps (stable_above e)
      (fun _ _ => trivial) fun _ _ _ _ _ _ _ _ => trivial

end Frames
end XtrMessenger.Bus
