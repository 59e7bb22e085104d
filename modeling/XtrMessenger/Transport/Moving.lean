import XtrMessenger.Bus.Failures
import XtrMessenger.Transport.Recording

/-! A message moved from `sync://` onto a queue: a worker runs the handlers the dispatch ran, and
they come out alike. -/
namespace XtrMessenger.Transport
open Foundation Bus
variable {ω : Type}

/-- What a handler that ran was handed and answered. -/
inductive Ran (ω : Type)
  | handler (descriptor : HandlerDescriptor ω) (message : ω) (answer : Except (Exc ω) ω)
  /-- The redispatching handler, through the publishing bus. -/
  | redispatch (envelope : Envelope ω) (answer : Except (Exc ω) (Envelope ω))

def ran? : BusCall ω → Option (Ran ω)
  | .send _ _ _ => none
  | .invoke descriptor envelope answer => some (.handler descriptor envelope.message answer)
  | .publish envelope answer => some (.redispatch envelope answer)

/-- Handling two envelopes came out alike: what it added to one it added to the other. -/
inductive Alike (here there : Envelope ω) :
    Except (Exc ω) (Envelope ω) → Except (Exc ω) (Envelope ω) → Prop
  | returned (stamps : List (Stamp ω)) :
      Alike here there (.ok (here.withStamps stamps)) (.ok (there.withStamps stamps))
  | failed (stamps : List (Stamp ω)) (errors : List (String × Exc ω)) (text : String) :
      Alike here there (.error (.handlersFailed (here.withStamps stamps) errors text))
        (.error (.handlersFailed (there.withStamps stamps) errors text))
  | raised (error : Exc ω) : Alike here there (.error error) (.error error)

section Handling
variable [Messages ω] {here there : Envelope ω}

/-- Two turns of one handler, which does not see the envelope. -/
structure SameTurn (t u : Turn ω) : Prop where
  found : t.found = u.found
  result : t.run.result = u.run.result
  ran : t.run.calls.filterMap ran? = u.run.calls.filterMap ran?

/-- The handler is given its message alone. -/
def TakesMessage : Found ω → Prop
  | .registered descriptor => descriptor.wantsEnvelope = false
  | .redispatching => True

theorem invoke_sameTurn {found : Found ω} (h : TakesMessage found)
    (hm : here.message = there.message) (publishing : PublishingBus ω) :
    SameTurn ⟨found, here, RedispatchingHandlers.invoke publishing found here⟩
      ⟨found, there, RedispatchingHandlers.invoke publishing found there⟩ := by
  cases found with
  | registered descriptor =>
    have hunseen : descriptor.wantsEnvelope = false := h
    have hanswer : descriptor.invoke here = descriptor.invoke there := by
      unfold HandlerDescriptor.invoke
      rw [hunseen, hm]
      rfl
    refine ⟨rfl, hanswer, ?_⟩
    simp only [RedispatchingHandlers.invoke, hanswer]
    simp [ran?, hm]
  | redispatching =>
    unfold RedispatchingHandlers.invoke
    simp only [hm]
    exact ⟨rfl, rfl, rfl⟩

theorem turns_same {found : List (Found ω)} (h : ∀ f ∈ found, TakesMessage f)
    (hm : here.message = there.message) (publishing : PublishingBus ω) :
    List.Forall₂ SameTurn (turns (RedispatchingHandlers.invoke publishing) found here)
      (turns (RedispatchingHandlers.invoke publishing) found there) := by
  induction found generalizing here there with
  | nil => exact .nil
  | cons f rest ih =>
    have hfirst := invoke_sameTurn (h f List.mem_cons_self) hm publishing
    refine .cons hfirst (ih (fun f hf => h f (List.mem_cons_of_mem _ hf)) ?_)
    exact hm

variable {ts us : List (Turn ω)}

omit [Messages ω] in
/-- What the turns leave: the stamps, the failures kept and what ran. -/
theorem left_same (h : List.Forall₂ SameTurn ts us) :
    ts.flatMap Turn.stamps = us.flatMap Turn.stamps ∧
      (∀ errors, ts.foldl keep errors = us.foldl keep errors) ∧
      (ts.flatMap fun t => t.run.calls).filterMap ran? =
        (us.flatMap fun u => u.run.calls).filterMap ran? := by
  induction h with
  | nil => exact ⟨rfl, fun _ => rfl, rfl⟩
  | @cons t u ts us ht _ ih =>
    obtain ⟨hstamps, hkept, hran⟩ := ih
    have hstamp : t.stamps = u.stamps := by simp only [Turn.stamps, ht.found, ht.result]
    have hkeep : ∀ errors, keep errors t = keep errors u := by
      intro errors
      simp only [keep, Turn.failure?, ht.found, ht.result]
    refine ⟨?_, fun errors => ?_, ?_⟩
    · rw [List.flatMap_cons, List.flatMap_cons, hstamp, hstamps]
    · rw [List.foldl_cons, List.foldl_cons, hkeep, hkept]
    · rw [List.flatMap_cons, List.flatMap_cons, List.filterMap_append, List.filterMap_append,
        ht.ran, hran]

theorem handlersFailedError_alike (hm : here.message = there.message) (stamps : List (Stamp ω))
    (errors : List (String × Exc ω)) : Alike here there
      (Exc.handlersFailedError (here.withStamps stamps) errors >>= .error)
      (Exc.handlersFailedError (there.withStamps stamps) errors >>= .error) := by
  unfold Exc.handlersFailedError
  cases hread : (errors.mapM fun entry => do
      return entry.1 ++ ": " ++ (← entry.2.str) : Except (Exc ω) (List String)) with
  | error raises => exact .raised raises
  | ok failures =>
    simp only [Envelope.withStamps_message, hm]
    exact .failed stamps errors _

variable (here there) in
/-- Handlers given their message alone do the same wherever it is handled. -/
theorem handleMessage_alike {inner : HandlersLocator ω} (publishing : PublishingBus ω)
    (requireHandler : Bool) (hm : here.message = there.message)
    (h : ∀ f ∈ RedispatchingHandlers.handlersFor inner (PyObject.typeOf here.message),
      TakesMessage f) :
    let registry := RedispatchingHandlers.interface inner publishing
    let ranHere := handleMessage registry requireHandler here pure
    let ranThere := handleMessage registry requireHandler there pure
    ranHere.calls.filterMap ran? = ranThere.calls.filterMap ran? ∧
      Alike here there ranHere.result ranThere.result := by
  intro registry ranHere ranThere
  by_cases hgo : registry.handlersFor (PyObject.typeOf here.message) ≠ [] ∨ requireHandler = false
  · have hsame : List.Forall₂ SameTurn
        (turns registry.invoke (registry.handlersFor (PyObject.typeOf here.message)) here)
        (turns registry.invoke (registry.handlersFor (PyObject.typeOf here.message)) there) :=
      turns_same h hm publishing
    obtain ⟨hstamps, hkept, hran⟩ := left_same hsame
    have hhere : ranHere = conclude _ here pure := handleMessage_eq registry here pure hgo
    have hthere : ranThere = conclude _ there pure :=
      handleMessage_eq registry there pure (hm ▸ hgo)
    rw [hhere, hthere, ← hm]
    unfold conclude
    simp only [hstamps, hkept, List.filterMap_append, hran]
    split_ifs
    · exact ⟨rfl, .returned _⟩
    · exact ⟨rfl, handlersFailedError_alike hm _ _⟩
  · rw [not_or, not_not, Bool.not_eq_false] at hgo
    obtain ⟨hnone, hrequired⟩ := hgo
    have hhere : ranHere = _ := handleMessage_refused registry here pure hnone hrequired
    have hthere : ranThere = _ :=
      handleMessage_refused registry there pure (hm ▸ hnone) hrequired
    rw [hhere, hthere, hm]
    exact ⟨rfl, .raised _⟩

end Handling
section Chains

/-- A middleware that hands the message on as it is, and back what comes of it. -/
def PassesThrough (m : Bus.Middleware ω) : Prop := ∀ envelope next, m envelope next = next envelope

theorem passesThrough_logging : PassesThrough (logging fun _ : Envelope ω => .ok ()) := by
  intro envelope next
  unfold logging
  cases hr : (next envelope).result with
  | error error => rw [Traced.bind_of_error _ hr, ← hr]
  | ok result =>
    rw [Traced.bind_of_ok _ hr]
    change Traced.mk ((next envelope).calls ++ []) (.ok result) = next envelope
    rw [List.append_nil, ← hr]

theorem passesThrough_unitOfWork :
    PassesThrough (unitOfWork (ω := ω) (fun _ => .ok ()) fun _ _ => .ok ()) := by
  intro envelope next
  change Traced.mk ([] ++ ((next envelope).calls ++ [])) (next envelope).result = next envelope
  rw [List.nil_append, List.append_nil]

theorem chain_passesThrough {middleware : List (Bus.Middleware ω)}
    (h : ∀ m ∈ middleware, PassesThrough m) (rest : List (Bus.Middleware ω))
    (envelope : Envelope ω) :
    chain (middleware ++ rest) envelope = chain rest envelope := by
  induction middleware with
  | nil => rfl
  | cons m middleware ih =>
    rw [List.cons_append, chain, h m List.mem_cons_self]
    exact ih fun m hm => h m (List.mem_cons_of_mem _ hm)

/-- With nothing held back, or all of it dispatched, the chain past the defaults' first. -/
theorem dispatch_passed {middleware : List (Bus.Middleware ω)}
    (h : ∀ m ∈ middleware, PassesThrough m) (rest : List (Bus.Middleware ω))
    (envelope : Envelope ω) :
    dispatch (dispatchAfterCurrentBus (fun _ => .ok ()) :: (middleware ++ rest)) envelope [] =
      chain rest (goingOn envelope) := by
  have hgoing : dispatchAfterCurrentBus (fun _ => .ok ()) envelope (chain (middleware ++ rest)) =
      chain (middleware ++ rest) (goingOn envelope) := passesThrough_logging (goingOn envelope) _
  rw [dispatch, Envelope.withStamps_nil, chain, hgoing, chain_passesThrough h]

end Chains
section Senders
variable {l : SendersLocator ω}

/-- `sync://`. -/
def sync [Unicode] : Sender ω := ⟨"SyncTransport", SyncTransport.send⟩

/-- `in-memory://`. -/
def queue [Unicode] (recode : Option (Envelope ω → Except (Exc ω) (Envelope ω)))
    (messageId : String) : Sender ω :=
  ⟨"InMemoryTransport", InMemoryTransport.send recode fun _ => messageId⟩

/-- The destination, once the transport of a name is another. -/
def moved (name : String) (sender : Sender ω) (routed : String × Sender ω) : String × Sender ω :=
  if routed.1 = name then (name, sender) else routed

/-- Only what the name stands for is another. -/
theorem sendersFor_moved [Messages ω] {l' : SendersLocator ω} {name : String} {sender : Sender ω}
    (hroutes : l'.routes = l.routes) (hsenders : l'.senders = l.senders.set name sender)
    (messages : MessageRegistry) {envelope : Envelope ω} {routed : List (String × Sender ω)}
    (h : l.sendersFor messages envelope = routed.map .ok) :
    l'.sendersFor messages envelope = (routed.map (moved name sender)).map .ok := by
  have hnames : l'.transportNames messages envelope = l.transportNames messages envelope := by
    simp only [SendersLocator.transportNames, hroutes]
  unfold SendersLocator.sendersFor at h ⊢
  rw [hnames]
  generalize (l.transportNames messages envelope).eraseDups = names at h ⊢
  induction names generalizing routed with
  | nil =>
    obtain rfl : routed = [] := List.map_eq_nil_iff.mp h.symm
    rfl
  | cons first names ih =>
    cases routed with
    | nil => cases h
    | cons destination routed =>
      obtain ⟨hfirst, hrest⟩ := List.cons.inj h
      rw [List.map_cons, List.map_cons, List.map_cons, ih hrest]
      refine congrArg (· :: _) ?_
      unfold SendersLocator.resolve at hfirst ⊢
      rw [hsenders, Dict.get?_set]
      cases hfound : l.senders.get? first with
      | none => simp [hfound] at hfirst
      | some found =>
        obtain rfl : (first, found) = destination := by simpa [hfound] using hfirst
        by_cases hname : first = name
        · simp [hname, moved]
        · simp [hname, moved]

theorem create_moved {routing : Dict RouteKey Route} {senders : Dict String (Sender ω)}
    (h : SendersLocator.create routing senders = .ok l) (name : String) (sender : Sender ω) :
    ∃ l', SendersLocator.create routing (senders.set name sender) = .ok l' ∧
      l'.routes = l.routes ∧ l'.senders = l.senders.set name sender := by
  unfold SendersLocator.create at h ⊢
  dsimp only at h ⊢
  split at h
  · cases h
  · rename_i hknown
    obtain rfl := Except.ok.inj h
    split
    · rename_i unknown hunknown
      have hmissing := List.find?_some hunknown
      have hlisted := List.mem_of_find?_eq_some hunknown
      have hfound := List.find?_eq_none.mp hknown unknown hlisted
      simp only [decide_not, decide_eq_false_iff_not, not_not, Bool.not_eq_eq_eq_not,
        Bool.not_true] at hmissing hfound
      exact absurd ((Dict.mem_keys_set _ _ _).mpr (.inr hfound)) hmissing
    · exact ⟨_, rfl, rfl, rfl⟩

end Senders
section Settling

/-- What a worker without listeners does with a message it collected. -/
theorem settle_unannounced {worker : Worker} (h : worker.hasDispatcher = false) (world : World ω)
    (envelope : Envelope ω) : (worker.settle world envelope).calls =
      .dispatch (worker.named envelope) (world.bus (worker.named envelope)) ::
        ((worker.settleOutcome world (receiverNameOf envelope worker.receiverName)
          (match world.bus (worker.named envelope) with
            | .ok current => .handled current
            | .error error => .failed (worker.named envelope) error)).calls ++
          (worker.resetting world).calls) := by
  have hnone : worker.dispatcher world = none := by
    unfold Worker.dispatcher
    rw [h]
    rfl
  unfold Worker.settle
  dsimp only
  rw [hnone, handle_none, Traced.bind_of_ok _ rfl]
  rfl

theorem settle_acks {worker : Worker} (h : worker.hasDispatcher = false) {world : World ω}
    {envelope returned : Envelope ω} (hb : world.bus (worker.named envelope) = .ok returned) :
    .ack returned (world.ack returned) ∈ (worker.settle world envelope).calls := by
  rw [settle_unannounced h, hb]
  exact .tail _ (.head _)

theorem settle_rejects {worker : Worker} (h : worker.hasDispatcher = false) {world : World ω}
    {envelope : Envelope ω} {error : Exc ω} {details : Stamp ω}
    (hb : world.bus (worker.named envelope) = .error error)
    (hd : errorDetailsOf error = .ok details) :
    let rejected := (worker.named envelope).withStamps [details]
    .reject rejected (world.reject rejected) ∈ (worker.settle world envelope).calls := by
  have hnone : worker.dispatcher world = none := by
    unfold Worker.dispatcher
    rw [h]
    rfl
  rw [settle_unannounced h, hb]
  simp only [Worker.settleOutcome, announceFailure, hnone]
  rw [Traced.bind_of_ok (a := details) _ hd]
  exact .tail _ (.head _)

theorem Alike.returned_of {here there : Envelope ω} {r r' : Except (Exc ω) (Envelope ω)}
    (h : Alike here there r r') {stamps : List (Stamp ω)} (hr : r = .ok (here.withStamps stamps)) :
    r' = .ok (there.withStamps stamps) := by
  cases h with
  | returned added =>
    have hstamps := congrArg Envelope.stamps (Except.ok.inj hr)
    rw [List.append_cancel_left hstamps]
  | failed added errors text => cases hr
  | raised error => cases hr

/-- What went wrong is said in the same words. -/
theorem Alike.errorDetailsOf {here there : Envelope ω} {r r' : Except (Exc ω) (Envelope ω)}
    (h : Alike here there r r') {error : Exc ω} (hr : r = .error error) :
    ∃ error', r' = .error error' ∧ errorDetailsOf error' = errorDetailsOf error := by
  cases h with
  | returned stamps => cases hr
  | failed stamps errors text =>
    obtain rfl := Except.error.inj hr
    cases errors <;> exact ⟨_, rfl, rfl⟩
  | raised error => exact ⟨error, rfl, by rw [Except.error.inj hr]⟩

end Settling
section Moving
variable [Unicode] [Messages ω] [BEq (Stamp ω)]

/-- A message a factory's bus handles where it is dispatched: `name` stands for `sync://`, and every
sender it goes to answers. -/
structure HandledHere (f : MessageBusFactory ω) (envelope : Envelope ω) (name : String)
    (senders : Dict String (Sender ω)) (l : SendersLocator ω) (routed : List (String × Sender ω))
    (returned : List (Envelope ω)) : Prop where
  defaults : f.config.defaultMiddleware = true
  middleware : ∀ m ∈ f.config.middleware, PassesThrough m
  built : f.senders = .ok senders
  locator : SendersLocator.create f.config.routing senders = .ok l
  new : envelope.last (.shipped .received) = none
  destinations : l.sendersFor f.messages (goingOn envelope) = routed.map .ok
  sync : (name, sync) ∈ routed
  answers : List.Forall₂ (fun s r => answer (goingOn envelope) s = .ok r) routed returned
  handlers : ∀ found ∈ RedispatchingHandlers.handlersFor f.handlers
    (PyObject.typeOf envelope.message), TakesMessage found

/-- The factory, with another transport under a name. -/
def replaced (f : MessageBusFactory ω) (name : String) (sender : Sender ω) : MessageBusFactory ω :=
  { f with senders := f.senders.map fun senders => senders.set name sender }

/-- The worker's side of a factory. -/
def consuming (f : MessageBusFactory ω) : Bus.WorkerFactory ω := ⟨f.config, f.handlers⟩

omit [Messages ω] in
/-- What the synchronous transport returned is received. -/
theorem received_added [EquivBEq (Stamp ω)] {envelope : Envelope ω} {name : String}
    {routed : List (String × Sender ω)} {returned : List (Envelope ω)}
    (hm : (name, Transport.sync) ∈ routed)
    (ha : List.Forall₂ (fun s r => answer envelope s = .ok r) routed returned) :
    (envelope.withStamps (returned.map fun r => addedBy r.stamps envelope.stamps).flatten).last
      (.shipped .received) ≠ none := by
  intro hnone
  obtain ⟨r, hr, hanswer⟩ : ∃ r ∈ returned, answer envelope (name, Transport.sync) = .ok r :=
    exists_of_mem_right ha.flip hm
  have hall := Envelope.last_eq_none_iff.mp hnone
  obtain ⟨received, hreceived⟩ : ∃ received, r = (handed envelope (name, Transport.sync)).withStamps
      [.shipped (.received received)] := by
    change SyncTransport.send _ = _ at hanswer
    unfold SyncTransport.send at hanswer
    split_ifs at hanswer
    exact ⟨_, (Except.ok.inj hanswer).symm⟩
  have hadded : addedBy r.stamps envelope.stamps =
      [.shipped (.sent "SyncTransport" name), .shipped (.received received)] := by
    rw [hreceived]
    simp [addedBy, handed, Envelope.withStamps, Transport.sync]
  have hmem : .shipped (.received received) ∈ envelope.stamps ++
      (returned.map fun r => addedBy r.stamps envelope.stamps).flatten := by
    refine List.mem_append_right _ (List.mem_flatten.mpr ⟨_, List.mem_map_of_mem hr, ?_⟩)
    rw [hadded]
    simp
  have hfalse := hall _ hmem
  simp [Stamp.isInstance, Stamp.asShipped, ShippedStamp.kind] at hfalse

/-- One message, handled where it is dispatched and by a worker that collected it. -/
structure HandledAlike (here there : Envelope ω) (dispatched worked : Dispatching ω (Envelope ω))
    (worker : Worker) (world : World ω) (collected : Envelope ω) : Prop where
  ran : dispatched.calls.filterMap ran? = worked.calls.filterMap ran?
  alike : Alike here there dispatched.result worked.result
  acked : ∀ stamps, dispatched.result = .ok (here.withStamps stamps) →
    .ack (there.withStamps stamps) (world.ack (there.withStamps stamps)) ∈
      (worker.settle world collected).calls
  rejected : ∀ error details, dispatched.result = .error error →
    errorDetailsOf error = .ok details →
      let rejected := (worker.named collected).withStamps [details]
      .reject rejected (world.reject rejected) ∈ (worker.settle world collected).calls

section Built
variable {f : MessageBusFactory ω} {senders : Dict String (Sender ω)} {l : SendersLocator ω}
  {itself : Envelope ω → Except (Exc ω) (Envelope ω)}

/-- The last two of a factory's chain. -/
def defaultsOf (f : MessageBusFactory ω) (l : SendersLocator ω)
    (itself : Envelope ω → Except (Exc ω) (Envelope ω)) : List (Bus.Middleware ω) :=
  [sendMessage (l.interface f.messages) f.config.requireSender f.config.handleUnrouted,
    handleMessage (RedispatchingHandlers.interface f.handlers (.ok itself)) f.config.requireHandler]

omit [Unicode] in
theorem bus_built (hdefaults : f.config.defaultMiddleware = true)
    (hsenders : f.senders = .ok senders)
    (hlocator : SendersLocator.create f.config.routing senders = .ok l) :
    f.bus (fun _ => .ok ()) itself = .ok (dispatchAfterCurrentBus (fun _ => .ok ()) ::
      (f.config.middleware ++ defaultsOf f l itself)) := by
  have hl : f.locator = .ok l := by
    unfold MessageBusFactory.locator
    rw [hsenders]
    exact hlocator
  unfold MessageBusFactory.bus MessageBusConfig.chain
  rw [hl, hdefaults]
  rfl

variable (f itself) in
omit [Unicode] in
/-- What a bus does with a message that is sent to every destination it has. -/
theorem dispatch_sent {routed : List (String × Sender ω)} {returned : List (Envelope ω)}
    {envelope : Envelope ω} (hmiddleware : ∀ m ∈ f.config.middleware, PassesThrough m)
    (hnew : envelope.last (.shipped .received) = none)
    (hrouted : l.sendersFor f.messages (goingOn envelope) = routed.map .ok) (hne : routed ≠ [])
    (ha : List.Forall₂ (fun s r => answer (goingOn envelope) s = .ok r) routed returned) :
    let merged := (goingOn envelope).withStamps
      (returned.map fun r => addedBy r.stamps (goingOn envelope).stamps).flatten
    let rest := if merged.last (.shipped .received) = none then pure merged else
      handleMessage (RedispatchingHandlers.interface f.handlers (.ok itself))
        f.config.requireHandler merged pure
    dispatch (dispatchAfterCurrentBus (fun _ => .ok ()) ::
        (f.config.middleware ++ defaultsOf f l itself)) envelope [] =
      ⟨routed.map (sending (goingOn envelope)) ++ rest.calls, rest.result⟩ := by
  have hunreceived : (goingOn envelope).last (.shipped .received) = none :=
    (last_withoutStamps_of_ne envelope (by decide)).trans hnew
  rw [dispatch_passed hmiddleware]
  exact sendMessage_routed _ _ _ hunreceived hrouted hne ha

omit [Unicode] [Messages ω] [BEq (Stamp ω)] in
theorem ran_sending (envelope : Envelope ω) (routed : List (String × Sender ω)) :
    (routed.map (sending envelope)).filterMap ran? = [] := by
  rw [List.filterMap_map]
  exact List.filterMap_eq_nil_iff.mpr fun s _ => rfl

end Built

section Sides
variable {f : MessageBusFactory ω} {envelope : Envelope ω} {name : String}
  {senders : Dict String (Sender ω)} {l : SendersLocator ω} {routed : List (String × Sender ω)}
  {returned : List (Envelope ω)}

omit [Unicode] [Messages ω] [BEq (Stamp ω)] in
/-- With the transport replaced, every other destination answers as before. -/
theorem answers_moved {sender : Sender ω} {e answered : Envelope ω}
    (hanswer : answer e (name, sender) = .ok answered)
    (ha : List.Forall₂ (fun s r => answer e s = .ok r) routed returned) :
    ∃ returned', List.Forall₂ (fun s r => answer e s = .ok r) (routed.map (moved name sender))
      returned' := by
  refine exists_forall₂ fun s hs => ?_
  obtain ⟨destination, hd, rfl⟩ := List.mem_map.mp hs
  unfold moved
  split_ifs
  · exact ⟨answered, hanswer⟩
  · obtain ⟨r, -, hr⟩ := exists_of_mem_right ha.flip hd
    exact ⟨r, hr⟩

theorem sends_moved (h : HandledHere f envelope name senders l routed returned)
    {itself : Envelope ω → Except (Exc ω) (Envelope ω)} {sender : Sender ω} {l' : SendersLocator ω}
    (hroutes : l'.routes = l.routes) (hsenders : l'.senders = l.senders.set name sender)
    {answered : Envelope ω} (hanswer : answer (goingOn envelope) (name, sender) = .ok answered) :
    .send name (handed (goingOn envelope) (name, sender)) (.ok answered) ∈
      (dispatch (dispatchAfterCurrentBus (fun _ => .ok ()) ::
        ((replaced f name sender).config.middleware ++
          defaultsOf (replaced f name sender) l' itself)) envelope []).calls := by
  obtain ⟨returned', ha'⟩ := answers_moved hanswer h.answers
  have hmem : (name, sender) ∈ routed.map (moved name sender) :=
    List.mem_map.mpr ⟨_, h.sync, if_pos rfl⟩
  have hrun := dispatch_sent (replaced f name sender) itself h.middleware h.new
    (sendersFor_moved hroutes hsenders f.messages h.destinations) (List.ne_nil_of_mem hmem) ha'
  rw [hrun]
  refine List.mem_append_left _ (List.mem_map.mpr ⟨_, hmem, ?_⟩)
  rw [sending, hanswer]

omit [Unicode] [Messages ω] in
/-- Where no destination hands the message back received, merging makes it none. -/
theorem merged_unreceived [EquivBEq (Stamp ω)] {e : Envelope ω}
    (hnew : e.last (.shipped .received) = none)
    (hanswers : ∀ s ∈ routed, ∀ r, answer e s = .ok r → r.last (.shipped .received) = none)
    (ha : List.Forall₂ (fun s r => answer e s = .ok r) routed returned) :
    (e.withStamps (returned.map fun r => addedBy r.stamps e.stamps).flatten).last
      (.shipped .received) = none := by
  rw [Envelope.last_eq_none_iff] at hnew ⊢
  intro s hs
  rcases List.mem_append.mp hs with hs | hs
  · exact hnew s hs
  · obtain ⟨added, hm, hs⟩ := List.mem_flatten.mp hs
    obtain ⟨r, hr, rfl⟩ := List.mem_map.mp hm
    obtain ⟨destination, hd, hanswer⟩ := exists_of_mem_right ha hr
    rw [addedBy_eq_surplus] at hs
    exact Envelope.last_eq_none_iff.mp (hanswers destination hd r hanswer) s
      ((surplus_sublist _ _).subset hs)

omit [Unicode] [Messages ω] [BEq (Stamp ω)] in
/-- What a queue hands back was not received. -/
theorem returned_unreceived {e recorded : Envelope ω} (hnew : e.last (.shipped .received) = none)
    (destination : String × Sender ω) :
    (Recording.returned (handed e destination) recorded).last (.shipped .received) = none := by
  rw [Envelope.last_eq_none_iff] at hnew ⊢
  intro s hs
  rcases List.mem_append.mp hs with hs | hs
  · rcases List.mem_append.mp hs with hs | hs
    · exact hnew s hs
    · obtain rfl := List.mem_singleton.mp hs
      rfl
  · have hid := (List.mem_filter.mp hs).2
    unfold Stamp.isInstance at hid ⊢
    simp only [decide_eq_true_eq, decide_eq_false_iff_not] at hid ⊢
    rw [hid]
    simp

/-- With the transport replaced, and no other destination handling the message at the dispatch, all
that is done is to hand it to each destination. -/
theorem hands_over [EquivBEq (Stamp ω)]
    (h : HandledHere f envelope name senders l routed returned)
    {itself : Envelope ω → Except (Exc ω) (Envelope ω)} {sender : Sender ω} {l' : SendersLocator ω}
    (hroutes : l'.routes = l.routes) (hsenders : l'.senders = l.senders.set name sender)
    {answered : Envelope ω} (hanswer : answer (goingOn envelope) (name, sender) = .ok answered)
    (hqueued : answered.last (.shipped .received) = none)
    (hothers : ∀ s ∈ routed, s.1 ≠ name → ∀ r, answer (goingOn envelope) s = .ok r →
      r.last (.shipped .received) = none) :
    (dispatch (dispatchAfterCurrentBus (fun _ => .ok ()) ::
      ((replaced f name sender).config.middleware ++
        defaultsOf (replaced f name sender) l' itself)) envelope []).calls =
      (routed.map (moved name sender)).map (sending (goingOn envelope)) := by
  obtain ⟨returned', ha'⟩ := answers_moved hanswer h.answers
  have hmem : (name, sender) ∈ routed.map (moved name sender) :=
    List.mem_map.mpr ⟨_, h.sync, if_pos rfl⟩
  have hnew : (goingOn envelope).last (.shipped .received) = none :=
    (last_withoutStamps_of_ne envelope (by decide)).trans h.new
  have hunreceived : ∀ s ∈ routed.map (moved name sender), ∀ r,
      answer (goingOn envelope) s = .ok r → r.last (.shipped .received) = none := by
    intro s hs r hr
    obtain ⟨destination, hd, rfl⟩ := List.mem_map.mp hs
    unfold moved at hr
    split_ifs at hr with hname
    · obtain rfl := Except.ok.inj (hanswer.symm.trans hr)
      exact hqueued
    · exact hothers destination hd hname r hr
  have hmerged := merged_unreceived hnew hunreceived ha'
  have hrun := dispatch_sent (replaced f name sender) itself h.middleware h.new
    (sendersFor_moved hroutes hsenders f.messages h.destinations) (List.ne_nil_of_mem hmem) ha'
  dsimp only at hrun
  rw [if_pos hmerged] at hrun
  rw [hrun]
  exact List.append_nil _

theorem handled_alike [EquivBEq (Stamp ω)]
    (h : HandledHere f envelope name senders l routed returned)
    {itself : Envelope ω → Except (Exc ω) (Envelope ω)} {collected : Envelope ω}
    (hmessage : collected.message = envelope.message) {worker : Worker} {world : World ω}
    (hsilent : worker.hasDispatcher = false) {dispatcher : List (Bus.Middleware ω)}
    (hdispatcher : dispatcher = dispatchAfterCurrentBus (fun _ => .ok ()) :: (f.config.middleware ++
      [handleMessage (RedispatchingHandlers.interface f.handlers (.ok itself))
        f.config.requireHandler]))
    (hworld : ∀ e, world.bus e = (dispatch dispatcher e []).result) :
    HandledAlike ((goingOn envelope).withStamps
        (returned.map fun r => addedBy r.stamps (goingOn envelope).stamps).flatten)
      (goingOn (worker.named collected))
      (dispatch (dispatchAfterCurrentBus (fun _ => .ok ()) ::
        (f.config.middleware ++ defaultsOf f l itself)) envelope [])
      (dispatch dispatcher (worker.named collected) []) worker world collected := by
  have hnamed : (worker.named collected).message = envelope.message := by
    rw [← hmessage]
    unfold Worker.named
    cases worker.receiverName with
    | none => rfl
    | some name =>
      dsimp only
      split_ifs <;> rfl
  have hhere := dispatch_sent f itself h.middleware h.new h.destinations
    (List.ne_nil_of_mem h.sync) h.answers
  have hreceived := received_added h.sync h.answers
  have hthere : dispatch dispatcher (worker.named collected) [] =
      handleMessage (RedispatchingHandlers.interface f.handlers (.ok itself))
        f.config.requireHandler (goingOn (worker.named collected)) pure := by
    rw [hdispatcher, dispatch_passed h.middleware]
    rfl
  obtain ⟨hran, halike⟩ := handleMessage_alike ((goingOn envelope).withStamps
      (returned.map fun r => addedBy r.stamps (goingOn envelope).stamps).flatten)
    (goingOn (worker.named collected)) (.ok itself) f.config.requireHandler
    hnamed.symm h.handlers
  dsimp only at hhere
  rw [if_neg hreceived] at hhere
  rw [hhere]
  constructor
  · rw [List.filterMap_append, ran_sending, List.nil_append, hran, hthere]
  · rw [hthere]
    exact halike
  · intro stamps hreturned
    refine settle_acks hsilent ?_
    rw [hworld, hthere]
    exact halike.returned_of hreturned
  · intro error details hraised hdetails
    obtain ⟨error', herror', hsame⟩ := halike.errorDetailsOf hraised
    refine settle_rejects hsilent ?_ (hsame.trans hdetails)
    rw [hworld, hthere, herror']

end Sides

/-- The bus with a queue in place of `sync://` hands the message over, and does nothing else unless
another destination handles it at the dispatch; a worker that collects it comes out as the bus with
`sync://` does. -/
theorem moves_onto_queue [EquivBEq (Stamp ω)] {f : MessageBusFactory ω} {envelope : Envelope ω}
    {name : String} {senders : Dict String (Sender ω)} {l : SendersLocator ω}
    {routed : List (String × Sender ω)} {returned : List (Envelope ω)}
    (h : HandledHere f envelope name senders l routed returned)
    (itself : Envelope ω → Except (Exc ω) (Envelope ω))
    {recode : Option (Envelope ω → Except (Exc ω) (Envelope ω))} {messageId : String}
    {recorded : Envelope ω}
    (hrecorded : Recording.stamped recode messageId
      (handed (goingOn envelope) (name, queue recode messageId)) = .ok recorded)
    (hmessage : recorded.message = envelope.message) :
    ∃ bus bus' dispatcher, f.bus (fun _ => .ok ()) itself = .ok bus ∧
      (replaced f name (queue recode messageId)).bus (fun _ => .ok ()) itself = .ok bus' ∧
      (consuming f).dispatcher (fun _ => .ok ()) (.ok itself) = .ok dispatcher ∧
      (∃ answer, .send name (handed (goingOn envelope) (name, queue recode messageId))
        (.ok answer) ∈ (dispatch bus' envelope []).calls) ∧
      ((∀ s ∈ routed, s.1 ≠ name → ∀ r, answer (goingOn envelope) s = .ok r →
          r.last (.shipped .received) = none) →
        (dispatch bus' envelope []).calls = (routed.map (moved name (queue recode messageId))).map
          (sending (goingOn envelope))) ∧
      ∃ added, ∀ (worker : Worker) (world : World ω), worker.hasDispatcher = false →
        (∀ e, world.bus e = (dispatch dispatcher e []).result) → ∀ id receipt,
          let collected := Recording.collected ⟨id, recorded⟩ receipt
          HandledAlike ((goingOn envelope).withStamps added) (goingOn (worker.named collected))
            (dispatch bus envelope []) (dispatch dispatcher (worker.named collected) []) worker
            world collected := by
  obtain ⟨l', hl', hroutes, hsenders'⟩ := create_moved h.locator name (queue recode messageId)
  have hbuilt' : (replaced f name (queue recode messageId)).senders =
      .ok (senders.set name (queue recode messageId)) := by
    rw [replaced, h.built]
    rfl
  have hanswer : answer (goingOn envelope) (name, queue recode messageId) =
      .ok (Recording.returned (handed (goingOn envelope) (name, queue recode messageId))
        recorded) := by
    refine (Recording.send_eq recode messageId _).trans ?_
    rw [hrecorded]
    rfl
  have hdispatcher : (consuming f).dispatcher (fun _ => .ok ()) (.ok itself) =
      .ok (dispatchAfterCurrentBus (fun _ => .ok ()) :: (f.config.middleware ++
        [handleMessage (RedispatchingHandlers.interface f.handlers (.ok itself))
          f.config.requireHandler])) := by
    unfold Bus.WorkerFactory.dispatcher MessageBusConfig.chain
    rw [consuming, h.defaults]
    rfl
  refine ⟨_, _, _, bus_built h.defaults h.built h.locator, bus_built h.defaults hbuilt' hl',
    hdispatcher, ⟨_, sends_moved h hroutes hsenders' hanswer⟩,
    hands_over h hroutes hsenders' hanswer (returned_unreceived
      ((last_withoutStamps_of_ne envelope (by decide)).trans h.new) _),
    (returned.map fun r => addedBy r.stamps (goingOn envelope).stamps).flatten, ?_⟩
  intro worker world hsilent hworld id receipt
  have hcollected : (Recording.collected ⟨id, recorded⟩ receipt).message = envelope.message :=
    hmessage
  exact handled_alike h hcollected hsilent rfl hworld

end Moving

section Samples
attribute [local instance] Unicode.ascii

/-- Reports go to one transport, `sync://`, and have one handler. -/
def reportFactory : MessageBusFactory Sample where
  config := { routing := (Dict.empty : Dict RouteKey Route).set wildcard (.one "reports") }
  senders := .ok ((Dict.empty : Dict String (Sender Sample)).set "reports" sync)
  messages := .empty
  handlers := ⟨(Dict.empty : Dict PyType (List (HandlerDescriptor Sample))).set
    ⟨2, "app.messages", "BuildReport"⟩ [⟨0, "build", false, fun _ _ => .ok .report⟩]⟩

/-- What an in-memory transport in its place records of one. -/
def recordedReport : Envelope Sample :=
  ⟨.report, [.shipped (.sent "InMemoryTransport" "reports"), .shipped (.transportMessageId "1")]⟩

theorem reportFactory_handlesHere : ∃ l returned, HandledHere reportFactory ⟨.report, []⟩ "reports"
    ((Dict.empty : Dict String (Sender Sample)).set "reports" sync) l [("reports", sync)]
    returned := by
  obtain ⟨l, hl⟩ : ∃ l, SendersLocator.create reportFactory.config.routing
      ((Dict.empty : Dict String (Sender Sample)).set "reports" sync) = .ok l := ⟨_, rfl⟩
  refine ⟨l, [⟨.report, [.shipped (.sent "SyncTransport" "reports"),
    .shipped (.received "reports")]⟩], ?_⟩
  refine ⟨rfl, by simp [reportFactory], rfl, hl, rfl, ?_, by simp, .cons rfl .nil, ?_⟩
  · obtain rfl := Except.ok.inj hl
    rfl
  · intro found hfound
    have hall : RedispatchingHandlers.handlersFor reportFactory.handlers
        (PyObject.typeOf Sample.report) =
          [.registered ⟨0, "build", false, fun _ _ => .ok .report⟩] := rfl
    obtain rfl := List.mem_singleton.mp (hall ▸ hfound)
    rfl

theorem moves_onto_queue_report : ∃ bus bus' dispatcher,
    reportFactory.bus (fun _ => .ok ()) .ok = .ok bus ∧
      (replaced reportFactory "reports" (queue none "1")).bus (fun _ => .ok ()) .ok = .ok bus' ∧
      (consuming reportFactory).dispatcher (fun _ => .ok ()) (.ok .ok) = .ok dispatcher ∧
      (dispatch bus ⟨.report, []⟩ []).calls.filterMap ran? =
        (dispatch dispatcher (Recording.collected ⟨0, recordedReport⟩ 1) []).calls.filterMap
          ran? ∧
      (dispatch bus' ⟨.report, []⟩ []).calls.filterMap ran? = [] := by
  obtain ⟨l, returned, hhere⟩ := reportFactory_handlesHere
  have hrecorded : Recording.stamped none "1" (handed (goingOn (⟨.report, []⟩ : Envelope Sample))
      ("reports", queue none "1")) = .ok recordedReport := rfl
  obtain ⟨bus, bus', dispatcher, hbus, hbus', hdispatcher, -, hhanded, added, hworker⟩ :=
    moves_onto_queue hhere .ok hrecorded rfl
  refine ⟨bus, bus', dispatcher, hbus, hbus', hdispatcher, ?_, ?_⟩
  · exact (hworker {} (sampleWorld dispatcher []) rfl (fun _ => rfl) 0 1).ran
  · rw [hhanded (by simp)]
    exact ran_sending _ _

end Samples
end XtrMessenger.Transport
