import XtrMessenger.Taskiq.Binding

/-! The library's worker and the task taskiq's worker runs make the same of a message. -/
namespace XtrMessenger.Taskiq
open Foundation
variable {ω : Type}

/-- An event about a message, as its listeners hear of it, but for `will_retry`. -/
inductive Announcement (ω : Type)
  | received (envelope : Envelope ω) (receiverName : String)
  | handled (envelope : Envelope ω) (receiverName : String)
  | failed (envelope : Envelope ω) (receiverName : String) (error : Exc ω)

def announcement? : Call ω → Option (Announcement ω)
  | .received envelope name _ => some (.received envelope name)
  | .handled envelope name _ => some (.handled envelope name)
  | .failed envelope name error _ _ => some (.failed envelope name error)
  | _ => none

/-- What the bus was called with. -/
def dispatched? : Call ω → Option (Envelope ω)
  | .dispatch envelope _ => some envelope
  | _ => none

def isReset : Call ω → Bool
  | .reset _ => true
  | _ => false

/-- The calls a task makes about its message. -/
def TaskCall.about? : TaskCall ω → Option (Call ω)
  | .about call => some call
  | .deadLetter _ _ _ => none

/-- Services are reset once, after everything else. -/
def ResetLast (calls : List (Call ω)) : Prop :=
  ∃ before raised, calls = before ++ [.reset raised] ∧ ∀ c ∈ before, isReset c = false

/-- A worker settling a message and a task consuming it agree. -/
structure Agree (worked : Traced (Call ω) (Exc ω) Unit) (tasked : Traced (TaskCall ω) (Exc ω) Unit)
    (resets : Bool) : Prop where
  announced : worked.calls.filterMap announcement? =
    (tasked.calls.filterMap TaskCall.about?).filterMap announcement?
  dispatched : worked.calls.filterMap dispatched? =
    (tasked.calls.filterMap TaskCall.about?).filterMap dispatched?
  reset : resets = true →
    ResetLast worked.calls ∧ ResetLast (tasked.calls.filterMap TaskCall.about?)
  acked : (∃ c ∈ worked.calls, c.isAck = true) ↔ tasked.result = .ok ()
  rejected : (∃ c ∈ worked.calls, c.isReject = true) ↔ ∃ e, tasked.result = .error e

/-- What the bus or a listener of the received or handled event raises about a message. -/
def raisedAbout (world : World ω) (heard : Bool) (name : String) (envelope : Envelope ω) :
    Option (Exc ω) :=
  let failure {α : Type} : Except (Exc ω) α → Option (Exc ω)
    | .ok _ => none
    | .error e => some e
  if heard then
    match world.listeners.received envelope name with
    | .error e => some e
    | .ok (_, false) => none
    | .ok (stamps, true) =>
      match world.bus (envelope.withStamps stamps) with
      | .error e => some e
      | .ok answer => failure (world.listeners.handled answer name)
  else failure (world.bus envelope)

/-- A worker beside the tasks of a binding, with the same collaborators. -/
def Binding.besideWorker (b : Binding ω) (receiverName : Option String) : Worker :=
  { receiverName, hasDispatcher := b.hasDispatcher, hasResetter := b.hasResetter }

/-- What is raised about the message, if anything, can be reported; else resetting raises
nothing. -/
def Binding.Tells (b : Binding ω) (world : World ω) (name : String) (envelope : Envelope ω) :
    Prop :=
  match raisedAbout world b.hasDispatcher name envelope with
  | some error => error.Reportable
  | none => b.hasResetter = true → world.reset = none

def raisedIn : XtrMessenger.Outcome ω → Option (Exc ω)
  | .failed _ error => some error
  | _ => none

/-- What `handle` comes to is told by what was raised about the message, and it neither
settles the message nor resets anything. -/
theorem handle_told (b : Binding ω) (world : World ω) (name : String) (envelope : Envelope ω) :
    ∃ outcome, (handle world.bus envelope name (b.dispatcher world)).result = .ok outcome ∧
      raisedIn outcome = raisedAbout world b.hasDispatcher name envelope ∧
      ∀ c ∈ (handle world.bus envelope name (b.dispatcher world)).calls,
        isReset c = false ∧ c.isAck = false ∧ c.isReject = false := by
  cases hd : b.hasDispatcher with
  | false =>
    have hnone : b.dispatcher world = none := by simp [Binding.dispatcher, hd]
    rw [hnone, handle_none]
    refine ⟨_, rfl, ?_, by simp [isReset, Call.isAck, Call.isReject]⟩
    cases hb : world.bus envelope <;> simp [raisedAbout, raisedIn, hb]
  | true =>
    have hsome : b.dispatcher world = some world.listeners := by simp [Binding.dispatcher, hd]
    rw [hsome, handle_some]
    rcases hr : world.listeners.received envelope name with error | ⟨stamps, _ | _⟩
    · exact ⟨_, rfl, by simp [raisedAbout, raisedIn, hr], by
        simp [isReset, Call.isAck, Call.isReject]⟩
    · exact ⟨_, rfl, by simp [raisedAbout, raisedIn, hr], by
        simp [isReset, Call.isAck, Call.isReject]⟩
    · rcases hb : world.bus (envelope.withStamps stamps) with error | answer
      · simp only [hb]
        exact ⟨_, rfl, by simp [raisedAbout, raisedIn, hr, hb], by
          simp [isReset, Call.isAck, Call.isReject]⟩
      · simp only [hb]
        refine ⟨_, rfl, ?_, by simp [isReset, Call.isAck, Call.isReject]⟩
        cases hh : world.listeners.handled answer name <;>
          simp [raisedAbout, raisedIn, hr, hb, hh]

section Tails
variable {b : Binding ω} {world : World ω} {name : String} {receiverName : Option String}
  {worked tasked : List (Call ω)}

/-- What a worker and a task call once a message was handled: they announce the same, and
neither dispatches nor resets. -/
structure Tails (worked tasked : List (Call ω)) : Prop where
  announced : worked.filterMap announcement? = tasked.filterMap announcement?
  worked : ∀ c ∈ worked, dispatched? c = none ∧ isReset c = false
  tasked : ∀ c ∈ tasked, dispatched? c = none ∧ isReset c = false

theorem resetting_besideWorker :
    (b.besideWorker receiverName).resetting world = b.resetting world := rfl

theorem resetting_calls :
    ∀ c ∈ (b.resetting world).calls, c.isAck = false ∧ c.isReject = false := by
  unfold Binding.resetting
  split_ifs <;> simp [Call.isAck, Call.isReject]

theorem resetLast_append {before : List (Call ω)} (h : ∀ c ∈ before, isReset c = false)
    (hr : b.hasResetter = true) : ResetLast (before ++ (b.resetting world).calls) :=
  ⟨before, world.reset, by simp [Binding.resetting, hr], h⟩

/-- All that a worker and a task may disagree in is whether the message was settled well. -/
theorem agree_iff_settled {made : List (Call ω)} {w : Traced (Call ω) (Exc ω) Unit}
    {t : Traced (TaskCall ω) (Exc ω) Unit} (hmade : ∀ c ∈ made, isReset c = false ∧
      c.isAck = false ∧ c.isReject = false) (ht : Tails worked tasked)
    (hw : w.calls = made ++ (worked ++ (b.resetting world).calls))
    (htask : t.calls.filterMap TaskCall.about? = made ++ (tasked ++ (b.resetting world).calls)) :
    Agree w t b.hasResetter ↔ ((∃ c ∈ worked, c.isAck = true) ↔ t.result = .ok ()) ∧
      ((∃ c ∈ worked, c.isReject = true) ↔ ∃ e, t.result = .error e) := by
  have hsettled : ∀ p : Call ω → Bool, (∀ c ∈ made, p c = false) →
      (∀ c ∈ (b.resetting world).calls, p c = false) →
      ((∃ c ∈ w.calls, p c = true) ↔ ∃ c ∈ worked, p c = true) := by
    intro p hmade hreset
    have hnone : ∀ {l : List (Call ω)}, (∀ c ∈ l, p c = false) → ¬∃ c ∈ l, p c = true := by
      intro l hl hsome
      obtain ⟨c, hc, hp⟩ := hsome
      rw [hl c hc] at hp
      exact Bool.false_ne_true hp
    have hsplit : ∀ l l' : List (Call ω), (∃ c ∈ l ++ l', p c = true) ↔
        (∃ c ∈ l, p c = true) ∨ ∃ c ∈ l', p c = true := by
      intro l l'
      simp only [List.mem_append, or_and_right, exists_or]
    rw [hw, hsplit, hsplit]
    simp only [hnone hmade, hnone hreset, false_or, or_false]
  have hack := hsettled Call.isAck (fun c hc => (hmade c hc).2.1) fun c hc =>
    (resetting_calls c hc).1
  have hreject := hsettled Call.isReject (fun c hc => (hmade c hc).2.2) fun c hc =>
    (resetting_calls c hc).2
  constructor
  · intro h
    exact ⟨hack.symm.trans h.acked, hreject.symm.trans h.rejected⟩
  · intro ⟨ha, hr⟩
    have hnone : ∀ {l : List (Call ω)}, (∀ c ∈ l, dispatched? c = none ∧ isReset c = false) →
        l.filterMap dispatched? = [] := fun h =>
      List.filterMap_eq_nil_iff.mpr fun c hc => (h c hc).1
    have hbefore : ∀ {l : List (Call ω)}, (∀ c ∈ l, dispatched? c = none ∧ isReset c = false) →
        ∀ c ∈ made ++ l, isReset c = false := fun h =>
      List.forall_mem_append.mpr ⟨fun c hc => (hmade c hc).1, fun c hc => (h c hc).2⟩
    constructor
    case announced =>
      rw [hw, htask]
      simp only [List.filterMap_append, ht.announced]
    case dispatched =>
      rw [hw, htask]
      simp only [List.filterMap_append, hnone ht.worked, hnone ht.tasked]
    case reset =>
      intro hres
      rw [hw, htask, ← List.append_assoc, ← List.append_assoc]
      constructor
      · exact resetLast_append (hbefore ht.worked) hres
      · exact resetLast_append (hbefore ht.tasked) hres
    case acked => exact hack.trans ha
    case rejected => exact hreject.trans hr

end Tails

section Agreement
variable {b : Binding ω} {world : World ω} {name : String} {receiverName : Option String}
  {envelope : Envelope ω}

/-- What a task makes of how handling came out. -/
def Binding.answering (b : Binding ω) (world : World ω) (name : String) :
    XtrMessenger.Outcome ω → Traced (Call ω) (Exc ω) Unit
  | .failed current error => do
    announceFailure current error name (b.dispatcher world) settledByRaising (b.willRetry current)
    Traced.lift (.error error)
  | _ => pure ()

theorem consume_of_handle {outcome : XtrMessenger.Outcome ω}
    (h : (handle world.bus envelope name (b.dispatcher world)).result = .ok outcome) :
    b.consume world name envelope =
      ⟨(handle world.bus envelope name (b.dispatcher world)).calls ++
        (b.answering world name outcome).calls, (b.answering world name outcome).result⟩ := by
  unfold Binding.consume
  rw [Traced.bind_of_ok _ h]
  cases outcome <;> rfl

theorem answering_failed_result (b : Binding ω) (world : World ω) (name : String)
    (current : Envelope ω) (error : Exc ω) :
    ∃ e, (b.answering world name (.failed current error)).result = .error e := by
  simp only [Binding.answering]
  rcases h : (announceFailure current error name (b.dispatcher world) Binding.settledByRaising
    (b.willRetry current)).result with e | u
  · rw [Traced.bind_of_error _ h]
    exact ⟨e, rfl⟩
  · rw [Traced.bind_of_ok _ h]
    exact ⟨error, rfl⟩

/-- A failure that can be reported is told alike on both sides, and the worker rejects. -/
theorem failed_tails (b : Binding ω) (world : World ω) (name : String)
    (receiverName : Option String) (current : Envelope ω) {error : Exc ω} {details : Stamp ω}
    (hd : errorDetailsOf error = .ok details) :
    let worked := ((b.besideWorker receiverName).settleOutcome world name
      (.failed current error)).calls
    Tails worked (b.answering world name (.failed current error)).calls ∧
      (∃ c ∈ worked, c.isReject = true) ∧ ∀ c ∈ worked, c.isAck = false := by
  have hlift : ∀ f : Stamp ω → Traced (Call ω) (Exc ω) Unit,
      (Traced.lift (errorDetailsOf error) >>= f) = f details := fun f => by
    rw [Traced.bind_of_ok f (by simpa using hd)]
    rfl
  have hcalls : ∀ x : Traced (Call ω) (Exc ω) Unit,
      (x >>= fun _ => (Traced.lift (.error error) : Traced (Call ω) (Exc ω) Unit)).calls =
        x.calls := by
    intro x
    rcases hx : x.result with e | u
    · rw [Traced.bind_of_error _ hx]
    · rw [Traced.bind_of_ok _ hx]
      simp
  have hdispatcher : (b.besideWorker receiverName).dispatcher world = b.dispatcher world := rfl
  simp only [Worker.settleOutcome, Binding.answering, hcalls, announceFailure, hlift, hdispatcher]
  cases b.dispatcher world with
  | none =>
    constructor
    · exact ⟨rfl, by simp [dispatched?, isReset], by simp [Binding.settledByRaising]⟩
    · exact ⟨⟨_, List.mem_singleton_self _, rfl⟩, by simp [Call.isAck]⟩
  | some listeners =>
    constructor
    · exact ⟨rfl, by simp [dispatched?, isReset],
        by simp [Binding.settledByRaising, dispatched?, isReset]⟩
    · exact ⟨⟨_, List.mem_cons_of_mem _ (List.mem_singleton_self _), rfl⟩, by simp [Call.isAck]⟩

/-- A failure that cannot be reported is told on neither side, and nothing settles it. -/
theorem unreportable_calls (b : Binding ω) (world : World ω) (name : String)
    (receiverName : Option String) (current : Envelope ω) {error raised : Exc ω}
    (hd : errorDetailsOf error = .error raised) :
    ((b.besideWorker receiverName).settleOutcome world name (.failed current error)).calls = [] ∧
      (b.answering world name (.failed current error)).calls = [] := by
  refine ⟨settleOutcome_unreportable_calls _ world name current hd, ?_⟩
  have herror : announceFailure current error name (b.dispatcher world) Binding.settledByRaising
      (b.willRetry current) = ⟨[], .error raised⟩ := by
    unfold announceFailure
    rw [Traced.bind_of_error _ (by simpa using hd)]
    rfl
  simp only [Binding.answering]
  rw [Traced.bind_of_error (e := raised) _ (by rw [herror]), herror]

theorem resetting_result_ok_iff :
    (b.resetting world).result = .ok () ↔ (b.hasResetter = true → world.reset = none) := by
  unfold Binding.resetting
  cases b.hasResetter
  · simp
  · cases h : world.reset <;> simp [raising]

theorem settled_calls {outcome : XtrMessenger.Outcome ω}
    (hname : receiverNameOf envelope receiverName = name)
    (hnamed : (b.besideWorker receiverName).named envelope = envelope)
    (h : (handle world.bus envelope name (b.dispatcher world)).result = .ok outcome) :
    ((b.besideWorker receiverName).settle world envelope).calls =
      (handle world.bus envelope name (b.dispatcher world)).calls ++
        (((b.besideWorker receiverName).settleOutcome world name outcome).calls ++
          (b.resetting world).calls) := by
  have hname' : receiverNameOf envelope (b.besideWorker receiverName).receiverName = name := hname
  have hd : (b.besideWorker receiverName).dispatcher world = b.dispatcher world := rfl
  simp only [Worker.settle, Traced.finallyDo_calls, hname', hnamed, hd, Traced.bind_of_ok _ h,
    List.append_assoc, resetting_besideWorker]

theorem about?_map (calls : List (Call ω)) :
    (calls.map TaskCall.about).filterMap TaskCall.about? = calls := by
  simp [List.filterMap_map, Function.comp_def, TaskCall.about?]

theorem body_ok {outcome : XtrMessenger.Outcome ω} (message : Message)
    (h : (handle world.bus envelope name (b.dispatcher world)).result = .ok outcome) :
    let t := b.body world name message (.ok envelope)
    t.calls.filterMap TaskCall.about? =
        (handle world.bus envelope name (b.dispatcher world)).calls ++
          ((b.answering world name outcome).calls ++ (b.resetting world).calls) ∧
      t.result = match (b.resetting world).result with
        | .ok _ => (b.answering world name outcome).result
        | .error e => .error e := by
  constructor
  · simp only [Binding.body, consume_of_handle h, Traced.finallyDo_calls, Traced.mapCalls_calls,
      ← List.map_append, about?_map, List.append_assoc]
  · simp only [Binding.body, consume_of_handle h, Traced.finallyDo, Traced.mapCalls_result]
    cases (b.resetting world).result <;> rfl

/-- The task returns exactly where answering and resetting do, and raises otherwise. -/
theorem body_ends {outcome : XtrMessenger.Outcome ω} (message : Message)
    (h : (handle world.bus envelope name (b.dispatcher world)).result = .ok outcome) :
    let t := b.body world name message (.ok envelope)
    (t.result = .ok () ↔
        (b.answering world name outcome).result = .ok () ∧ (b.resetting world).result = .ok ()) ∧
      ((∃ e, t.result = .error e) ↔ ¬t.result = .ok ()) := by
  obtain ⟨-, hresult⟩ := body_ok message h
  dsimp only
  rw [hresult]
  rcases (b.resetting world).result with e | u
  · simp
  · rcases (b.answering world name outcome).result with e | u <;> simp

end Agreement

theorem receiverNameOf_of_last {envelope : Envelope ω} {name : String}
    {receiverName : Option String}
    (hl : (envelope.last (.shipped .received)).bind Stamp.transportName? = some name)
    (hr : ∀ n ∈ receiverName, n = name) : receiverNameOf envelope receiverName = name := by
  cases receiverName with
  | none => simp [receiverNameOf, hl]
  | some n => exact hr n rfl

theorem named_of_last {b : Binding ω} {envelope : Envelope ω} {name : String}
    {receiverName : Option String}
    (hl : (envelope.last (.shipped .received)).bind Stamp.transportName? = some name)
    (hr : ∀ n ∈ receiverName, n = name) :
    (b.besideWorker receiverName).named envelope = envelope := by
  cases receiverName with
  | none => rfl
  | some n =>
    obtain rfl := hr n rfl
    exact if_pos hl

/-- The worker and the task agree on a message exactly when what was raised about it can be
reported, or, nothing raised, when resetting raises nothing. -/
theorem agree_iff_tells (b : Binding ω) (world : World ω) (message : Message) (name : String)
    (receiverName : Option String) (envelope : Envelope ω)
    (hl : (envelope.last (.shipped .received)).bind Stamp.transportName? = some name)
    (hr : ∀ n ∈ receiverName, n = name) :
    Agree ((b.besideWorker receiverName).settle world envelope)
      (b.body world name message (.ok envelope)) b.hasResetter ↔ b.Tells world name envelope := by
  obtain ⟨outcome, ho, hraised, hmade⟩ := handle_told b world name envelope
  have hw := settled_calls (receiverNameOf_of_last hl hr) (named_of_last hl hr) ho
  obtain ⟨ht, -⟩ := body_ok message ho
  have hend := body_ends message ho
  dsimp only at hend
  have hquiet : ∀ settled, outcome = .handled settled ∨ outcome = .skipped settled →
      (Agree ((b.besideWorker receiverName).settle world envelope)
        (b.body world name message (.ok envelope)) b.hasResetter ↔
          b.Tells world name envelope) := by
    intro settled hq
    have hcalls : ((b.besideWorker receiverName).settleOutcome world name outcome).calls =
        [.ack settled (world.ack settled)] := by rcases hq with rfl | rfl <;> rfl
    have hanswer : b.answering world name outcome = pure () := by rcases hq with rfl | rfl <;> rfl
    have hnone : raisedAbout world b.hasDispatcher name envelope = none := by
      rw [← hraised]
      rcases hq with rfl | rfl <;> rfl
    rw [hcalls] at hw
    rw [hanswer] at ht hend
    have htails : Tails [.ack settled (world.ack settled)]
        (pure () : Traced _ (Exc ω) Unit).calls :=
      ⟨rfl, by simp [dispatched?, isReset], by simp⟩
    rw [agree_iff_settled hmade htails hw ht, hend.2, hend.1, resetting_result_ok_iff]
    simp [Binding.Tells, hnone, Call.isAck, Call.isReject]
  cases outcome with
  | handled settled => exact hquiet settled (.inl rfl)
  | skipped settled => exact hquiet settled (.inr rfl)
  | failed current error =>
    have hsome : raisedAbout world b.hasDispatcher name envelope = some error := hraised.symm
    obtain ⟨e, he⟩ := answering_failed_result b world name current error
    have hfailed : ¬ (b.body world name message (.ok envelope)).result = .ok () := by
      rw [hend.1, he]
      simp
    have htells : b.Tells world name envelope ↔ error.Reportable := by simp [Binding.Tells, hsome]
    rw [htells, reportable_iff]
    rcases hd : errorDetailsOf error with raised | details
    · obtain ⟨hworked, hanswered⟩ := unreportable_calls b world name
        receiverName current hd
      rw [hworked] at hw
      rw [hanswered] at ht
      rw [agree_iff_settled hmade ⟨rfl, by simp, by simp⟩ hw ht, hend.2]
      simp [hfailed]
    · obtain ⟨htails, hreject, hack⟩ := failed_tails b world name receiverName
        current hd
      rw [agree_iff_settled hmade htails hw ht, hend.2]
      have hunacked : ¬∃ c ∈ ((b.besideWorker receiverName).settleOutcome world name
          (.failed current error)).calls, c.isAck = true := by
        intro hacked
        obtain ⟨c, hc, hac⟩ := hacked
        rw [hack c hc] at hac
        exact Bool.false_ne_true hac
      apply iff_of_true
      · exact ⟨iff_of_false hunacked hfailed, iff_of_true hreject hfailed⟩
      · exact ⟨details, rfl⟩

/-- A bus whose handler raises, between collaborators that do nothing. -/
def raisingWorld (error : Exc Unit) : World Unit where
  bus _ := .error error
  listeners := ⟨fun _ _ => .ok ([], true), fun _ _ => .ok [], fun _ _ _ _ => ([], none)⟩
  ack _ := none
  reject _ := none
  reset := none

/-- Tasks beside a worker with nothing but listeners, or without. -/
def plainBinding (hasDispatcher : Bool) : Binding Unit where
  serializer := .create ⟨fun _ _ => .error "", fun _ _ => .error ""⟩ none
  hasDispatcher := hasDispatcher

def receivedFrom (name : String) : Envelope Unit := ⟨(), [.shipped (.received name)]⟩

theorem agree_iff_tells_failed :
    Agree (((plainBinding true).besideWorker (some "async")).settle
        (raisingWorld (.exception "ValueError" "no")) (receivedFrom "async"))
      ((plainBinding true).body (raisingWorld (.exception "ValueError" "no")) "async" ⟨"", .empty⟩
        (.ok (receivedFrom "async"))) false :=
  (agree_iff_tells (plainBinding true) (raisingWorld (.exception "ValueError" "no")) ⟨"", .empty⟩
    "async" (some "async") (receivedFrom "async") rfl (by simp)).mpr ⟨"no", rfl⟩

/-- What cannot be put into words is raised to taskiq, but the worker leaves its message
neither acknowledged nor rejected. -/
theorem unreportable_failure_disagrees :
    ¬∀ (b : Binding Unit) (world : World Unit) (message : Message) (name : String)
      (receiverName : Option String) (envelope : Envelope Unit),
      (envelope.last (.shipped .received)).bind Stamp.transportName? = some name →
      (∀ n ∈ receiverName, n = name) →
      Agree ((b.besideWorker receiverName).settle world envelope)
        (b.body world name message (.ok envelope)) b.hasResetter := by
  intro h
  have hagree := h (plainBinding false)
    (raisingWorld (.unprintable "OrderError" (.exception "AttributeError" "reason"))) ⟨"", .empty⟩
    "async" none (receivedFrom "async") rfl (by simp)
  obtain ⟨c, hc, hreject⟩ := hagree.rejected.mpr ⟨_, rfl⟩
  have hcalls : c ∈ [Call.dispatch (receivedFrom "async")
      (.error (.unprintable "OrderError" (.exception "AttributeError" "reason")))] := hc
  obtain rfl := List.mem_singleton.mp hcalls
  simp [Call.isReject] at hreject

end XtrMessenger.Taskiq
