import XtrMessenger.Taskiq.Publishing
import XtrMessenger.Foundation.Machine
import XtrMessenger.Foundation.History

/-! The deliveries of a broker, as `PoisonMessageReceiver` screens them: handled by the task under
their name, or quarantined. -/
namespace XtrMessenger.Taskiq
open Foundation
variable {ω δ β : Type}

/-- A task of a broker: one of `bind_bus`, or one the application registered itself. -/
inductive Task (ω : Type)
  | bound (binding : Binding ω)
  | own

/-- `broker.formatter`: a task's name and its message, as the bytes `δ` and back; reading the bytes
leaves the labels to be parsed. -/
structure Formatter (ω δ : Type) where
  dumps : String → Message → δ
  loads : δ → Except (Exc ω) (String × Message)
  parseLabels : Message → Except (Exc ω) Message

/-- A delivery read whole. -/
def Formatter.read (f : Formatter ω δ) (data : δ) : Except (Exc ω) (String × Message) := do
  let (taskName, unparsed) ← f.loads data
  return (taskName, ← f.parseLabels unparsed)

/-- It reads what it wrote. -/
def Formatter.Reads (f : Formatter ω δ) : Prop :=
  ∀ taskName message, f.read (f.dumps taskName message) = .ok (taskName, message)

/-- A broker as taskiq has it: how it writes deliveries, and what it does with its tasks, which it
keeps as `β`. -/
structure Broker (ω δ β : Type) where
  formatter : Formatter ω δ
  registerTask : β → Task ω → String → β
  findTask : β → String → Option (Task ω)

/-- What taskiq says of `fresh`, a broker's tasks before any is registered, and of those after. -/
structure Broker.Finds (broker : Broker ω δ β) (fresh : β) : Prop where
  fresh : ∀ name, broker.findTask fresh name = none
  registered : ∀ tasks task name,
    broker.findTask (broker.registerTask tasks task name) name = some task
  others : ∀ tasks task name other, other ≠ name →
    broker.findTask (broker.registerTask tasks task name) other = broker.findTask tasks other

/-- A delivery: its bytes, and for one that can be acknowledged what acknowledging it raises. -/
structure Delivered (ω δ : Type) where
  data : δ
  ack : Option (Option (Exc ω)) := none

/-- A call a receiver makes. -/
inductive ReceiverCall (ω δ : Type)
  /-- The loop's own handling of the delivery, as `super().callback` goes about it. -/
  | callback (data : δ)
  | warning (text : String)
  | deadLetter (data : δ) (reason : String) (raised : Option (Exc ω))
  | ack (raised : Option (Exc ω))

/-- What acknowledging it does, if it can be. -/
def Delivered.acknowledge (delivery : Delivered ω δ) : Traced (ReceiverCall ω δ) (Exc ω) Unit :=
  match delivery.ack with
  | none => pure ()
  | some raised => Traced.call (.ack raised) (raising raised)

/-- `deadLetter` answers with what quarantining raised. -/
structure PoisonMessageReceiver (ω δ : Type) where
  deadLetter : Option (δ → String → Option (Exc ω)) := none

namespace PoisonMessageReceiver

/-- `_poison_reason`: why a delivery can never be handled. -/
def poisonReason [Unicode] (broker : Broker ω δ β) (tasks : β) (data : δ) : Option String :=
  match broker.formatter.read data with
  | .error error => some ("the delivery could not be parsed (" ++ error.typeName ++ ")")
  | .ok (taskName, _) =>
    if broker.findTask tasks taskName = none then
      some ("no task is registered under " ++ pyRepr taskName)
    else none

def quarantine (receiver : PoisonMessageReceiver ω δ) (data : δ) (reason : String) :
    Traced (ReceiverCall ω δ) (Exc ω) Unit :=
  match receiver.deadLetter with
  | none => pure ()
  | some deadLetter =>
    let raised := deadLetter data reason
    Traced.call (.deadLetter data reason raised) (raising raised)

/-- `callback`; `handling` is how the loop's own handling ends. -/
def callback [Unicode] (receiver : PoisonMessageReceiver ω δ) (broker : Broker ω δ β) (tasks : β)
    (delivery : Delivered ω δ) (handling : Except (Exc ω) Unit) :
    Traced (ReceiverCall ω δ) (Exc ω) Unit :=
  match poisonReason broker tasks delivery.data with
  | none => Traced.call (.callback delivery.data) handling
  | some reason => do
    Traced.call (.warning ("dead-lettering a poison delivery: " ++ reason)) (.ok ())
    receiver.quarantine delivery.data reason
    delivery.acknowledge

end PoisonMessageReceiver

/-- An envelope on its way to the broker: `messages` is what was declared as it was encoded. -/
structure Departing (ω : Type) where
  sender : TaskiqSender ω
  envelope : Envelope ω
  messages : MessageRegistry

/-- What was published of one. -/
structure Published (ω : Type) extends Departing ω where
  taskName : String
  message : Message

/-- What the publishing of one came to. -/
def Departing.published? (departing : Departing ω) : PublishCall ω → Option (Published ω)
  | .kiq taskName message (.ok _) => some { departing with taskName, message }
  | _ => none

inductive Entry (ω δ : Type)
  | registered (name : String) (task : Task ω)
  | published (published : Published ω)
  | delivered (delivery : Delivered ω δ) (calls : List (ReceiverCall ω δ))

/-- What an entry registers under a name. -/
def Entry.registeredAs (name : String) : Entry ω δ → Option (Task ω)
  | .registered taken task => if taken = name then some task else none
  | _ => none

namespace Receiving

/-- A process that publishes, a broker, and a process that consumes. -/
structure State (ω δ β : Type) where
  producer : MessageRegistry := .empty
  departing : List (Departing ω) := []
  worker : Declared := ⟨.empty, .empty⟩
  tasks : β
  history : List (Entry ω δ) := []

/-- What may happen next, from one `await` to the next. -/
inductive Action (ω δ : Type)
  | declares (messageType : PyType) (name : Option String) (transports : List String)
  /-- A `send`, up to where the broker's connection is opened. -/
  | sends (sender : TaskiqSender ω) (envelope : Envelope ω)
  /-- The rest of it. -/
  | publishes (place : Nat) (publisher : Publisher ω)
  | workerDeclares (messageType : PyType) (name : Option String) (transports : List String)
  | workerDeclaresStamp (stampType : StampClass)
  | binds (binding : Binding ω)
  | registers (name : String)
  /-- The broker delivers anything, and as often as it likes. -/
  | delivers (receiver : PoisonMessageReceiver ω δ) (delivery : Delivered ω δ)
      (handling : Except (Exc ω) Unit)

def State.register (s : State ω δ β) (broker : Broker ω δ β) (task : Task ω) (name : String) :
    State ω δ β :=
  { s with
    tasks := broker.registerTask s.tasks task name
    history := s.history ++ [.registered name task] }

def State.publish (s : State ω δ β) (published : Published ω) : State ω δ β :=
  { s with history := s.history ++ [.published published] }

section Reaching
variable [Unicode] [PyObject ω]

/-- What a `register_message` or a `register_stamp` leaves declared. -/
def kept {ρ : Type} (before : ρ) (declared : Except (Exc ω) ρ) : ρ :=
  match declared with
  | .ok after => after
  | .error _ => before

def step (broker : Broker ω δ β) (s : State ω δ β) : Action ω δ → Option (State ω δ β)
  | .declares messageType name transports =>
    let declared : Except (Exc ω) MessageRegistry := s.producer.register messageType name transports
    some { s with producer := kept s.producer declared }
  | .sends sender envelope =>
    some { s with departing := s.departing ++ [⟨sender, envelope, s.producer⟩] }
  | .publishes place publisher => do
    let departing ← s.departing[place]?
    let sent := departing.sender.send departing.messages s.producer publisher departing.envelope
    return (sent.calls.filterMap departing.published?).foldl State.publish
      { s with departing := s.departing.eraseIdx place }
  | .workerDeclares messageType name transports =>
    let messages := s.worker.messages
    let declared : Except (Exc ω) MessageRegistry := messages.register messageType name transports
    some { s with worker := { s.worker with messages := kept messages declared } }
  | .workerDeclaresStamp stampType =>
    let declared : Except (Exc ω) StampRegistry := s.worker.stamps.register stampType
    some { s with worker := { s.worker with stamps := kept s.worker.stamps declared } }
  | .binds binding =>
    some ((boundNames s.worker.messages).foldl
      (fun s name => s.register broker (.bound binding) name) s)
  | .registers name => some (s.register broker .own name)
  | .delivers receiver delivery handling =>
    let run := receiver.callback broker s.tasks delivery handling
    some { s with history := s.history ++ [.delivered delivery run.calls] }

def machine (broker : Broker ω δ β) (fresh : β) : Machine (State ω δ β) (Action ω δ) where
  init s := s = { tasks := fresh }
  step := step broker

/-- Nothing registered so far could handle the delivery. -/
def Poison (formatter : Formatter ω δ) (history : List (Entry ω δ)) (data : δ) : Prop :=
  ∀ taskName message, formatter.read data = .ok (taskName, message) →
    ∀ task, .registered taskName task ∉ history

/-- How a delivery is gone about, given the history before it. -/
structure Screened (formatter : Formatter ω δ) (history : List (Entry ω δ))
    (delivery : Delivered ω δ) (calls : List (ReceiverCall ω δ)) : Prop where
  handled : ¬Poison formatter history delivery.data → calls = [.callback delivery.data]
  unhandled : Poison formatter history delivery.data → ∀ data, .callback data ∉ calls
  /-- What could not be quarantined is left with the broker. -/
  left : ∀ data reason error, .deadLetter data reason (some error) ∈ calls →
    ∀ raised, .ack raised ∉ calls

/-- What a published message is to the process that consumes it: written under a name its class is
found by, and restored by what the task reads it with. -/
structure Carried (worker : Declared) (binding : Binding ω) (published : Published ω) : Prop where
  serializer : binding.serializer = published.sender.serializer
  restores : binding.serializer.Restores worker.stamps published.envelope
  named : published.messages.nameOf (PyObject.typeOf published.envelope.message) ≠ ""
  found : worker.messages.typeByName.get?
    (published.messages.nameOf (PyObject.typeOf published.envelope.message)) =
      some (PyObject.typeOf published.envelope.message)

/-- What the task under a name rebuilds of a published message: the envelope, while the name is
its class's. -/
def rebuilt (worker : Declared) (binding : Binding ω) (published : Published ω) :
    Except (Exc ω) (Envelope ω) :=
  let envelope := published.envelope
  let decoded := worker.messages.nameOf (PyObject.typeOf envelope.message)
  if decoded = published.taskName then
    .ok ⟨envelope.message,
      regrouped Stamp.cls (binding.serializer.restorable worker.stamps envelope) ++
        [.shipped (.received (binding.receiverName published.message.labels)),
          .shipped (.redelivery 0)]⟩
  else .error (Exc.messageDecodingFailedError ("decoded message is " ++ pyRepr decoded ++
    ", but the task is " ++ pyRepr published.taskName) (some published.taskName))

structure Received [Numerals] (broker : Broker ω δ β) (s : State ω δ β) : Prop where
  screened : Justified (fun before entry => ∀ delivery calls, entry = .delivered delivery calls →
    Screened broker.formatter before delivery calls) s.history
  /-- What is written under a name registered by then is never quarantined. -/
  spared : Justified (fun before entry => ∀ delivery calls, entry = .delivered delivery calls →
    ∀ taskName message task, delivery.data = broker.formatter.dumps taskName message →
      .registered taskName task ∈ before → calls = [.callback delivery.data]) s.history
  /-- Whatever was registered before. -/
  binds : ∀ binding t, step broker s (.binds binding) = some t → ∀ messageType name,
    s.worker.messages.nameByType.get? messageType = some name →
      broker.findTask t.tasks name = some (.bound binding)
  rebuilt : ∀ p binding, .published p ∈ s.history →
    broker.findTask s.tasks p.taskName = some (.bound binding) → Carried s.worker binding p →
      ∀ world, binding.taskFor s.worker p.taskName world p.message =
        binding.body world (binding.receiverName p.message.labels) p.message
          (rebuilt s.worker binding p)

section Screening
variable {broker : Broker ω δ β} {tasks : β} {history : List (Entry ω δ)}

omit [PyObject ω] in
theorem poisonReason_eq_none_iff
    (known : ∀ name, broker.findTask tasks name = none ↔ ∀ task, .registered name task ∉ history)
    (data : δ) : PoisonMessageReceiver.poisonReason broker tasks data = none ↔
      ¬Poison broker.formatter history data := by
  unfold PoisonMessageReceiver.poisonReason Poison
  cases hread : broker.formatter.read data with
  | error error => simp
  | ok read =>
    obtain ⟨taskName, message⟩ := read
    have hknown := known taskName
    simp only [Except.ok.injEq, Prod.mk.injEq, ite_eq_right_iff, reduceCtorEq, imp_false]
    constructor
    · intro hsome hnone
      exact hsome (hknown.mpr (hnone taskName message ⟨rfl, rfl⟩))
    · intro hpoison hnone
      refine hpoison fun name message' hname => ?_
      exact hname.1 ▸ hknown.mp hnone

omit [Unicode] [PyObject ω] in
theorem mem_quarantine {receiver : PoisonMessageReceiver ω δ} {data : δ} {reason : String}
    {c : ReceiverCall ω δ} (h : c ∈ (receiver.quarantine data reason).calls) :
    ∃ raised, c = .deadLetter data reason raised ∧
      (receiver.quarantine data reason).result = raising raised := by
  unfold PoisonMessageReceiver.quarantine at h ⊢
  cases hd : receiver.deadLetter with
  | none => simp [hd] at h
  | some deadLetter =>
    simp only [hd, Traced.call_calls, List.mem_singleton] at h
    exact ⟨_, h, rfl⟩

omit [Unicode] [PyObject ω] in
theorem mem_acknowledge {delivery : Delivered ω δ} {c : ReceiverCall ω δ}
    (h : c ∈ delivery.acknowledge.calls) : ∃ raised, c = .ack raised := by
  unfold Delivered.acknowledge at h
  cases hack : delivery.ack with
  | none => simp [hack] at h
  | some raised =>
    simp only [hack, Traced.call_calls, List.mem_singleton] at h
    exact ⟨raised, h⟩

omit [PyObject ω] in
theorem screened_callback
    (known : ∀ name, broker.findTask tasks name = none ↔ ∀ task, .registered name task ∉ history)
    (receiver : PoisonMessageReceiver ω δ) (delivery : Delivered ω δ)
    (handling : Except (Exc ω) Unit) :
    Screened broker.formatter history delivery
      (receiver.callback broker tasks delivery handling).calls := by
  have hreason : PoisonMessageReceiver.poisonReason broker tasks delivery.data = none ↔
      ¬Poison broker.formatter history delivery.data := poisonReason_eq_none_iff known delivery.data
  unfold PoisonMessageReceiver.callback
  cases hr : PoisonMessageReceiver.poisonReason broker tasks delivery.data with
  | none =>
    have hfine := hreason.mp hr
    exact ⟨fun _ => rfl, fun hpoison => absurd hpoison hfine, by simp⟩
  | some reason =>
    have hpoison : Poison broker.formatter history delivery.data := by
      by_contra hfine
      rw [hreason.mpr hfine] at hr
      cases hr
    refine ⟨fun hfine => absurd hpoison hfine, fun _ data h => ?_, fun data why error h => ?_⟩
    · rcases Traced.mem_bind_iff.mp h with h | ⟨-, -, h⟩
      · simp at h
      rcases Traced.mem_bind_iff.mp h with h | ⟨-, -, h⟩
      · obtain ⟨raised, hc, -⟩ := mem_quarantine h
        cases hc
      · obtain ⟨raised, hc⟩ := mem_acknowledge h
        cases hc
    · rcases Traced.mem_bind_iff.mp h with h | ⟨-, -, h⟩
      · simp at h
      rcases Traced.mem_bind_iff.mp h with h | ⟨-, -, h⟩
      · obtain ⟨raised, hc, hresult⟩ := mem_quarantine h
        obtain rfl : raised = some error := by
          cases hc
          rfl
        -- the quarantine raised, so nothing after it happens
        intro acked ha
        rcases Traced.mem_bind_iff.mp ha with ha | ⟨-, -, ha⟩
        · simp at ha
        rw [Traced.bind_of_error _ hresult] at ha
        obtain ⟨raised, hc, -⟩ := mem_quarantine ha
        cases hc
      · obtain ⟨raised, hc⟩ := mem_acknowledge h
        cases hc

end Screening

section Registering
variable {broker : Broker ω δ β} {tasks : β} {history : List (Entry ω δ)}

/-- The task found under a name is the last registered. -/
def Latest (broker : Broker ω δ β) (tasks : β) (history : List (Entry ω δ)) : Prop :=
  ∀ name, broker.findTask tasks name = (history.filterMap (Entry.registeredAs name)).getLast?

omit [Unicode] [PyObject ω]

theorem registeredAs_eq_some_iff {name : String} {entry : Entry ω δ} {task : Task ω} :
    entry.registeredAs name = some task ↔ entry = .registered name task := by
  cases entry with
  | registered registered task' =>
    simp only [Entry.registeredAs, Option.ite_none_right_eq_some, Option.some.injEq,
      Entry.registered.injEq]
  | published published => simp [Entry.registeredAs]
  | delivered delivery calls => simp [Entry.registeredAs]

theorem Latest.known (h : Latest broker tasks history) (name : String) :
    broker.findTask tasks name = none ↔ ∀ task, .registered name task ∉ history := by
  rw [h name, List.getLast?_eq_none_iff, List.filterMap_eq_nil_iff]
  constructor
  · intro hnone task hmem
    have hunregistered := hnone _ hmem
    simp [Entry.registeredAs] at hunregistered
  · intro hnone entry hmem
    rw [Option.eq_none_iff_forall_not_mem]
    intro task htask
    exact hnone task (registeredAs_eq_some_iff.mp htask ▸ hmem)

theorem Latest.register (h : Latest broker tasks history) {fresh : β} (hf : broker.Finds fresh)
    (name : String) (task : Task ω) :
    Latest broker (broker.registerTask tasks task name) (history ++ [.registered name task]) := by
  intro asked
  rw [filterMap_concat]
  by_cases hname : asked = name
  · rw [hname, hf.registered]
    simp [Entry.registeredAs]
  · rw [hf.others _ _ _ _ hname, h asked]
    have hother : (Entry.registered name task : Entry ω δ).registeredAs asked = none :=
      if_neg (Ne.symm hname)
    simp [hother]

theorem Latest.concat (h : Latest broker tasks history) {entry : Entry ω δ}
    (hentry : ∀ name, entry.registeredAs name = none) :
    Latest broker tasks (history ++ [entry]) := by
  intro asked
  rw [filterMap_concat, hentry asked, h asked]
  simp

end Registering

section Runs
variable {broker : Broker ω δ β} {fresh : β} {s t : State ω δ β}

/-- What a message was published of, its task reads. -/
def Sent (p : Published ω) : Prop :=
  ∃ headers, p.sender.serializer.encode p.messages p.envelope = .ok ⟨p.message.body, headers⟩ ∧
    TaskiqSender.Told p.message.labels headers

/-- What a step keeps. -/
structure Inv (broker : Broker ω δ β) (s : State ω δ β) : Prop where
  latest : Latest broker s.tasks s.history
  sent : ∀ p, .published p ∈ s.history → Sent p
  screened : Justified (fun before entry => ∀ delivery calls, entry = .delivered delivery calls →
    Screened broker.formatter before delivery calls) s.history

theorem Inv.register (h : Inv broker s) (hf : broker.Finds fresh) (task : Task ω) (name : String) :
    Inv broker (s.register broker task name) := by
  refine ⟨h.latest.register hf name task, fun p hp => ?_, ?_⟩
  · rcases List.mem_append.mp hp with hp | hp
    · exact h.sent p hp
    · simp at hp
  · exact justified_concat.mpr ⟨h.screened, by simp⟩

theorem Inv.publish (h : Inv broker s) {published : Published ω} (hsent : Sent published) :
    Inv broker (s.publish published) := by
  refine ⟨h.latest.concat fun _ => rfl, fun p hp => ?_, justified_concat.mpr ⟨h.screened, by simp⟩⟩
  rcases List.mem_append.mp hp with hp | hp
  · exact h.sent p hp
  · obtain rfl : p = published := by simpa using hp
    exact hsent

theorem Inv.deliver (h : Inv broker s) (receiver : PoisonMessageReceiver ω δ)
    (delivery : Delivered ω δ) (handling : Except (Exc ω) Unit) :
    Inv broker { s with history := s.history ++
      [.delivered delivery (receiver.callback broker s.tasks delivery handling).calls] } := by
  refine ⟨h.latest.concat fun _ => rfl, fun p hp => ?_, justified_concat.mpr ⟨h.screened, ?_⟩⟩
  · rcases List.mem_append.mp hp with hp | hp
    · exact h.sent p hp
    · simp at hp
  · rintro delivery' calls hentry
    cases hentry
    exact screened_callback h.latest.known receiver delivery handling

/-- What `send` publishes is what it encoded. -/
theorem sent_of_published {departing : Departing ω} {later : MessageRegistry}
    {publisher : Publisher ω} {published : Published ω}
    (h : published ∈ (departing.sender.send departing.messages later publisher
      departing.envelope).calls.filterMap departing.published?) : Sent published := by
  obtain ⟨call, hcall, hpublished⟩ := List.mem_filterMap.mp h
  cases call with
  | ensureStarted raised => simp [Departing.published?] at hpublished
  | kiq taskName message answer =>
    cases answer with
    | error error => simp [Departing.published?] at hpublished
    | ok taskId =>
      obtain rfl := Option.some.inj hpublished
      exact (TaskiqSender.send_published hcall).2

theorem Inv.step (h : Inv broker s) (hf : broker.Finds fresh) {a : Action ω δ}
    (hs : Receiving.step broker s a = some t) : Inv broker t := by
  cases a with
  | declares messageType name transports =>
    obtain rfl := Option.some.inj hs
    exact ⟨h.latest, h.sent, h.screened⟩
  | sends sender envelope =>
    obtain rfl := Option.some.inj hs
    exact ⟨h.latest, h.sent, h.screened⟩
  | publishes place publisher =>
    obtain ⟨departing, -, hs⟩ := Option.bind_eq_some_iff.mp hs
    obtain rfl := Option.some.inj hs
    have hstart : Inv broker { s with departing := s.departing.eraseIdx place } :=
      ⟨h.latest, h.sent, h.screened⟩
    exact List.foldlRecOn _ _ hstart fun u hu p hp => hu.publish (sent_of_published hp)
  | workerDeclares messageType name transports =>
    obtain rfl := Option.some.inj hs
    exact ⟨h.latest, h.sent, h.screened⟩
  | workerDeclaresStamp stampType =>
    obtain rfl := Option.some.inj hs
    exact ⟨h.latest, h.sent, h.screened⟩
  | binds binding =>
    obtain rfl := Option.some.inj hs
    exact List.foldlRecOn _ _ h fun u hu name _ => hu.register hf (.bound binding) name
  | registers name =>
    obtain rfl := Option.some.inj hs
    exact h.register hf .own name
  | delivers receiver delivery handling =>
    obtain rfl := Option.some.inj hs
    exact h.deliver receiver delivery handling

/-- What a published message is rebuilt as, wherever its name is found. -/
theorem rebuild_sent [Numerals] {p : Published ω} {worker : Declared} {binding : Binding ω}
    (h : Sent p) (hc : Carried worker binding p) :
    rebuild worker p.message.body p.message.labels p.taskName binding.serializer
      (binding.receiverName p.message.labels) = Receiving.rebuilt worker binding p := by
  obtain ⟨headers, hencoded, htold⟩ := h
  rw [← hc.serializer] at hencoded
  have hdecoded := JsonSerializer.decode_restorable hc.restores rfl hc.named hc.found hencoded
  have hattempt : attemptFrom p.message.labels = 0 := by
    simp [attemptFrom, retriesFrom, htold.retries]
  unfold rebuild Receiving.rebuilt
  rw [htold.headers, headersFrom_dumps]
  simp only [bind, Except.bind, hdecoded, hattempt]
  by_cases hname : worker.messages.nameOf (PyObject.typeOf p.envelope.message) = p.taskName
  · simp [hname, pure, Except.pure, Envelope.withStamps]
  · simp [hname, throw, throwThe, MonadExceptOf.throw]

omit [Unicode] [PyObject ω] in
theorem findTask_register (hf : broker.Finds fresh) (task : Task ω) {name : String}
    (names : List String) (h : name ∈ names ∨ broker.findTask s.tasks name = some task) :
    broker.findTask (names.foldl (fun s name => s.register broker task name) s).tasks name =
      some task := by
  induction names generalizing s with
  | nil => exact h.resolve_left List.not_mem_nil
  | cons taken names ih =>
    refine ih ?_
    by_cases hname : name = taken
    · exact .inr (hname ▸ hf.registered s.tasks task taken)
    · have hother : broker.findTask (s.register broker task taken).tasks name =
          broker.findTask s.tasks name := hf.others s.tasks task taken name hname
      exact h.imp (List.mem_of_ne_of_mem hname) hother.trans

theorem receives [Numerals] (hreads : broker.formatter.Reads) (hf : broker.Finds fresh)
    (h : (machine broker fresh).Reachable s) : Received broker s := by
  have hinv : Inv broker s := by
    refine h.invariant (fun s hs => ?_) fun s a t _ hi _ hs => hi.step hf hs
    obtain rfl := hs
    exact ⟨hf.fresh, by simp, .nil⟩
  constructor
  · exact hinv.screened
  · refine hinv.screened.mono ?_
    intro before entry hscreened delivery calls hentry taskName message task hdata hregistered
    refine (hscreened delivery calls hentry).handled fun hpoison => ?_
    refine hpoison taskName message ?_ task hregistered
    rw [hdata, hreads]
  · intro binding t hs messageType name hname
    obtain rfl := Option.some.inj hs
    have hbound : name ∈ boundNames s.worker.messages :=
      List.mem_map_of_mem (f := Prod.snd) ((Dict.get?_eq_some_iff _).mp hname)
    exact findTask_register hf (.bound binding) _ (.inl hbound)
  · intro p binding hp _ hcarried world
    exact congrArg (binding.body world _ p.message) (rebuild_sent (hinv.sent p hp) hcarried)

end Runs
end Reaching

section Samples
attribute [local instance] Unicode.ascii Numerals.ascii

/-- A broker that delivers what it is given, and keeps its tasks in a dict. -/
def keeping : Broker Int (String × Message) (Dict String (Task Int)) where
  formatter := ⟨Prod.mk, .ok, .ok⟩
  registerTask tasks task name := tasks.set name task
  findTask := Dict.get?

theorem keeping_finds : keeping.Finds .empty := by
  constructor
  · exact fun _ => rfl
  · intro tasks task name
    exact (Dict.get?_set ..).trans (if_pos rfl)
  · intro tasks task name other hother
    exact (Dict.get?_set ..).trans (if_neg hother)

def numberTask : Binding Int := { serializer := .create JsonSerializer.sampleSerializer none }

def numberSender : TaskiqSender Int where
  serializer := .create JsonSerializer.sampleSerializer none

/-- A message is published and delivered, a bus bound and the message delivered again. -/
def deliveredTwice (message : Message) : List (Action Int (String × Message)) :=
  [.declares ⟨0, "builtins", "int"⟩ (some "test.number.v1") [],
    .sends numberSender JsonSerializer.sampleEnvelope, .publishes 0 samplePublisher,
    .workerDeclares ⟨0, "builtins", "int"⟩ (some "test.number.v1") [],
    .delivers {} ⟨("test.number.v1", message), some none⟩ (.ok ()), .binds numberTask,
    .delivers {} ⟨("test.number.v1", message), some none⟩ (.ok ())]

/-- What comes of it. -/
def sentTwice (message : Message) (messages : MessageRegistry) :
    List (Entry Int (String × Message)) :=
  [.published ⟨⟨numberSender, JsonSerializer.sampleEnvelope, messages⟩, "test.number.v1", message⟩,
    .delivered ⟨("test.number.v1", message), some none⟩ [.warning
      ("dead-lettering a poison delivery: no task is registered under 'test.number.v1'"),
      .ack none],
    .registered "test.number.v1" (.bound numberTask),
    .delivered ⟨("test.number.v1", message), some none⟩ [.callback ("test.number.v1", message)]]

theorem receives_deliveredTwice : ∃ message s,
    (machine keeping .empty).run { tasks := .empty } (deliveredTwice message) = some s ∧
      Received keeping s ∧ s.history = sentTwice message JsonSerializer.sampleMessages ∧
      ∀ world, numberTask.taskFor s.worker "test.number.v1" world message =
        numberTask.body world "taskiq" message (.ok ⟨5, [.shipped (.redelivery 1),
          .shipped (.redelivery 2), .shipped (.delay 250), .shipped (.received "taskiq"),
          .shipped (.redelivery 0)]⟩) := by
  obtain ⟨message, s, hrun, hhistory, hworker, hfound, hname⟩ : ∃ message s,
      (machine keeping .empty).run { tasks := .empty } (deliveredTwice message) = some s ∧
        s.history = sentTwice message JsonSerializer.sampleMessages ∧
        s.worker = ⟨JsonSerializer.sampleMessages, .empty⟩ ∧
        keeping.findTask s.tasks "test.number.v1" = some (.bound numberTask) ∧
        numberTask.receiverName message.labels = "taskiq" := ⟨_, _, rfl, rfl, rfl, rfl, rfl⟩
  have hstart : (machine keeping .empty).Reachable { tasks := .empty } := .start rfl
  have hreceived : Received keeping s :=
    receives (fun _ _ => rfl) keeping_finds (hstart.run _ hrun)
  refine ⟨message, s, hrun, hreceived, hhistory, fun world => ?_⟩
  have hpublished : .published ⟨⟨numberSender, JsonSerializer.sampleEnvelope,
      JsonSerializer.sampleMessages⟩, "test.number.v1", message⟩ ∈ s.history := by
    rw [hhistory]
    exact List.mem_cons_self
  refine (hreceived.rebuilt _ numberTask hpublished hfound ?_ world).trans ?_
  · have hnamed : JsonSerializer.sampleMessages.nameOf ⟨0, "builtins", "int"⟩ ≠ "" := by decide
    rw [hworker]
    exact ⟨rfl, sampleEnvelope_restored, hnamed, rfl⟩
  · rw [hworker, Receiving.rebuilt]
    simp only [hname]
    rfl

end Samples
end Receiving
end XtrMessenger.Taskiq
