import XtrMessenger.Serialization.RoundTrip
import XtrMessenger.Taskiq.Binding

/-! `TaskiqSender`: what it publishes, a task rebuilds. -/
namespace XtrMessenger.Taskiq
open Foundation
variable {ω : Type}

/-- What the broker answers: what opening its connection raised, and for a task published under a
name its id or what publishing raised. -/
structure Publisher (ω : Type) where
  started : Option (Exc ω)
  kiq : String → Message → Except (Exc ω) String

/-- A call a sender makes of its broker. -/
inductive PublishCall (ω : Type)
  | ensureStarted (raised : Option (Exc ω))
  | kiq (taskName : String) (message : Message) (answer : Except (Exc ω) String)

structure TaskiqSender (ω : Type) where
  serializer : JsonSerializer ω
  queue : Option String := none
  supportsDelay : Bool := true

namespace TaskiqSender

def labels [Unicode] (s : TaskiqSender ω) (envelope : Envelope ω) (headers : Dict String String) :
    Except (Exc ω) Labels :=
  let labels : Labels := Dict.update .empty
    [(retriesLabel, .int 0), (headersLabel, .text (Json.dumps headers.entries))]
  let labels := match s.queue with
    | none => labels
    | some queue => labels.set queueLabel (.text queue)
  match envelope.last (.shipped .delay) with
  | none => .ok labels
  | some delay =>
    if s.supportsDelay = false then
      .error (.exception "UnsupportedStampError"
        ("the " ++ pyRepr "amqp" ++ " transport cannot honour a " ++ delay.cls.name))
    else .ok (labels.set delayLabel (.seconds (delay.delayMs?.getD 0)))

/-- Messages may be declared while the connection opens: `messages` is what is declared as the
envelope is encoded, `later` as the task is named. -/
def send [Unicode] [PyObject ω] (s : TaskiqSender ω) (messages later : MessageRegistry)
    (broker : Publisher ω) (envelope : Envelope ω) :
    Traced (PublishCall ω) (Exc ω) (Envelope ω) := do
  let encoded ← Traced.lift (s.serializer.encode messages envelope)
  Traced.call (.ensureStarted broker.started) (raising broker.started)
  let taskName := later.nameOf (PyObject.typeOf envelope.message)
  let labels ← Traced.lift (s.labels envelope encoded.headers)
  let message : Message := ⟨encoded.body, labels⟩
  let taskId ← Traced.call (.kiq taskName message (broker.kiq taskName message))
    (broker.kiq taskName message)
  return envelope.withStamps [.shipped (.transportMessageId taskId)]

/-- The labels tell the headers, and that the delivery is the first. -/
structure Told (labels : Labels) (headers : Dict String String) : Prop where
  headers : labels.get? headersLabel = some (.text (Json.dumps headers.entries))
  retries : labels.get? retriesLabel = some (.int 0)

theorem Told.set {labels : Labels} {headers : Dict String String} (h : Told labels headers)
    {name : String} (hname : name ≠ headersLabel ∧ name ≠ retriesLabel) (label : Label) :
    Told (labels.set name label) headers := by
  constructor
  · rw [Dict.get?_set, if_neg hname.1.symm]
    exact h.headers
  · rw [Dict.get?_set, if_neg hname.2.symm]
    exact h.retries

theorem told_of_labels [Unicode] {s : TaskiqSender ω} {envelope : Envelope ω}
    {headers : Dict String String} {labels : Labels} (h : s.labels envelope headers = .ok labels) :
    Told labels headers := by
  have hstart : Told (Dict.update .empty
      [(retriesLabel, .int 0), (headersLabel, .text (Json.dumps headers.entries))]) headers :=
    ⟨rfl, rfl⟩
  have hpinned : ∀ {started : Labels}, Told started headers → Told (match s.queue with
      | none => started
      | some queue => started.set queueLabel (.text queue)) headers := by
    intro started h
    cases s.queue with
    | none => exact h
    | some queue => exact h.set (by decide) _
  unfold TaskiqSender.labels at h
  cases hd : envelope.last (.shipped .delay) with
  | none =>
    simp only [hd] at h
    exact Except.ok.inj h ▸ hpinned hstart
  | some delay =>
    simp only [hd] at h
    split_ifs at h
    exact Except.ok.inj h ▸ (hpinned hstart).set (by decide) _

/-- What is published: the envelope as it was encoded, under the name its class has by then. -/
theorem send_published [Unicode] [PyObject ω] {s : TaskiqSender ω}
    {messages later : MessageRegistry} {broker : Publisher ω} {envelope : Envelope ω}
    {taskName : String} {message : Message} {answer : Except (Exc ω) String}
    (h : .kiq taskName message answer ∈ (s.send messages later broker envelope).calls) :
    taskName = later.nameOf (PyObject.typeOf envelope.message) ∧ ∃ headers,
      s.serializer.encode messages envelope = .ok ⟨message.body, headers⟩ ∧
        Told message.labels headers := by
  unfold send at h
  obtain h | ⟨encoded, hencoded, h⟩ := Traced.mem_bind_iff.mp h
  · simp at h
  obtain h | ⟨-, -, h⟩ := Traced.mem_bind_iff.mp h
  · simp at h
  obtain h | ⟨labels, hlabels, h⟩ := Traced.mem_bind_iff.mp h
  · simp at h
  obtain h | ⟨taskId, -, h⟩ := Traced.mem_bind_iff.mp h
  · simp only [Traced.call_calls, List.mem_singleton, PublishCall.kiq.injEq] at h
    obtain ⟨rfl, rfl, -⟩ := h
    exact ⟨rfl, encoded.headers, hencoded, told_of_labels hlabels⟩
  · simp at h

end TaskiqSender

theorem stringsOf_readMember (headers : Dict String String) :
    stringsOf (Dict.update .empty (headers.entries.map Json.readMember)) =
      some (headers.entries.map fun m => (points m.1, points m.2)) := by
  have hkeys : (headers.entries.map Json.readMember).map Prod.fst = headers.keys.map points := by
    simp [Dict.keys, Json.readMember]
  have hmembers : (Dict.update .empty (headers.entries.map Json.readMember) :
      Dict PyStr Json).entries = headers.entries.map Json.readMember := by
    rw [Dict.update_entries]
    · rfl
    · rw [hkeys]
      exact headers.nodup.map points_injective
  rw [stringsOf, hmembers]
  induction headers.entries with
  | nil => rfl
  | cons entry entries ih =>
    rw [List.map_cons, List.mapM_cons, ih]
    rfl

theorem headersFrom_dumps [Unicode] (headers : Dict String String) (taskName : String) :
    (headersFrom (some (.text (Json.dumps headers.entries))) taskName : Except (Exc ω) _) =
      .ok headers := by
  rw [headersFrom]
  simp only [Json.loads_dumps, stringsOf_readMember, Option.bind_some, textsOf_points,
    Dict.update_empty]

theorem nameOf_mem_boundNames {messages : MessageRegistry} {messageType : PyType}
    (h : messageType ∈ messages.nameByType.keys) :
    messages.nameOf messageType ∈ boundNames messages := by
  obtain ⟨name, hname⟩ := Dict.get?_of_mem_keys _ h
  have hentry := (Dict.get?_eq_some_iff _).mp hname
  rw [MessageRegistry.nameOf, hname, Option.getD_some]
  exact List.mem_map_of_mem (f := Prod.snd) hentry

/-- However much is declared, what a sender publishes is rebuilt by the task under its name: the
same message and the stamps restored, then where it was received and that it is a first
delivery. -/
theorem rebuilds_published [Unicode] [Numerals] [PyObject ω] {s : TaskiqSender ω}
    {messages later : MessageRegistry} {stamps : StampRegistry} {broker : Publisher ω}
    {envelope : Envelope ω} {name : String} (hr : s.serializer.Restores stamps envelope)
    (hname : messages.nameByType.get? (PyObject.typeOf envelope.message) = some name)
    (hne : name ≠ "") (hgrows : messages.Grows ω later) {taskName : String} {message : Message}
    {answer : Except (Exc ω) String}
    (h : .kiq taskName message answer ∈ (s.send messages later broker envelope).calls)
    (receiverName : String) :
    taskName ∈ boundNames later ∧
      rebuild ⟨later, stamps⟩ message.body message.labels taskName s.serializer receiverName =
        .ok ⟨envelope.message, regrouped Stamp.cls (s.serializer.restorable stamps envelope) ++
          [.shipped (.received receiverName), .shipped (.redelivery 0)]⟩ := by
  obtain ⟨htask, headers, hencoded, htold⟩ := TaskiqSender.send_published h
  have hdeclared : PyObject.typeOf envelope.message ∈ messages.nameByType.keys :=
    List.mem_map_of_mem (f := Prod.fst) ((Dict.get?_eq_some_iff _).mp hname)
  have hnameOf : messages.nameOf (PyObject.typeOf envelope.message) = name := by
    simp [MessageRegistry.nameOf, hname]
  have hdecoded := JsonSerializer.decode_restorable hr hnameOf hne
    (hgrows.typeByName (messages.coherent _ _ hname)) hencoded
  have hattempt : attemptFrom message.labels = 0 := by
    simp [attemptFrom, retriesFrom, htold.retries]
  constructor
  · rw [htask]
    exact nameOf_mem_boundNames (hgrows.declared hdeclared)
  · simp [rebuild, htold.headers, headersFrom_dumps, hdecoded, htask, hattempt, bind, Except.bind,
      pure, Except.pure, Envelope.withStamps]

section
attribute [local instance] Unicode.ascii Numerals.ascii
open JsonSerializer

/-- The sample's message class, declared once more under another name. -/
def sampleRenamed : MessageRegistry :=
  sampleMessages.assign "test.number.v2" ⟨0, "builtins", "int"⟩ (by decide)

/-- A broker that publishes. -/
def samplePublisher : Publisher Int := ⟨none, fun _ _ => .ok "1"⟩

theorem sampleEnvelope_restored :
    (create sampleSerializer none).Restores .empty sampleEnvelope := by
  constructor
  · exact sampleSerializer_roundTrips
  · have hs : ∀ stamp ∈ sampleEnvelope.sendable, (create sampleSerializer none).stampTypeFor
        .empty stamp.cls.name = some stamp.cls := by decide
    intro stamp hm stampType ht
    exact Option.some.inj (ht.symm.trans (hs stamp hm))

theorem rebuilds_published_sample : ∃ message : Message,
    .kiq "test.number.v2" message (.ok "1") ∈ (TaskiqSender.send
        { serializer := create sampleSerializer none } sampleMessages sampleRenamed
        samplePublisher sampleEnvelope).calls ∧
      "test.number.v2" ∈ boundNames sampleRenamed ∧
      rebuild ⟨sampleRenamed, .empty⟩ message.body message.labels "test.number.v2"
        (create sampleSerializer none) "async" =
          .ok ⟨5, [.shipped (.redelivery 1), .shipped (.redelivery 2), .shipped (.delay 250),
            .shipped (.received "async"), .shipped (.redelivery 0)]⟩ := by
  have hgrows : sampleMessages.Grows Int sampleRenamed :=
    .single ⟨⟨0, "builtins", "int"⟩, some "test.number.v2", [], rfl⟩
  obtain ⟨message, hsent⟩ : ∃ message : Message,
      .kiq "test.number.v2" message (.ok "1") ∈ (TaskiqSender.send
        { serializer := create sampleSerializer none } sampleMessages sampleRenamed
        samplePublisher sampleEnvelope).calls := ⟨_, .tail _ (.head _)⟩
  have hname : sampleMessages.nameByType.get? (PyObject.typeOf sampleEnvelope.message) =
      some "test.number.v1" := rfl
  exact ⟨message, hsent,
    rebuilds_published sampleEnvelope_restored hname (by decide) hgrows hsent "async"⟩

end

end XtrMessenger.Taskiq
