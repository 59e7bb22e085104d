import XtrMessenger.Bus.Receipts

/-! What the senders of the package add to the envelope they are handed. -/
namespace XtrMessenger.Bus
open Foundation
variable {ω : Type}

/-- A sender of the package, by what it was built with and what it meets: for `InMemoryTransport`
the round trip through its serializer, if it has one, and the ids `uuid4` comes up with. -/
inductive PackageSender (ω : Type)
  | sync
  | inMemory (recode : Option (Envelope ω → Except (Exc ω) (Envelope ω)))
      (messageId : Envelope ω → String)
  | taskiq (s : Taskiq.TaskiqSender ω) (messages later : MessageRegistry)
      (broker : Taskiq.Publisher ω)

namespace PackageSender

def sender [Unicode] [PyObject ω] : PackageSender ω → Sender ω
  | sync => ⟨"SyncTransport", SyncTransport.send⟩
  | inMemory recode messageId => ⟨"InMemoryTransport", InMemoryTransport.send recode messageId⟩
  | taskiq s messages later broker =>
    ⟨"TaskiqSender", fun envelope => (s.send messages later broker envelope).result⟩

theorem ofPackage_iff [Unicode] [PyObject ω] {s : Sender ω} :
    OfPackage s ↔ ∃ p : PackageSender ω, p.sender = s := by
  constructor
  · intro h
    cases h with
    | sync => exact ⟨sync, rfl⟩
    | inMemory recode messageId => exact ⟨inMemory recode messageId, rfl⟩
    | taskiq t messages later broker => exact ⟨taskiq t messages later broker, rfl⟩
  · rintro ⟨p, rfl⟩
    cases p with
    | sync => exact .sync
    | inMemory recode messageId => exact .inMemory recode messageId
    | taskiq t messages later broker => exact .taskiq t messages later broker

/-- A sender's own stamp on an envelope: that it was received, or the id it was given. -/
def Own (envelope : Envelope ω) : PackageSender ω → Stamp ω → Prop
  | sync, stamp => stamp = .shipped (.received
      (((envelope.last (.shipped .sent)).bind Stamp.senderAlias?).getD "sync"))
  | inMemory _ messageId, stamp => stamp = .shipped (.transportMessageId (messageId envelope))
  | taskiq _ _ _ broker, stamp => ∃ taskName message taskId,
      broker.kiq taskName message = .ok taskId ∧ stamp = .shipped (.transportMessageId taskId)

/-- The sender handed the envelope back with its own stamp added, and nothing else. -/
def AppendsOwn (p : PackageSender ω) (envelope returned : Envelope ω) : Prop :=
  returned.message = envelope.message ∧
    ∃ own, p.Own envelope own ∧ returned.stamps = envelope.stamps ++ [own]

/-- What an `InMemoryTransport` is to record, the envelope or what its serializer makes of it, has
no `TransportMessageIdStamp` yet. -/
def Unidentified (envelope : Envelope ω) : PackageSender ω → Prop
  | inMemory none _ => envelope.all (.shipped .transportMessageId) = []
  | inMemory (some recode) _ => ∀ decoded, recode envelope = .ok decoded →
      decoded.all (.shipped .transportMessageId) = []
  | sync => True
  | taskiq _ _ _ _ => True

section Appending
variable [Unicode] [PyObject ω] {envelope returned : Envelope ω}

theorem sync_appends (h : (sync : PackageSender ω).sender.send envelope = .ok returned) :
    sync.AppendsOwn envelope returned := by
  change SyncTransport.send envelope = .ok returned at h
  unfold SyncTransport.send at h
  split_ifs at h
  obtain rfl := Except.ok.inj h
  exact ⟨rfl, _, rfl, rfl⟩

theorem taskiq_appends {s : Taskiq.TaskiqSender ω} {messages later : MessageRegistry}
    {broker : Taskiq.Publisher ω}
    (h : (taskiq s messages later broker).sender.send envelope = .ok returned) :
    (taskiq s messages later broker).AppendsOwn envelope returned := by
  have hsent : (s.send messages later broker envelope).Ensures fun returned =>
      (taskiq s messages later broker).AppendsOwn envelope returned := by
    unfold Taskiq.TaskiqSender.send
    refine (Traced.ensures_true _).bind fun encoded _ => ?_
    refine (Traced.ensures_true _).bind fun _ _ => ?_
    refine (Traced.ensures_true _).bind fun labels _ => ?_
    have hkiq : ∀ taskName message, (Traced.call (Taskiq.PublishCall.kiq taskName message
        (broker.kiq taskName message)) (broker.kiq taskName message)).Ensures fun taskId =>
          broker.kiq taskName message = .ok taskId := fun _ _ _ ha => ha
    refine (hkiq _ _).bind fun taskId hid => Traced.ensures_pure ?_
    exact ⟨rfl, _, ⟨_, _, taskId, hid, rfl⟩, rfl⟩
  exact hsent returned h

/-- What is handed back has every id the recorded envelope has, the new one last. -/
theorem inMemory_returned {recode : Option (Envelope ω → Except (Exc ω) (Envelope ω))}
    {messageId : Envelope ω → String}
    (h : (inMemory recode messageId).sender.send envelope = .ok returned) :
    ∃ recorded, recode.elim (.ok envelope) (fun recode => recode envelope) = .ok recorded ∧
      returned = envelope.withStamps (recorded.all (.shipped .transportMessageId) ++
        [.shipped (.transportMessageId (messageId envelope))]) := by
  change InMemoryTransport.send recode messageId envelope = .ok returned at h
  unfold InMemoryTransport.send at h
  split_ifs at h
  obtain ⟨recorded, hrecorded, h⟩ := bind_eq_ok_iff.mp h
  refine ⟨recorded, hrecorded, (Except.ok.inj h).symm.trans ?_⟩
  have hown : (Stamp.shipped (.transportMessageId (messageId envelope)) : Stamp ω).isInstance
      (.shipped .transportMessageId) = true := rfl
  simp [Envelope.all, hown]

omit [Unicode] [PyObject ω] in
theorem inMemory_appends_iff {recode : Option (Envelope ω → Except (Exc ω) (Envelope ω))}
    {messageId : Envelope ω → String} {recorded : Envelope ω}
    (h : returned = envelope.withStamps (recorded.all (.shipped .transportMessageId) ++
      [.shipped (.transportMessageId (messageId envelope))])) :
    (inMemory recode messageId).AppendsOwn envelope returned ↔
      recorded.all (.shipped .transportMessageId) = [] := by
  subst h
  constructor
  · rintro ⟨_, own, _, hstamps⟩
    have hadded := List.append_cancel_left hstamps
    have hlength := congrArg List.length hadded
    simp only [List.length_append, List.length_singleton] at hlength
    exact List.length_eq_zero_iff.mp (by omega)
  · intro hnone
    refine ⟨rfl, _, rfl, ?_⟩
    rw [hnone, List.nil_append, Envelope.withStamps_stamps]

/-- Whatever a sender of the package hands back is the envelope with its own stamp added, unless it
is an `InMemoryTransport` that records an envelope which has a `TransportMessageIdStamp` already:
this it hands back once more. -/
theorem appends_own_iff (p : PackageSender ω) (envelope returned : Envelope ω)
    (h : p.sender.send envelope = .ok returned) :
    p.AppendsOwn envelope returned ↔ p.Unidentified envelope := by
  cases p with
  | sync => exact iff_of_true (sync_appends h) trivial
  | taskiq s messages later broker => exact iff_of_true (taskiq_appends h) trivial
  | inMemory recode messageId =>
    obtain ⟨recorded, hrecorded, hreturned⟩ := inMemory_returned h
    rw [inMemory_appends_iff hreturned]
    cases recode with
    | none =>
      obtain rfl : envelope = recorded := Except.ok.inj hrecorded
      exact Iff.rfl
    | some recode =>
      have hdecoded : recode envelope = .ok recorded := hrecorded
      constructor
      · intro hnone decoded hd
        exact Except.ok.inj (hdecoded.symm.trans hd) ▸ hnone
      · exact fun hall => hall recorded hdecoded

end Appending

section Samples
attribute [local instance] Unicode.ascii

/-- A report on its way to a transport, and one that was sent before. -/
def sentReport : Envelope Sample := ⟨.report, [.shipped (.sent "InMemoryTransport" "async")]⟩

def resentReport : Envelope Sample :=
  ⟨.report, [.shipped (.transportMessageId "1"), .shipped (.sent "InMemoryTransport" "async")]⟩

/-- `InMemoryTransport()`. -/
def recorder : PackageSender Sample := inMemory none fun _ => "2"

theorem appends_own_iff_sent : ∃ returned, recorder.sender.send sentReport = .ok returned ∧
    recorder.AppendsOwn sentReport returned :=
  ⟨_, rfl, (appends_own_iff recorder sentReport _ rfl).mpr rfl⟩

/-- The id of the earlier send is added again, beside the new one. -/
theorem earlier_id_repeated :
    recorder.sender.send resentReport = .ok (resentReport.withStamps
      [.shipped (.transportMessageId "1"), .shipped (.transportMessageId "2")]) ∧
    ¬∀ (p : PackageSender Sample) (envelope returned : Envelope Sample),
      p.sender.send envelope = .ok returned → p.AppendsOwn envelope returned := by
  have hsent : recorder.sender.send resentReport = .ok (resentReport.withStamps
      [.shipped (.transportMessageId "1"), .shipped (.transportMessageId "2")]) := rfl
  refine ⟨hsent, fun h => ?_⟩
  obtain ⟨_, own, _, hstamps⟩ := h recorder resentReport _ hsent
  have hlength := congrArg List.length hstamps
  simp [resentReport] at hlength

end Samples
end PackageSender
end XtrMessenger.Bus
