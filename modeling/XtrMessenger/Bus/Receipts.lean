import XtrMessenger.Bus.Frames
import XtrMessenger.Taskiq.Publishing
import XtrMessenger.Worker.Settlement

/-! The receipt a worker settles a message by: nothing the library does about the message gives it
another one. -/
namespace XtrMessenger
open Foundation
variable {ω : Type}

def Stamp.senderAlias? (s : Stamp ω) : Option String :=
  match s.asShipped with
  | some (.sent _ senderAlias) => some senderAlias
  | _ => none

/-- The envelope a call settles. -/
def Call.settled? : Call ω → Option (Envelope ω)
  | .ack envelope _ => some envelope
  | .reject envelope _ => some envelope
  | _ => none

/-- Every stamp a listener adds meets `P`. -/
structure Listeners.AddOnly (P : Stamp ω → Prop) (l : Listeners ω) : Prop where
  received : ∀ envelope name stamps shouldHandle,
    l.received envelope name = .ok (stamps, shouldHandle) → ∀ s ∈ stamps, P s
  handled : ∀ envelope name stamps, l.handled envelope name = .ok stamps → ∀ s ∈ stamps, P s
  failed : ∀ envelope name error willRetry, ∀ s ∈ (l.failed envelope name error willRetry).1, P s

def Outcome.envelope : Outcome ω → Envelope ω
  | handled envelope => envelope
  | skipped envelope => envelope
  | failed envelope _ => envelope

namespace Bus

def unsupportedStampError [Unicode] (stampName transport : String) : Exc ω :=
  .exception "UnsupportedStampError"
    ("the " ++ pyRepr transport ++ " transport cannot honour a " ++ stampName)

def SyncTransport.send [Unicode] (envelope : Envelope ω) :
    Except (Exc ω) (Envelope ω) :=
  if envelope.last (.shipped .delay) ≠ none then .error (unsupportedStampError "DelayStamp" "sync")
  else
    let sent := envelope.last (.shipped .sent)
    .ok (envelope.withStamps [.shipped (.received ((sent.bind Stamp.senderAlias?).getD "sync"))])

/-- `InMemoryTransport.send`: `recode` encodes and decodes again, where a serializer was given, and
`messageId` is what `uuid4` comes up with. -/
def InMemoryTransport.send [Unicode]
    (recode : Option (Envelope ω → Except (Exc ω) (Envelope ω))) (messageId : Envelope ω → String)
    (envelope : Envelope ω) : Except (Exc ω) (Envelope ω) :=
  if envelope.last (.shipped .delay) ≠ none then
    .error (unsupportedStampError "DelayStamp" "in-memory")
  else do
    let recorded ← recode.elim (.ok envelope) fun recode => recode envelope
    let stamped := recorded.withStamps [.shipped (.transportMessageId (messageId envelope))]
    return envelope.withStamps (stamped.all (.shipped .transportMessageId))

/-- The senders of the package. -/
inductive OfPackage [Unicode] [PyObject ω] : Sender ω → Prop
  | sync : OfPackage ⟨"SyncTransport", SyncTransport.send⟩
  | inMemory (recode : Option (Envelope ω → Except (Exc ω) (Envelope ω)))
      (messageId : Envelope ω → String) :
      OfPackage ⟨"InMemoryTransport", InMemoryTransport.send recode messageId⟩
  | taskiq (s : Taskiq.TaskiqSender ω) (messages later : MessageRegistry)
      (broker : Taskiq.Publisher ω) :
      OfPackage ⟨"TaskiqSender", fun envelope => (s.send messages later broker envelope).result⟩

/-- What is no `AckReceiptStamp`. -/
def noReceipt (s : Stamp ω) : Prop := s.isInstance (.shipped .ackReceipt) = false

section Senders

/-- A sender that appends to what it is handed is told by what it appends. -/
theorem addsOnly_of_appends [BEq (Stamp ω)] [EquivBEq (Stamp ω)] {P : Stamp ω → Prop}
    {sender : Sender ω}
    (hsent : ∀ senderClass senderAlias, P (.shipped (.sent senderClass senderAlias)))
    (h : ∀ envelope returned, sender.send envelope = .ok returned →
      ∃ added, returned = envelope.withStamps added ∧ ∀ s ∈ added, P s) : AddsOnly P sender := by
  intro senderAlias envelope returned hr s hs
  obtain ⟨added, rfl, hadded⟩ := h _ returned hr
  have hcounted : addedBy ((handed envelope (senderAlias, sender)).withStamps added).stamps
      envelope.stamps = .shipped (.sent sender.className senderAlias) :: added := by
    simp [addedBy, handed, Envelope.withStamps]
  rw [hcounted] at hs
  rcases List.mem_cons.mp hs with rfl | hs
  · exact hsent _ _
  · exact hadded s hs

theorem isInstance_of_isInstance {s : Stamp ω} {kind other : StampKind} (hne : kind ≠ other)
    (h : s.isInstance (.shipped kind) = true) : s.isInstance (.shipped other) = false := by
  simp only [Stamp.isInstance, decide_eq_true_eq] at h
  simp [Stamp.isInstance, h, hne]

theorem OfPackage.addsOnly [Unicode] [PyObject ω] [BEq (Stamp ω)] [EquivBEq (Stamp ω)]
    {s : Sender ω} (h : OfPackage s) : AddsOnly noReceipt s := by
  refine addsOnly_of_appends (fun _ _ => rfl) fun envelope returned hr => ?_
  cases h with
  | sync =>
    dsimp only [SyncTransport.send] at hr
    split_ifs at hr
    exact ⟨_, (Except.ok.inj hr).symm, by simp [noReceipt, Stamp.isInstance, Stamp.asShipped,
      ShippedStamp.kind]⟩
  | inMemory recode messageId =>
    dsimp only [InMemoryTransport.send] at hr
    split_ifs at hr
    obtain ⟨recorded, -, hr⟩ := bind_eq_ok_iff.mp hr
    refine ⟨_, (Except.ok.inj hr).symm, fun s hs => ?_⟩
    exact isInstance_of_isInstance (by decide) (List.mem_filter.mp hs).2
  | taskiq sender messages later broker =>
    have hsent : (sender.send messages later broker envelope).Ensures fun returned =>
        ∃ added, returned = envelope.withStamps added ∧ ∀ s ∈ added, noReceipt s := by
      unfold Taskiq.TaskiqSender.send
      refine (Traced.ensures_true _).bind fun encoded _ => ?_
      refine (Traced.ensures_true _).bind fun _ _ => ?_
      refine (Traced.ensures_true _).bind fun labels _ => ?_
      refine (Traced.ensures_true _).bind fun taskId _ => Traced.ensures_pure ?_
      exact ⟨_, rfl, by simp [noReceipt, Stamp.isInstance, Stamp.asShipped, ShippedStamp.kind]⟩
    exact hsent returned hr

end Senders

section Settling
variable {P : Stamp ω → Prop} {I : Envelope ω → Prop} {listeners : Listeners ω}

theorem handle_keeps (stable : Stable P I) {bus : XtrMessenger.Bus ω} (adds : listeners.AddOnly P)
    (answers : ∀ e answer, I e → bus e = .ok answer → I answer) {dispatcher : Option (Listeners ω)}
    (hd : ∀ l, dispatcher = some l → l = listeners) {envelope : Envelope ω} (h : I envelope)
    (name : String) : (handle bus envelope name dispatcher).Ensures fun outcome =>
      I outcome.envelope := by
  intro outcome ho
  cases dispatcher with
  | none =>
    rw [handle_none] at ho
    obtain rfl := Except.ok.inj ho
    cases hb : bus envelope with
    | error error => exact h
    | ok answer => exact answers envelope answer h hb
  | some l =>
    obtain rfl := hd l rfl
    rw [handle_some] at ho
    rcases hr : l.received envelope name with error | ⟨stamps, _ | _⟩
    · simp only [hr] at ho
      exact Except.ok.inj ho ▸ h
    · simp only [hr] at ho
      exact Except.ok.inj ho ▸ stable.adding _ _ h (adds.received _ _ _ _ hr)
    · have hcurrent := stable.adding _ _ h (adds.received _ _ _ _ hr)
      rcases hb : bus (envelope.withStamps stamps) with error | answer
      · simp only [hr, hb] at ho
        exact Except.ok.inj ho ▸ hcurrent
      · have hanswer := answers _ _ hcurrent hb
        simp only [hr, hb] at ho
        obtain rfl := Except.ok.inj ho
        cases hh : l.handled answer name with
        | error error => exact hanswer
        | ok stamps => exact stable.adding _ _ hanswer (adds.handled _ _ _ hh)

theorem handle_unsettled (bus : XtrMessenger.Bus ω) (envelope : Envelope ω) (name : String)
    (dispatcher : Option (Listeners ω)) :
    ∀ c ∈ (handle bus envelope name dispatcher).calls, c.settled? = none := by
  obtain ⟨o, -, hh⟩ := handle_handling bus envelope name dispatcher
  intro c hc
  have hunsettled := hh.unsettled c hc
  cases c <;> simp_all [Call.settled?, Call.isSettlement, Call.isAck, Call.isReject]

theorem dispatcher_eq_some {worker : Worker} {world : World ω} {l : Listeners ω}
    (h : worker.dispatcher world = some l) : l = world.listeners := by
  unfold Worker.dispatcher at h
  split_ifs at h
  exact (Option.some.inj h).symm

/-- A message is settled as what handling it made of it, details of a failure added. -/
theorem settleOutcome_keeps (stable : Stable P I) (worker : Worker) (world : World ω)
    (adds : world.listeners.AddOnly P)
    (details : ∀ exceptionClass text, P (.shipped (.errorDetails exceptionClass text)))
    (name : String) {outcome : Outcome ω} (h : I outcome.envelope) :
    ∀ c ∈ (worker.settleOutcome world name outcome).calls, ∀ settled, c.settled? = some settled →
      I settled := by
  intro c hc settled hs
  cases outcome with
  | handled e =>
    obtain rfl := List.mem_singleton.mp hc
    exact Option.some.inj hs ▸ h
  | skipped e =>
    obtain rfl := List.mem_singleton.mp hc
    exact Option.some.inj hs ▸ h
  | failed e error =>
    simp only [Worker.settleOutcome, announceFailure] at hc
    obtain hc | ⟨stamp, hstamp, hc⟩ := Traced.mem_bind_iff.mp hc
    · simp at hc
    have hdetails : I (e.withStamps [stamp]) := by
      refine stable.adding _ _ h fun s hs => ?_
      obtain rfl := List.mem_singleton.mp hs
      obtain ⟨cause, -, hcause⟩ := bind_eq_ok_iff.mp hstamp
      obtain ⟨text, -, htext⟩ := bind_eq_ok_iff.mp hcause
      exact Except.ok.inj htext ▸ details _ _
    cases hd : worker.dispatcher world with
    | none =>
      simp only [hd, Traced.call_calls, List.mem_singleton] at hc
      subst hc
      exact Option.some.inj hs ▸ hdetails
    | some l =>
      obtain rfl := dispatcher_eq_some hd
      simp only [hd, Traced.finallyDo_calls, Traced.call_calls, List.singleton_append,
        List.mem_cons, List.not_mem_nil, or_false] at hc
      rcases hc with rfl | rfl
      · simp [Call.settled?] at hs
      · exact Option.some.inj hs ▸ stable.adding _ _ hdetails (adds.failed _ _ _ _)

/-- What a worker settles keeps what dispatching and the listeners keep of what it collected. -/
theorem settle_keeps (stable : Stable P I) (worker : Worker) (world : World ω)
    (adds : world.listeners.AddOnly P)
    (answers : ∀ e answer, I e → world.bus e = .ok answer → I answer)
    (details : ∀ exceptionClass text, P (.shipped (.errorDetails exceptionClass text)))
    (received : ∀ name, P (.shipped (.received name))) {collected : Envelope ω} (h : I collected) :
    ∀ c ∈ (worker.settle world collected).calls, ∀ settled, c.settled? = some settled →
      I settled := by
  intro c hc settled hs
  have hnamed : I (worker.named collected) := by
    unfold Worker.named
    cases worker.receiverName with
    | none => exact h
    | some name =>
      dsimp only
      split_ifs
      · exact h
      · exact stable.adding _ _ h (by simpa using received name)
  simp only [Worker.settle, Traced.finallyDo_calls, List.mem_append] at hc
  rcases hc with hc | hc
  · obtain hc | ⟨outcome, houtcome, hc⟩ := Traced.mem_bind_iff.mp hc
    · simp [handle_unsettled _ _ _ _ c hc] at hs
    · have hkept := handle_keeps stable adds answers (fun _ => dispatcher_eq_some) hnamed _ outcome
        houtcome
      exact settleOutcome_keeps stable worker world adds details _ hkept c hc settled hs
  · have hunsettled := resetting_unsettled worker world c hc
    cases c <;> simp_all [Call.settled?, Call.isAck, Call.isReject]

end Settling

/-- What a factory's bus returns begins with what was dispatched, past what held it back, and a
worker settles by the receipt the message was collected with. -/
theorem dispatch_keeps_stamps [Unicode] [Messages ω] [BEq (Stamp ω)] [EquivBEq (Stamp ω)]
    {S : Sender ω → Prop} {on : Bool} {bus : List (Middleware ω)} (h : Plain S on bus) :
    (∀ envelope stamps returned, (dispatch bus envelope stamps).result = .ok returned →
      Above (goingOn (envelope.withStamps stamps)) (goingOn returned) ∧
        (on = true → Above (goingOn (envelope.withStamps stamps)) returned)) ∧
    ((∀ s, S s → OfPackage s) → ∀ (worker : Worker) (world : World ω),
      (∀ e, world.bus e = (dispatch bus e []).result) → world.listeners.AddOnly noReceipt →
      ∀ collected, ∀ c ∈ (worker.settle world collected).calls, ∀ settled,
        c.settled? = some settled →
          settled.last (.shipped .ackReceipt) = collected.last (.shipped .ackReceipt)) := by
  constructor
  · intro envelope stamps returned hr
    exact h.above (envelope.withStamps stamps) returned hr
  · intro package worker world through adds collected
    have stable := @stable_last ω .ackReceipt (by decide) (collected.last (.shipped .ackReceipt))
    refine settle_keeps stable worker world adds (fun e answer he ha => ?_) (fun _ _ => rfl)
      (fun _ => rfl) rfl
    rw [through, dispatch, Envelope.withStamps_nil] at ha
    exact h.keeps stable (fun _ _ => rfl) (fun s hs => (package s hs).addsOnly) he answer ha

section Samples
attribute [local instance] Unicode.ascii

/-- A factory with one transport, which handles where it dispatches. -/
def syncFactory : MessageBusFactory Sample where
  config := {}
  senders := .ok ((Dict.empty : Dict String (Sender Sample)).set "sync"
    ⟨"SyncTransport", SyncTransport.send⟩)
  messages := .empty
  handlers := ⟨(Dict.empty : Dict PyType (List (HandlerDescriptor Sample))).set
    ⟨2, "app.messages", "BuildReport"⟩ [⟨0, "build", false, fun _ _ => .ok .report⟩]⟩

/-- A report collected with a receipt. -/
def collectedReport : Envelope Sample :=
  ⟨.report, [.shipped (.received "reports"), .shipped (.ackReceipt 7)]⟩

/-- The world of a worker whose listeners answer with some stamps. -/
def sampleWorld (bus : List (Middleware Sample)) (stamps : List (Stamp Sample)) : World Sample where
  bus e := (dispatch bus e []).result
  listeners := ⟨fun _ _ => .ok (stamps, true), fun _ _ => .ok [], fun _ _ _ _ => ([], none)⟩
  ack _ := none
  reject _ := none
  reset := none

/-- The bus it builds. -/
def syncBus : List (Middleware Sample) :=
  let locator : SendersLocator Sample := ⟨.empty, (Dict.empty : Dict String (Sender Sample)).set
    "sync" ⟨"SyncTransport", SyncTransport.send⟩, by simp [Dict.values, Dict.empty]⟩
  [holdingBack false fun _ => .ok (), sendMessage (locator.interface .empty) false false,
    handleMessage (RedispatchingHandlers.interface syncFactory.handlers (.ok .ok)) true]

theorem syncBus_plain : Plain OfPackage true syncBus := by
  have hbuilt : syncFactory.busWithin false (fun _ => .ok ()) .ok = .ok syncBus := rfl
  refine .message rfl (fun m hm => absurd hm List.not_mem_nil) (fun senders hs s hm => ?_) hbuilt
  obtain rfl := Except.ok.inj hs
  obtain rfl : s = ⟨"SyncTransport", SyncTransport.send⟩ := List.mem_singleton.mp hm
  exact .sync

/-- A report that is to wait for the message being handled, and was received before. -/
def waitingReport : Envelope Sample :=
  ⟨.report, [.shipped .dispatchAfterCurrentBus, .shipped (.received "reports")]⟩

/-- What the worker settles of the report. -/
def settledReport : Envelope Sample :=
  ⟨.report, [.shipped (.received "reports"), .shipped (.ackReceipt 7), .shipped (.handled "build"
    .report)]⟩

theorem dispatch_keeps_stamps_sync :
    (∃ returned, (dispatch syncBus waitingReport []).result = .ok returned ∧
      Above (goingOn waitingReport) returned) ∧
    .ack settledReport none ∈ (({ hasDispatcher := true } : Worker).settle (sampleWorld syncBus [])
      collectedReport).calls ∧
    settledReport.last (.shipped .ackReceipt) = collectedReport.last (.shipped .ackReceipt) := by
  obtain ⟨hfront, hreceipt⟩ := dispatch_keeps_stamps syncBus_plain
  have hadds : (sampleWorld syncBus []).listeners.AddOnly noReceipt := by
    constructor <;> simp [sampleWorld]
  have hacked : Call.ack settledReport none ∈ (({ hasDispatcher := true } : Worker).settle
      (sampleWorld syncBus []) collectedReport).calls := .tail _ (.tail _ (.tail _ (.head _)))
  refine ⟨⟨_, rfl, (hfront waitingReport [] _ rfl).2 rfl⟩, hacked, ?_⟩
  exact hreceipt (fun _ => id) _ _ (fun _ => rfl) hadds collectedReport _ hacked _ rfl

/-- Without the default middleware nothing is taken off the envelope, so its stamps past the one
holding it back are no front of those returned; and a listener may add a receipt of its own. -/
theorem front_and_receipt_lost :
    (¬∀ (on : Bool) (bus : List (Middleware Sample)), Plain (fun _ => True) on bus →
      ∀ envelope returned, (dispatch bus envelope []).result = .ok returned →
        Above (goingOn envelope) returned) ∧
    ¬∀ (on : Bool) (bus : List (Middleware Sample)), Plain OfPackage on bus →
      ∀ (worker : Worker) (world : World Sample),
        (∀ e, world.bus e = (dispatch bus e []).result) → ∀ collected,
          ∀ c ∈ (worker.settle world collected).calls, ∀ settled, c.settled? = some settled →
            settled.last (.shipped .ackReceipt) = collected.last (.shipped .ackReceipt) := by
  constructor
  · intro h
    have hplain : Plain (fun _ => True) false ([] : List (Middleware Sample)) := by
      have hbuilt : ({ syncFactory with config := { defaultMiddleware := false } } :
          MessageBusFactory Sample).busWithin false (fun _ => .ok ()) .ok = .ok [] := rfl
      exact .message rfl (fun m hm => absurd hm List.not_mem_nil) (fun _ _ _ _ => trivial) hbuilt
    have hfront := (h false [] hplain waitingReport waitingReport rfl).stamps
    exact absurd hfront (by decide)
  · intro h
    have hacked : Call.ack ((settledReport.withoutStamps (.shipped .handled)).withStamps
        [.shipped (.ackReceipt 8), .shipped (.handled "build" .report)]) none ∈
        (({ hasDispatcher := true } : Worker).settle (sampleWorld syncBus
          [.shipped (.ackReceipt 8)]) collectedReport).calls :=
      .tail _ (.tail _ (.tail _ (.head _)))
    have hlast := h true syncBus syncBus_plain _ _ (fun _ => rfl) collectedReport _ hacked _ rfl
    exact absurd hlast (by decide)

end Samples

end Bus
end XtrMessenger
