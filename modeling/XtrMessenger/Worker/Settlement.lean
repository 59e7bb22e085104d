import XtrMessenger.Handling

/-! How the library's worker settles one message, and what the calls it makes about it
tell: which message was skipped, which failed, which call settled it. -/
namespace XtrMessenger
open Foundation

/-- What `Worker.__init__` keeps, up to whether the optional collaborators were given. -/
structure Worker where
  receiverName : Option String := none
  hasDispatcher : Bool := false
  hasResetter : Bool := false

/-- The answers the bus, the listeners, the receiver and the resetter give about one
message. -/
structure World (ω : Type) where
  bus : Bus ω
  listeners : Listeners ω
  ack : Envelope ω → Option (Exc ω)
  reject : Envelope ω → Option (Exc ω)
  reset : Option (Exc ω)

namespace Worker
variable {ω : Type}

def dispatcher (worker : Worker) (world : World ω) : Option (Listeners ω) :=
  if worker.hasDispatcher then some world.listeners else none

/-- A receiver names what it is, not the transport it was configured as: the handlers see
the name the worker was built for. -/
def named (worker : Worker) (envelope : Envelope ω) : Envelope ω :=
  match worker.receiverName with
  | none => envelope
  | some name =>
    if (envelope.last (.shipped .received)).bind Stamp.transportName? = some name then envelope
    else envelope.withStamps [.shipped (.received name)]

/-- Settling a message as its handling came out. -/
def settleOutcome (worker : Worker) (world : World ω) (name : String) :
    Outcome ω → Traced (Call ω) (Exc ω) Unit
  | .handled settled | .skipped settled =>
    Traced.call (.ack settled (world.ack settled)) (raising (world.ack settled))
  | .failed current error =>
    announceFailure current error name (worker.dispatcher world) (fun rejected => Traced.call
      (.reject rejected (world.reject rejected)) (raising (world.reject rejected))) false

def resetting (worker : Worker) (world : World ω) : Traced (Call ω) (Exc ω) Unit :=
  if worker.hasResetter then Traced.call (.reset world.reset) (raising world.reset) else pure ()

def settle (worker : Worker) (world : World ω) (envelope : Envelope ω) :
    Traced (Call ω) (Exc ω) Unit :=
  let name := receiverNameOf envelope worker.receiverName
  let envelope := worker.named envelope
  Traced.finallyDo (do
    let outcome ← handle world.bus envelope name (worker.dispatcher world)
    worker.settleOutcome world name outcome) (worker.resetting world)

end Worker

namespace Call
variable {ω : Type}

def isAck : Call ω → Bool
  | ack _ _ => true
  | _ => false

def isReject : Call ω → Bool
  | reject _ _ => true
  | _ => false

def isSettlement (c : Call ω) : Bool := c.isAck || c.isReject

def isDispatch : Call ω → Bool
  | dispatch _ _ => true
  | _ => false

/-- A received-listener decided the message is not to be handled. -/
def skips : Call ω → Bool
  | received _ _ (.ok (_, shouldHandle)) => !shouldHandle
  | _ => false

/-- What the bus, or a listener of the received or handled event, raised. -/
def raised : Call ω → Option (Exc ω)
  | received _ _ (.error e) => some e
  | dispatch _ (.error e) => some e
  | handled _ _ (.error e) => some e
  | _ => none

end Call

section Spec
variable {ω : Type}

/-- What `handle` did, by how it came out. -/
structure Handling (outcome : Outcome ω) (calls : List (Call ω)) : Prop where
  unsettled : ∀ c ∈ calls, c.isSettlement = false
  dispatched : calls.countP Call.isDispatch ≤ 1
  told : match outcome with
    | .skipped _ => (∃ c ∈ calls, c.skips = true) ∧ ∀ c ∈ calls, c.raised = none
    | .handled _ => (∃ c ∈ calls, c.isDispatch = true) ∧ ∀ c ∈ calls, c.raised = none
    | .failed _ error => (∀ c ∈ calls, c.skips = false) ∧
        (∃ c ∈ calls, c.raised = some error) ∧ ∀ c ∈ calls, ∀ e ∈ c.raised, e = error

theorem handle_none (bus : Bus ω) (envelope : Envelope ω) (name : String) :
    handle bus envelope name none = ⟨[.dispatch envelope (bus envelope)],
      .ok (match bus envelope with
        | .ok current => .handled current
        | .error error => .failed envelope error)⟩ := by
  cases h : bus envelope <;>
    simp [handle, knowing, h, Traced.attempt, Traced.mapError, Traced.call, bind, Traced.bind,
      pure, Traced.pure, Except.mapError]

theorem handle_some (bus : Bus ω) (envelope : Envelope ω) (name : String) (l : Listeners ω) :
    handle bus envelope name (some l) =
      let received := Call.received envelope name (l.received envelope name)
      match l.received envelope name with
      | .error error => ⟨[received], .ok (.failed envelope error)⟩
      | .ok (stamps, false) => ⟨[received], .ok (.skipped (envelope.withStamps stamps))⟩
      | .ok (stamps, true) =>
        let current := envelope.withStamps stamps
        match bus current with
        | .error error =>
          ⟨[received, .dispatch current (.error error)], .ok (.failed current error)⟩
        | .ok answer =>
          ⟨[received, .dispatch current (.ok answer),
              .handled answer name (l.handled answer name)],
            .ok (match l.handled answer name with
              | .error error => .failed answer error
              | .ok stamps => .handled (answer.withStamps stamps))⟩ := by
  rcases hr : l.received envelope name with error | ⟨stamps, _ | _⟩
  · simp [handle, knowing, hr, Traced.attempt, Traced.mapError, Traced.call, bind, Traced.bind,
      pure, Traced.pure, Except.mapError]
  · simp [handle, knowing, hr, Traced.attempt, Traced.mapError, Traced.call, bind, Traced.bind,
      pure, Traced.pure, Except.mapError]
  · rcases hb : bus (envelope.withStamps stamps) with error | answer
    · simp [handle, knowing, hr, hb, Traced.attempt, Traced.mapError, Traced.call, bind,
        Traced.bind, pure, Traced.pure, Except.mapError]
    · rcases hh : l.handled answer name with error | added <;>
      simp [handle, knowing, hr, hb, hh, Traced.attempt, Traced.mapError, Traced.call, bind,
        Traced.bind, pure, Traced.pure, Except.mapError]

section
attribute [local simp] Call.isAck Call.isReject Call.isSettlement Call.isDispatch Call.skips
  Call.raised

theorem handle_handling (bus : Bus ω) (envelope : Envelope ω) (name : String)
    (dispatcher : Option (Listeners ω)) : ∃ outcome,
      (handle bus envelope name dispatcher).result = .ok outcome ∧
        Handling outcome (handle bus envelope name dispatcher).calls := by
  cases dispatcher with
  | none =>
    rw [handle_none]
    refine ⟨_, rfl, ?_⟩
    cases bus envelope <;> constructor <;> simp
  | some l =>
    rw [handle_some]
    rcases hr : l.received envelope name with error | ⟨stamps, _ | _⟩
    · exact ⟨_, rfl, by constructor <;> simp⟩
    · exact ⟨_, rfl, by constructor <;> simp⟩
    · rcases hb : bus (envelope.withStamps stamps) with error | answer
      · simp only [hb]
        exact ⟨_, rfl, by constructor <;> simp [List.countP_cons]⟩
      · simp only [hb]
        refine ⟨_, rfl, ?_⟩
        rcases l.handled answer name with error | added <;>
          constructor <;> simp [List.countP_cons]

end

/-- The message was settled by one call, after at most one dispatch: acknowledged exactly
when it was skipped or nothing raised, rejected exactly when something did. -/
structure SettledOnce (calls : List (Call ω)) : Prop where
  once : calls.countP Call.isSettlement = 1
  dispatched : calls.countP Call.isDispatch ≤ 1
  acked : (∃ c ∈ calls, c.isAck = true) ↔ (∃ c ∈ calls, c.skips = true) ∨
    (∃ c ∈ calls, c.isDispatch = true) ∧ ∀ c ∈ calls, c.raised = none
  rejected : (∃ c ∈ calls, c.isReject = true) ↔ ∃ c ∈ calls, c.raised ≠ none

/-- Calls that say nothing about how handling came out. -/
def Silent (calls : List (Call ω)) : Prop :=
  ∀ c ∈ calls, c.isDispatch = false ∧ c.skips = false ∧ c.raised = none

theorem Handling.unsettled_acked {o : Outcome ω} {calls : List (Call ω)} (h : Handling o calls) :
    ∀ c ∈ calls, c.isAck = false ∧ c.isReject = false := fun c hc => by
  simpa [Call.isSettlement] using h.unsettled c hc

theorem Silent.countP_isDispatch {calls : List (Call ω)} (h : Silent calls) :
    calls.countP Call.isDispatch = 0 :=
  List.countP_eq_zero.mpr fun c hc => by simp [(h c hc).1]

/-- With a silent tail that settles once, handling is settled once after at most one dispatch. -/
theorem Handling.counts {o : Outcome ω} {calls tail : List (Call ω)} (h : Handling o calls)
    (ht : Silent tail) (hs : tail.countP Call.isSettlement = 1) :
    (calls ++ tail).countP Call.isSettlement = 1 ∧ (calls ++ tail).countP Call.isDispatch ≤ 1 := by
  have hcalls : calls.countP Call.isSettlement = 0 :=
    List.countP_eq_zero.mpr fun c hc => by simp [h.unsettled c hc]
  have hdispatched := h.dispatched
  rw [List.countP_append, List.countP_append, ht.countP_isDispatch]
  omega

theorem exists_settlement {tail : List (Call ω)} (hs : tail.countP Call.isSettlement = 1) :
    ∃ c ∈ tail, c.isSettlement = true := by
  apply List.countP_pos_iff.mp
  omega

theorem SettledOnce.of_ack {o : Outcome ω} {calls tail : List (Call ω)} (h : Handling o calls)
    (ho : ∀ e error, o ≠ .failed e error) (ht : Silent tail)
    (hs : tail.countP Call.isSettlement = 1) (hr : ∀ c ∈ tail, c.isReject = false) :
    SettledOnce (calls ++ tail) := by
  have hraised : ∀ c ∈ calls ++ tail, c.raised = none := by
    have hc : ∀ c ∈ calls, c.raised = none := by
      cases o with
      | handled e => exact h.told.2
      | skipped e => exact h.told.2
      | failed e error => exact absurd rfl (ho e error)
    exact List.forall_mem_append.mpr ⟨hc, fun c hm => (ht c hm).2.2⟩
  have hunrejected : ∀ c ∈ calls ++ tail, c.isReject = false :=
    List.forall_mem_append.mpr ⟨fun c hm => (h.unsettled_acked c hm).2, hr⟩
  have hacked : ∃ c ∈ calls ++ tail, c.isAck = true := by
    obtain ⟨c, hc, hset⟩ := exists_settlement hs
    have hack : c.isAck = true := by simpa [Call.isSettlement, hr c hc] using hset
    exact ⟨c, List.mem_append_right _ hc, hack⟩
  obtain ⟨honce, hdispatched⟩ := h.counts ht hs
  constructor
  case once => exact honce
  case dispatched => exact hdispatched
  case acked =>
    apply iff_of_true hacked
    cases o with
    | handled e =>
      obtain ⟨c, hc, hd⟩ := h.told.1
      exact Or.inr ⟨⟨c, by simp [hc], hd⟩, hraised⟩
    | skipped e =>
      obtain ⟨c, hc, hk⟩ := h.told.1
      exact Or.inl ⟨c, by simp [hc], hk⟩
    | failed e error => exact absurd rfl (ho e error)
  case rejected =>
    apply iff_of_false
    · intro ⟨c, hm, hrej⟩
      simp [hunrejected c hm] at hrej
    · intro ⟨c, hm, hne⟩
      exact hne (hraised c hm)

theorem SettledOnce.of_reject {e : Envelope ω} {error : Exc ω} {calls tail : List (Call ω)}
    (h : Handling (.failed e error) calls) (ht : Silent tail)
    (hs : tail.countP Call.isSettlement = 1) (ha : ∀ c ∈ tail, c.isAck = false) :
    SettledOnce (calls ++ tail) := by
  obtain ⟨hskip, ⟨r, hr, hraised⟩, -⟩ := h.told
  have hunacked : ∀ c ∈ calls ++ tail, c.isAck = false :=
    List.forall_mem_append.mpr ⟨fun c hm => (h.unsettled_acked c hm).1, ha⟩
  have hunskipped : ∀ c ∈ calls ++ tail, c.skips = false :=
    List.forall_mem_append.mpr ⟨hskip, fun c hm => (ht c hm).2.1⟩
  have hrejected : ∃ c ∈ calls ++ tail, c.isReject = true := by
    obtain ⟨c, hc, hset⟩ := exists_settlement hs
    have hrej : c.isReject = true := by simpa [Call.isSettlement, ha c hc] using hset
    exact ⟨c, List.mem_append_right _ hc, hrej⟩
  obtain ⟨honce, hdispatched⟩ := h.counts ht hs
  constructor
  case once => exact honce
  case dispatched => exact hdispatched
  case acked =>
    apply iff_of_false
    · intro ⟨c, hm, hack⟩
      simp [hunacked c hm] at hack
    · intro hacks
      obtain ⟨c, hm, hk⟩ | ⟨-, hnone⟩ := hacks
      · simp [hunskipped c hm] at hk
      · simp [hnone r (by simp [hr])] at hraised
  case rejected =>
    apply iff_of_true hrejected
    exact ⟨r, by simp [hr], by simp [hraised]⟩

theorem Silent.append {l l' : List (Call ω)} (h : Silent l) (h' : Silent l') :
    Silent (l ++ l') := List.forall_mem_append.mpr ⟨h, h'⟩

theorem settleOutcome_failed_calls (worker : Worker) (world : World ω) (name : String)
    (current : Envelope ω) {error : Exc ω} {details : Stamp ω}
    (h : errorDetailsOf error = .ok details) :
    ∃ announced settled, Silent announced ∧ (∀ c ∈ announced, c.isSettlement = false) ∧
      (worker.settleOutcome world name (.failed current error)).calls =
        announced ++ [.reject settled (world.reject settled)] := by
  simp only [Worker.settleOutcome, announceFailure]
  rw [Traced.bind_of_ok (a := details) _ h]
  cases worker.dispatcher world with
  | none => exact ⟨[], _, by simp [Silent], by simp, rfl⟩
  | some l => exact ⟨[_], _, by simp [Silent, Call.isDispatch, Call.skips, Call.raised],
      by simp [Call.isSettlement, Call.isAck, Call.isReject], rfl⟩

theorem settleOutcome_unreportable_calls (worker : Worker) (world : World ω) (name : String)
    (current : Envelope ω) {error raised : Exc ω} (h : errorDetailsOf error = .error raised) :
    (worker.settleOutcome world name (.failed current error)).calls = [] := by
  simp only [Worker.settleOutcome, announceFailure]
  rw [Traced.bind_of_error (e := raised) _ h]
  rfl

theorem settleOutcome_silent (worker : Worker) (world : World ω) (name : String)
    (outcome : Outcome ω) : Silent (worker.settleOutcome world name outcome).calls := by
  cases outcome with
  | handled e => simp [Worker.settleOutcome, Silent, Call.isDispatch, Call.skips, Call.raised]
  | skipped e => simp [Worker.settleOutcome, Silent, Call.isDispatch, Call.skips, Call.raised]
  | failed current error =>
    rcases hd : errorDetailsOf error with raised | details
    · rw [settleOutcome_unreportable_calls worker world name current hd]
      simp [Silent]
    · obtain ⟨announced, settled, hsilent, -, htail⟩ :=
        settleOutcome_failed_calls worker world name current hd
      rw [htail]
      exact hsilent.append (by simp [Silent, Call.isDispatch, Call.skips, Call.raised])

theorem resetting_silent (worker : Worker) (world : World ω) :
    Silent (worker.resetting world).calls := by
  unfold Worker.resetting
  split_ifs <;> simp [Silent, Call.isDispatch, Call.skips, Call.raised]

theorem resetting_unsettled (worker : Worker) (world : World ω) :
    ∀ c ∈ (worker.resetting world).calls, c.isAck = false ∧ c.isReject = false := by
  unfold Worker.resetting
  split_ifs <;> simp [Call.isAck, Call.isReject]

theorem settle_calls (worker : Worker) (world : World ω) (envelope : Envelope ω) :
    let name := receiverNameOf envelope worker.receiverName
    let handled := (handle world.bus (worker.named envelope) name (worker.dispatcher world)).calls
    ∃ outcome, Handling outcome handled ∧ (worker.settle world envelope).calls = handled ++
      ((worker.settleOutcome world name outcome).calls ++ (worker.resetting world).calls) := by
  obtain ⟨o, ho, hh⟩ := handle_handling world.bus (worker.named envelope)
    (receiverNameOf envelope worker.receiverName) (worker.dispatcher world)
  refine ⟨o, hh, ?_⟩
  simp only [Worker.settle, Traced.finallyDo_calls, Traced.bind_of_ok _ ho, List.append_assoc]

section Tail
variable {worker : Worker} {world : World ω} {tail : List (Call ω)}

theorem countP_isSettlement_tail :
    (tail ++ (worker.resetting world).calls).countP Call.isSettlement =
      tail.countP Call.isSettlement := by
  have hreset : (worker.resetting world).calls.countP Call.isSettlement = 0 :=
    List.countP_eq_zero.mpr fun c hc => by
      simp [Call.isSettlement, resetting_unsettled worker world c hc]
  rw [List.countP_append, hreset, Nat.add_zero]

theorem SettledOnce.of_acked {o : Outcome ω} {calls : List (Call ω)} {settled : Envelope ω}
    (h : Handling o calls) (ho : ∀ e error, o ≠ .failed e error)
    (ht : tail = [.ack settled (world.ack settled)]) :
    SettledOnce (calls ++ (tail ++ (worker.resetting world).calls)) := by
  have hsilent : Silent tail := by
    simp [ht, Silent, Call.isDispatch, Call.skips, Call.raised]
  apply SettledOnce.of_ack h ho (hsilent.append (resetting_silent worker world))
  · rw [countP_isSettlement_tail, ht]
    rfl
  · rw [List.forall_mem_append]
    constructor
    · simp [ht, Call.isReject]
    · exact fun c hc => (resetting_unsettled worker world c hc).2

theorem SettledOnce.of_rejected {e settled : Envelope ω} {error : Exc ω}
    {calls announced : List (Call ω)} (h : Handling (.failed e error) calls)
    (hs : Silent announced) (hn : ∀ c ∈ announced, c.isSettlement = false)
    (ht : tail = announced ++ [.reject settled (world.reject settled)]) :
    SettledOnce (calls ++ (tail ++ (worker.resetting world).calls)) := by
  have hsilent : Silent tail := by
    rw [ht]
    exact hs.append (by simp [Silent, Call.isDispatch, Call.skips, Call.raised])
  have hunacked : ∀ c ∈ announced, c.isAck = false := by
    intro c hc
    have hunsettled := hn c hc
    simp only [Call.isSettlement, Bool.or_eq_false_iff] at hunsettled
    exact hunsettled.1
  apply SettledOnce.of_reject h (hsilent.append (resetting_silent worker world))
  · rw [countP_isSettlement_tail, ht, List.countP_append,
      List.countP_eq_zero.mpr fun c hc => by simp [hn c hc]]
    rfl
  · rw [List.forall_mem_append, ht, List.forall_mem_append]
    constructor
    · exact ⟨hunacked, by simp [Call.isAck]⟩
    · exact fun c hc => (resetting_unsettled worker world c hc).1

end Tail

theorem Silent.reports {calls tail : List (Call ω)} (ht : Silent tail)
    (h : ∀ c ∈ calls, ∀ error ∈ c.raised, error.Reportable) :
    ∀ c ∈ calls ++ tail, ∀ error ∈ c.raised, error.Reportable := by
  rw [List.forall_mem_append]
  constructor
  · exact h
  · intro c hc error he
    simp [(ht c hc).2.2] at he

/-- A message is settled once, by the right call, exactly when what handling it raised,
if anything, can be reported. -/
theorem settle_settledOnce_iff (worker : Worker) (world : World ω) (envelope : Envelope ω) :
    SettledOnce (worker.settle world envelope).calls ↔
      ∀ c ∈ (worker.settle world envelope).calls, ∀ error ∈ c.raised, error.Reportable := by
  obtain ⟨o, hh, heq⟩ := settle_calls worker world envelope
  have htail := (settleOutcome_silent worker world (receiverNameOf envelope worker.receiverName)
    o).append (resetting_silent worker world)
  rw [heq]
  cases o with
  | handled settled =>
    apply iff_of_true (.of_acked hh (by simp) rfl)
    apply htail.reports
    intro c hc error he
    simp [hh.told.2 c hc] at he
  | skipped settled =>
    apply iff_of_true (.of_acked hh (by simp) rfl)
    apply htail.reports
    intro c hc error he
    simp [hh.told.2 c hc] at he
  | failed current error =>
    obtain ⟨-, ⟨r, hr, hraised⟩, hall⟩ := hh.told
    rcases hd : errorDetailsOf error with raised | details
    · -- the details could not be written, so nothing settles the message
      rw [settleOutcome_unreportable_calls worker world _ current hd]
      apply iff_of_false
      · intro hs
        have honce := hs.once
        rw [List.countP_append, countP_isSettlement_tail,
          List.countP_eq_zero.mpr fun c hc => by simp [hh.unsettled c hc]] at honce
        simp at honce
      · intro hrep
        have hreportable : error.Reportable := hrep r (by simp [hr]) error (by simp [hraised])
        obtain ⟨d, hd'⟩ := (reportable_iff error).mp hreportable
        simp [hd] at hd'
    · obtain ⟨announced, settled, hs, hn, ht⟩ := settleOutcome_failed_calls worker world
        (receiverNameOf envelope worker.receiverName) current hd
      apply iff_of_true (.of_rejected hh hs hn ht)
      apply htail.reports
      intro c hc e he
      exact hall c hc e he ▸ (reportable_iff error).mpr ⟨details, hd⟩

end Spec
end XtrMessenger
