import XtrMessenger.Exceptions
import XtrMessenger.Foundation.Machine
import XtrMessenger.Foundation.History
import Mathlib.Logic.Function.Basic

/-! Dispatches through buses that begin with `DispatchAfterCurrentBusMiddleware`, as a
machine. A dispatch belongs to a context; contexts made from one another share what it holds. -/
namespace XtrMessenger
open Foundation

/-- `StackMiddleware`: a single-use cursor over a middleware chain. -/
structure StackMiddleware (μ : Type) where
  middlewares : List μ
  offset : Nat := 0

namespace StackMiddleware
variable {μ : Type}

/-- The next middleware, none for the identity tail, and the cursor past it. -/
def next (stack : StackMiddleware μ) : Option μ × StackMiddleware μ :=
  match stack.middlewares[stack.offset]? with
  | none => (none, stack)
  | some middleware => (some middleware, { stack with offset := stack.offset + 1 })

/-- The middleware still to be walked. -/
def remaining (stack : StackMiddleware μ) : List μ := stack.middlewares.drop stack.offset

theorem remaining_eq (stack : StackMiddleware μ) :
    stack.remaining = stack.next.1.toList ++ stack.next.2.remaining := by
  unfold next remaining
  cases h : stack.middlewares[stack.offset]? with
  | none => simp
  | some middleware =>
    obtain ⟨hlt, rfl⟩ := List.getElem?_eq_some_iff.mp h
    exact List.drop_eq_getElem_cons hlt

end StackMiddleware

/-- A middleware of a chain; `μ` stands for all the others. -/
inductive Middleware (μ : Type)
  | dispatchAfterCurrentBus
  | other (middleware : μ)

/-- A bus whose chain begins with `DispatchAfterCurrentBusMiddleware`. -/
structure MessageBus (μ : Type) where
  middlewares : List (Middleware μ)
  first : middlewares.head? = some .dispatchAfterCurrentBus

/-- The cursor `dispatch` hands to the first middleware. -/
def MessageBus.stack {μ : Type} (bus : MessageBus μ) : StackMiddleware (Middleware μ) :=
  (StackMiddleware.mk bus.middlewares 0).next.2

theorem MessageBus.stack_remaining {μ : Type} (bus : MessageBus μ) :
    bus.stack.remaining = bus.middlewares.tail := by
  obtain ⟨_ | ⟨m, ms⟩, hfirst⟩ := bus
  · simp at hfirst
  · simp [stack, StackMiddleware.next, StackMiddleware.remaining]

namespace DispatchAfterCurrentBus
variable {μ ω : Type}

/-- A message dispatched through a bus, as it was handed over. -/
structure Dispatch (μ ω : Type) where
  id : Nat
  bus : MessageBus μ
  envelope : Envelope ω

def stamped (envelope : Envelope ω) : Bool :=
  (envelope.last (.shipped .dispatchAfterCurrentBus)).isSome

/-- An entry of `_Held.envelopes`. -/
structure Waiting (μ ω : Type) where
  id : Nat
  envelope : Envelope ω
  stack : StackMiddleware (Middleware μ)

/-- `_Held`, with the local variables of the `_current` it belongs to. -/
structure Held (μ ω : Type) where
  envelopes : List (Waiting μ ω) := []
  isOpen : Bool := true
  context : Nat
  token : Option Nat
  /-- Whose chain `_current` awaits: the current message, then one held back after the other. -/
  handling : Nat
  handled : Option (Envelope ω) := none
  errors : List (Exc ω) := []

/-- What becomes of a dispatched message. -/
inductive Fate
  /-- Held back, while the message `handling` was handled. -/
  | held (hold handling : Nat)
  | nested
  | current
  deriving DecidableEq, Repr

/-- What a chain that is running was entered for. -/
inductive Role
  | nested
  | current
  | drained (hold : Nat)
  deriving DecidableEq, Repr

inductive Event (μ ω : Type)
  /-- A message held back returns at once; any other enters the rest of its chain. -/
  | dispatched (dispatch : Dispatch μ ω) (context : Nat) (fate : Fate)
  /-- A message held back enters the rest of its chain. -/
  | drained (hold : Nat) (waiting : Waiting μ ω)
  | finished (role : Role) (id : Nat) (outcome : Except (Exc ω) (Envelope ω))
  | ended (hold : Nat) (result : Except (Exc ω) (Envelope ω))

inductive Action (μ ω : Type)
  /-- A context is made, empty or as a copy of another. -/
  | context (inherits : Option Nat)
  | dispatch (context : Nat) (bus : MessageBus μ) (envelope : Envelope ω)
  | finish (id : Nat) (outcome : Except (Exc ω) (Envelope ω))

/-- A message is named by the number of its dispatch, a hold by that of its current message. -/
structure State (μ ω : Type) where
  contexts : Nat := 0
  held : Nat → Option Nat := fun _ => none
  dispatches : Nat := 0
  running : Nat → Option Role := fun _ => none
  holds : Nat → Option (Held μ ω) := fun _ => none
  log : List (Event μ ω) := []

namespace State

/-- What the message being handled in a context holds back. -/
def currentIn (s : State μ ω) (context : Nat) : Option (Nat × Held μ ω) :=
  (s.held context).bind fun h => (s.holds h).bind fun hold =>
    if hold.isOpen then some (h, hold) else none

/-- The message is held back, and its dispatch returns. -/
def holdBack (s : State μ ω) (d : Dispatch μ ω) (context h : Nat) (hold : Held μ ω) : State μ ω :=
  { s with
    dispatches := d.id + 1
    holds := Function.update s.holds h (some { hold with
      envelopes := hold.envelopes ++
        [⟨d.id, d.envelope.withoutStamps (.shipped .dispatchAfterCurrentBus), d.bus.stack⟩] })
    log := s.log ++ [.dispatched d context (.held h hold.handling)] }

/-- The message is passed on while another is current. -/
def nest (s : State μ ω) (d : Dispatch μ ω) (context : Nat) : State μ ω :=
  { s with
    dispatches := d.id + 1
    running := Function.update s.running d.id (some .nested)
    log := s.log ++ [.dispatched d context .nested] }

/-- `_current`, up to its first await. -/
def becomeCurrent (s : State μ ω) (d : Dispatch μ ω) (context : Nat) : State μ ω :=
  { s with
    dispatches := d.id + 1
    held := Function.update s.held context (some d.id)
    running := Function.update s.running d.id (some .current)
    holds := Function.update s.holds d.id
      (some { context, token := s.held context, handling := d.id })
    log := s.log ++ [.dispatched d context .current] }

/-- The middleware's `handle`, up to its first await. -/
def dispatch (s : State μ ω) (context : Nat) (bus : MessageBus μ) (envelope : Envelope ω) :
    State μ ω :=
  let d := ⟨s.dispatches, bus, envelope⟩
  match s.currentIn context with
  | some (h, hold) => if stamped envelope then s.holdBack d context h hold else s.nest d context
  | none => s.becomeCurrent d context

/-- The `finally` block of `_current`, and how it ends. -/
def close (s : State μ ω) (h : Nat) (hold : Held μ ω) (result : Except (Exc ω) (Envelope ω)) :
    State μ ω :=
  { s with
    held := Function.update s.held hold.context hold.token
    holds := Function.update s.holds h (some { hold with envelopes := [], isOpen := false })
    log := s.log ++ [.ended h result] }

/-- How `_current` ends once nothing is held back. -/
def settled [PyObject ω] (handled : Envelope ω) (errors : List (Exc ω)) :
    Except (Exc ω) (Envelope ω) :=
  if errors.isEmpty then .ok handled
  else match Exc.delayedMessageHandlingError handled errors with
    | .ok error | .error error => .error error

/-- The `while` loop of `_current`, up to its next await. -/
def drain [PyObject ω] (s : State μ ω) (h : Nat) (hold : Held μ ω) (handled : Envelope ω) :
    State μ ω :=
  match hold.envelopes with
  | waiting :: envelopes =>
    { s with
      running := Function.update s.running waiting.id (some (.drained h))
      holds := Function.update s.holds h (some { hold with envelopes, handling := waiting.id })
      log := s.log ++ [.drained h waiting] }
  | [] => s.close h hold (settled handled hold.errors)

/-- The rest of a chain has returned or raised. -/
def leave (s : State μ ω) (role : Role) (id : Nat) (outcome : Except (Exc ω) (Envelope ω)) :
    State μ ω :=
  { s with
    running := Function.update s.running id none
    log := s.log ++ [.finished role id outcome] }

end State

/-- What a chain raised, if it did. -/
def failureOf : Except (Exc ω) (Envelope ω) → List (Exc ω)
  | .ok _ => []
  | .error error => [error]

def step [PyObject ω] (s : State μ ω) : Action μ ω → Option (State μ ω)
  | .context none => some { s with contexts := s.contexts + 1 }
  | .context (some parent) =>
    if parent < s.contexts then
      some { s with
        contexts := s.contexts + 1
        held := Function.update s.held s.contexts (s.held parent) }
    else none
  | .dispatch context bus envelope =>
    if context < s.contexts then some (s.dispatch context bus envelope) else none
  | .finish id outcome =>
    match s.running id with
    | none => none
    | some .nested => some (s.leave .nested id outcome)
    | some .current => (s.holds id).map fun hold =>
      let left := s.leave .current id outcome
      match outcome with
      | .error error => left.close id hold (.error error)
      | .ok handled => left.drain id { hold with handled := some handled } handled
    | some (.drained h) => (s.holds h).bind fun hold => hold.handled.map fun handled =>
      (s.leave (.drained h) id outcome).drain h
        { hold with errors := hold.errors ++ failureOf outcome } handled

/-- What a step can do, one constructor for each way it can go. -/
inductive Steps [PyObject ω] (s : State μ ω) : Action μ ω → State μ ω → Prop
  | context (inherits : Option Nat) (held : Nat → Option Nat) :
    Steps s (.context inherits) { s with contexts := s.contexts + 1, held }
  | held (context : Nat) (bus : MessageBus μ) (envelope : Envelope ω) {h : Nat} {hold : Held μ ω}
    (hs : s.holds h = some hold) (ho : hold.isOpen = true) (he : stamped envelope = true) :
    Steps s (.dispatch context bus envelope)
      (s.holdBack ⟨s.dispatches, bus, envelope⟩ context h hold)
  | nested (context : Nat) (bus : MessageBus μ) (envelope : Envelope ω)
    (he : stamped envelope = false) :
    Steps s (.dispatch context bus envelope) (s.nest ⟨s.dispatches, bus, envelope⟩ context)
  | current (context : Nat) (bus : MessageBus μ) (envelope : Envelope ω) :
    Steps s (.dispatch context bus envelope)
      (s.becomeCurrent ⟨s.dispatches, bus, envelope⟩ context)
  | nestedFinished (id : Nat) (outcome : Except (Exc ω) (Envelope ω)) :
    Steps s (.finish id outcome) (s.leave .nested id outcome)
  | currentRaised (id : Nat) (error : Exc ω) {hold : Held μ ω}
    (hr : s.running id = some .current) (hs : s.holds id = some hold) :
    Steps s (.finish id (.error error))
      ((s.leave .current id (.error error)).close id hold (.error error))
  | currentReturned (id : Nat) (handled : Envelope ω) {hold : Held μ ω}
    (hr : s.running id = some .current) (hs : s.holds id = some hold) :
    Steps s (.finish id (.ok handled)) ((s.leave .current id (.ok handled)).drain id
      { hold with handled := some handled } handled)
  | drainedFinished (id : Nat) (outcome : Except (Exc ω) (Envelope ω)) {h : Nat} {hold : Held μ ω}
    {handled : Envelope ω} (hr : s.running id = some (.drained h)) (hs : s.holds h = some hold)
    (hh : hold.handled = some handled) :
    Steps s (.finish id outcome) ((s.leave (.drained h) id outcome).drain h
      { hold with errors := hold.errors ++ failureOf outcome } handled)

theorem currentIn_eq_some {s : State μ ω} {context h : Nat} {hold : Held μ ω}
    (hc : s.currentIn context = some (h, hold)) : s.holds h = some hold ∧ hold.isOpen = true := by
  obtain ⟨h', -, hc⟩ := Option.bind_eq_some_iff.mp hc
  obtain ⟨hold', hs, hc⟩ := Option.bind_eq_some_iff.mp hc
  split_ifs at hc with ho
  obtain ⟨rfl, rfl⟩ : h' = h ∧ hold' = hold := by simpa using hc
  exact ⟨hs, ho⟩

theorem steps_of_step [PyObject ω] {s t : State μ ω} {a : Action μ ω} (h : step s a = some t) :
    Steps s a t := by
  cases a with
  | context inherits =>
    cases inherits with
    | none =>
      obtain rfl := Option.some.inj h
      exact .context none s.held
    | some parent =>
      simp only [step] at h
      split_ifs at h
      obtain rfl := Option.some.inj h
      exact .context (some parent) _
  | dispatch context bus envelope =>
    simp only [step] at h
    split_ifs at h
    obtain rfl := Option.some.inj h
    unfold State.dispatch
    split
    · rename_i h hold hc
      obtain ⟨hs, ho⟩ := currentIn_eq_some hc
      split_ifs with he
      · exact .held context bus envelope hs ho he
      · exact .nested context bus envelope (by simpa using he)
    · exact .current context bus envelope
  | finish id outcome =>
    simp only [step] at h
    split at h
    · simp at h
    · obtain rfl := Option.some.inj h
      exact .nestedFinished id outcome
    · obtain ⟨hold, hs, rfl⟩ := Option.map_eq_some_iff.mp h
      cases outcome with
      | error e => exact .currentRaised id e ‹_› hs
      | ok handled => exact .currentReturned id handled ‹_› hs
    · obtain ⟨hold, hs, h⟩ := Option.bind_eq_some_iff.mp h
      obtain ⟨handled, hh, rfl⟩ := Option.map_eq_some_iff.mp h
      exact .drainedFinished id outcome ‹_› hs hh

/-- No message dispatched yet, and everything that may happen from then on. -/
def machine (μ ω : Type) [PyObject ω] : Machine (State μ ω) (Action μ ω) where
  init s := s = {}
  step := step

end DispatchAfterCurrentBus
end XtrMessenger
