import XtrMessenger.Exceptions
import XtrMessenger.Foundation.Traced

/-! One message's way through a worker, announced to listeners. The bus, the listeners
and the receiver are answers the world gives; each call of them is logged. -/
namespace XtrMessenger
open Foundation

/-- What the listeners of the message events make of an event: the stamps they add, and
what one of them raised. -/
structure Listeners (ω : Type) where
  /-- The stamps added, and whether the message is still to be handled. -/
  received : Envelope ω → String → Except (Exc ω) (List (Stamp ω) × Bool)
  handled : Envelope ω → String → Except (Exc ω) (List (Stamp ω))
  /-- The stamps added before one raised, if one did, stay on the event. -/
  failed : Envelope ω → String → Exc ω → Bool → List (Stamp ω) × Option (Exc ω)

/-- A call a worker makes about a message, with its answer. -/
inductive Call (ω : Type)
  | received (envelope : Envelope ω) (receiverName : String)
      (answer : Except (Exc ω) (List (Stamp ω) × Bool))
  | dispatch (envelope : Envelope ω) (answer : Except (Exc ω) (Envelope ω))
  | handled (envelope : Envelope ω) (receiverName : String)
      (answer : Except (Exc ω) (List (Stamp ω)))
  | failed (envelope : Envelope ω) (receiverName : String) (error : Exc ω) (willRetry : Bool)
      (raised : Option (Exc ω))
  | ack (envelope : Envelope ω) (raised : Option (Exc ω))
  | reject (envelope : Envelope ω) (raised : Option (Exc ω))
  | reset (raised : Option (Exc ω))

/-- How handling a message came out, with the envelope to settle. -/
inductive Outcome (ω : Type)
  | handled (envelope : Envelope ω)
  | skipped (envelope : Envelope ω)
  | failed (envelope : Envelope ω) (error : Exc ω)

variable {ω : Type}

/-- `return` when nothing was raised, `raise` otherwise. -/
def raising : Option (Exc ω) → Except (Exc ω) Unit
  | none => .ok ()
  | some e => .error e

def receiverNameOf (envelope : Envelope ω) (default : Option String) : String :=
  match default with
  | some name => name
  | none => ((envelope.last (.shipped .received)).bind Stamp.transportName?).getD ""

abbrev Bus (ω : Type) := Envelope ω → Except (Exc ω) (Envelope ω)

/-- A step of `handle` taken with `current` in hand: what it raises is kept beside the
last envelope known before it did. -/
def knowing (current : Envelope ω) {α : Type} (x : Traced (Call ω) (Exc ω) α) :
    Traced (Call ω) (Envelope ω × Exc ω) α := x.mapError fun error => (current, error)

def handle (bus : Bus ω) (envelope : Envelope ω) (receiverName : String)
    (dispatcher : Option (Listeners ω)) : Traced (Call ω) (Exc ω) (Outcome ω) := do
  let outcome ← Traced.attempt (do
    let (current, shouldHandle) ← match dispatcher with
      | none => pure (envelope, true)
      | some listeners =>
        let answer := listeners.received envelope receiverName
        knowing envelope (do
          let (stamps, shouldHandle) ← Traced.call (.received envelope receiverName answer) answer
          return (envelope.withStamps stamps, shouldHandle))
    if !shouldHandle then return .skipped current
    let answer := bus current
    let current ← knowing current (Traced.call (.dispatch current answer) answer)
    let current ← match dispatcher with
      | none => pure current
      | some listeners =>
        let answer := listeners.handled current receiverName
        knowing current (do
          let stamps ← Traced.call (.handled current receiverName answer) answer
          return current.withStamps stamps)
    return .handled current)
  match outcome with
  | .ok outcome => return outcome
  | .error (current, error) => return .failed current error

/-- What went wrong is what a handler raised, not that handlers failed. With no handler's
error to take, `next` raises inside the coroutine, which Python turns into a
`RuntimeError`. -/
def causeOf : Exc ω → Except (Exc ω) (Exc ω)
  | .handlersFailed _ [] _ => .error (.exception "RuntimeError" "coroutine raised StopIteration")
  | .handlersFailed _ ((_, first) :: _) _ => .ok first
  | error => .ok error

def errorDetailsOf (error : Exc ω) : Except (Exc ω) (Stamp ω) := do
  let cause ← causeOf error
  let text ← cause.str
  return .shipped (.errorDetails cause.typeName text)

def announceFailure (envelope : Envelope ω) (error : Exc ω) (receiverName : String)
    (dispatcher : Option (Listeners ω)) (settle : Envelope ω → Traced (Call ω) (Exc ω) Unit)
    (willRetry : Bool) : Traced (Call ω) (Exc ω) Unit := do
  let details ← Traced.lift (errorDetailsOf error)
  let envelope := envelope.withStamps [details]
  match dispatcher with
  | none => settle envelope
  | some listeners =>
    let (stamps, raised) := listeners.failed envelope receiverName error willRetry
    (Traced.call (.failed envelope receiverName error willRetry raised) (raising raised)).finallyDo
      (settle (envelope.withStamps stamps))

/-- Whether `announceFailure` can say why handling failed: the text it stamps can be read. -/
def Exc.Reportable : Exc ω → Prop
  | .handlersFailed _ errors _ => ∃ first, errors.head? = some first ∧ first.2.Printable
  | error => error.Printable

theorem reportable_iff (error : Exc ω) :
    error.Reportable ↔ ∃ details, errorDetailsOf error = .ok details := by
  have hstr : ∀ e : Exc ω, e.Printable ↔ ∃ d,
      (do let text ← e.str; return Stamp.shipped (.errorDetails e.typeName text) :
        Except (Exc ω) (Stamp ω)) = .ok d := by
    intro e
    unfold Exc.Printable
    cases e.str <;> simp [bind, Except.bind, pure, Except.pure]
  cases error with
  | handlersFailed e errors t =>
    cases errors with
    | nil => simp [Exc.Reportable, errorDetailsOf, causeOf, bind, Except.bind]
    | cons first rest =>
      obtain ⟨name, first⟩ := first
      have hfirst : (Exc.handlersFailed e ((name, first) :: rest) t).Reportable ↔
          first.Printable := by simp [Exc.Reportable]
      exact hfirst.trans (hstr first)
  | exception c t => exact hstr (.exception c t)
  | unprintable c r => exact hstr (.unprintable c r)
  | delayedMessageHandling e es t => exact hstr (.delayedMessageHandling e es t)
  | messageEncodingFailed r n t => exact hstr (.messageEncodingFailed r n t)
  | messageDecodingFailed r n t => exact hstr (.messageDecodingFailed r n t)

end XtrMessenger
