import XtrMessenger.Foundation.Traced
import XtrMessenger.Serialization.Registries

/-! What a bus dispatches, whom it calls, and the chain of middleware it runs. -/
namespace XtrMessenger.Bus
open Foundation
variable {ω : Type}

/-- What a `RedispatchMessage` is given to carry: an envelope, or a bare message. -/
inductive Carried (ω : Type)
  | envelope (envelope : Envelope ω)
  | message (message : ω)

structure RedispatchMessage (ω : Type) where
  envelope : Carried ω
  transportNames : List String

namespace RedispatchMessage

/-- `__init__`: empty transport names are dropped. -/
def of (envelope : Carried ω) (transportNames : List String) : RedispatchMessage ω :=
  ⟨envelope, transportNames.filter fun name => name ≠ ""⟩

/-- The `message` property. -/
def message (r : RedispatchMessage ω) : ω :=
  match r.envelope with
  | .envelope envelope => envelope.message
  | .message message => message

end RedispatchMessage

/-- `Envelope.wrap`, without stamps to add. -/
def wrap : Carried ω → Envelope ω
  | .envelope envelope => envelope
  | .message message => ⟨message, []⟩

/-- The class `RedispatchMessage`. -/
def redispatchMessage : PyType :=
  ⟨1, "xtr_messenger.message.redispatch_message", "RedispatchMessage"⟩

/-- Objects a bus may dispatch: their classes have bases, and some are `RedispatchMessage`s. -/
class Messages (ω : Type) extends PyObject ω where
  /-- `__mro__` past the class itself. -/
  bases : PyType → List PyType
  asRedispatch : ω → Option (RedispatchMessage ω)
  isSome_asRedispatch : ∀ message, (asRedispatch message).isSome = true ↔
    redispatchMessage ∈ typeOf message :: bases (typeOf message)
  /-- `None`. -/
  none : ω

def mro (ω : Type) [Messages ω] (messageType : PyType) : List PyType :=
  messageType :: Messages.bases ω messageType

/-- A message an application declares, and a request to redispatch it. -/
inductive Sample
  | report
  | redispatch
  deriving DecidableEq

instance : PyObject Sample := ⟨fun
  | .report => ⟨2, "app.messages", "BuildReport"⟩
  | .redispatch => redispatchMessage⟩

/-- The class `object`. -/
def object : PyType := ⟨3, "builtins", "object"⟩

instance : Messages Sample where
  bases _ := [object]
  asRedispatch
    | .report => Option.none
    | .redispatch => some (.of (.message .report) [])
  isSome_asRedispatch message := by cases message <;> decide
  none := .report

/-- A transport's send half; `className` is `type(sender).__name__`. -/
structure Sender (ω : Type) where
  className : String
  send : Envelope ω → Except (Exc ω) (Envelope ω)

/-- A registered handler; `handler` is the identity of what was declared. -/
structure HandlerDescriptor (ω : Type) where
  handler : Nat
  name : String
  wantsEnvelope : Bool
  call : ω → Option (Envelope ω) → Except (Exc ω) ω

def HandlerDescriptor.invoke (d : HandlerDescriptor ω) (envelope : Envelope ω) :
    Except (Exc ω) ω :=
  d.call envelope.message (if d.wantsEnvelope then some envelope else none)

/-- A call made while a message is dispatched. What a sender or a handler does in turn, a
dispatch of its own among it, is behind its answer. -/
inductive BusCall (ω : Type)
  | send (senderAlias : String) (envelope : Envelope ω) (answer : Except (Exc ω) (Envelope ω))
  | invoke (descriptor : HandlerDescriptor ω) (envelope : Envelope ω) (answer : Except (Exc ω) ω)
  /-- The redispatch handler dispatches through the publishing bus. -/
  | publish (envelope : Envelope ω) (answer : Except (Exc ω) (Envelope ω))

def BusCall.isSend : BusCall ω → Bool
  | .send _ _ _ => true
  | _ => false

abbrev Dispatching (ω : Type) := Traced (BusCall ω) (Exc ω)

/-- A middleware's `handle`, given what `stack.next().handle` does. -/
abbrev Middleware (ω : Type) :=
  Envelope ω → (Envelope ω → Dispatching ω (Envelope ω)) → Dispatching ω (Envelope ω)

/-- The chain a cursor walks: past the last middleware, the envelope as it is. -/
def chain : List (Middleware ω) → Envelope ω → Dispatching ω (Envelope ω)
  | [], envelope => pure envelope
  | middleware :: rest, envelope => middleware envelope (chain rest)

def dispatch (middlewares : List (Middleware ω)) (envelope : Envelope ω)
    (stamps : List (Stamp ω)) : Dispatching ω (Envelope ω) :=
  chain middlewares (envelope.withStamps stamps)

/-- `DispatchAfterCurrentBusMiddleware` on a message it does not hold back; `after` is what
dispatching those held back meanwhile comes to. -/
def dispatchAfterCurrentBus (after : Envelope ω → Except (Exc ω) Unit) : Middleware ω :=
  fun envelope next => do
    let handled ← next (envelope.withoutStamps (.shipped .dispatchAfterCurrentBus))
    Traced.lift (after handled)
    return handled

/-- `", ".join(names)`. -/
def joined (names : List String) : String := ", ".intercalate names

/-- `", ".join(names) or "<none>"`. -/
def listed (names : List String) : String :=
  if joined names = "" then "<none>" else joined names

/-- `sorted(names)`. -/
def sorted (names : List String) : List String := names.mergeSort fun a b => decide (a ≤ b)

def unknownTransportError (names known : List String) : Exc ω :=
  .exception "UnknownTransportError"
    ("unknown transport(s): " ++ joined names ++ "; defined: " ++ listed (sorted known))

def noSenderForMessageError (messageType : PyType) (routedTypes : List String) : Exc ω :=
  .exception "NoSenderForMessageError" ("no transport routed for " ++ messageType.module ++ "." ++
    messageType.qualname ++ "; routed types: " ++ listed routedTypes)

def noHandlerForMessageError (messageType : PyType) (handledTypes : List String) : Exc ω :=
  .exception "NoHandlerForMessageError" ("no handler registered for " ++ messageType.module ++
    "." ++ messageType.qualname ++ "; import the module that declares it. handled types: " ++
    listed handledTypes)

end XtrMessenger.Bus
