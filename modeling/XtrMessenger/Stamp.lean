/-! Envelope stamps and the classes `isinstance` tells them apart by. -/
namespace XtrMessenger

/-- The stamp classes the package ships. -/
inductive StampKind
  | delay | errorDetails | redelivery | transportMessageId | transportNames
  | ackReceipt | dispatchAfterCurrentBus | handled | received | sent
  deriving DecidableEq, Repr

namespace StampKind

/-- `__name__` of the class. -/
def name : StampKind → String
  | delay => "DelayStamp"
  | errorDetails => "ErrorDetailsStamp"
  | redelivery => "RedeliveryStamp"
  | transportMessageId => "TransportMessageIdStamp"
  | transportNames => "TransportNamesStamp"
  | ackReceipt => "AckReceiptStamp"
  | dispatchAfterCurrentBus => "DispatchAfterCurrentBusStamp"
  | handled => "HandledStamp"
  | received => "ReceivedStamp"
  | sent => "SentStamp"

/-- The module of `xtr_messenger.stamp` that defines the class. -/
def moduleName : StampKind → String
  | delay => "delay_stamp"
  | errorDetails => "error_details_stamp"
  | redelivery => "redelivery_stamp"
  | transportMessageId => "transport_message_id_stamp"
  | transportNames => "transport_names_stamp"
  | ackReceipt => "ack_receipt_stamp"
  | dispatchAfterCurrentBus => "dispatch_after_current_bus_stamp"
  | handled => "handled_stamp"
  | received => "received_stamp"
  | sent => "sent_stamp"

/-- Whether the class derives from `NonSendableStampInterface`. -/
def nonSendable : StampKind → Bool
  | ackReceipt | dispatchAfterCurrentBus | handled | received | sent => true
  | _ => false

end StampKind

/-- The fields of a shipped stamp; `ω` stands for arbitrary Python objects. -/
inductive ShippedStamp (ω : Type)
  | delay (delayMs : Int)
  | errorDetails (exceptionClass exceptionMessage : String)
  | redelivery (retryCount : Int)
  | transportMessageId (messageId : String)
  | transportNames (transportNames : List String)
  | ackReceipt (receipt : Int)
  | dispatchAfterCurrentBus
  | handled (handlerName : String) (result : ω)
  | received (transportName : String)
  | sent (senderClass senderAlias : String)
  deriving DecidableEq, Repr

variable {ω : Type}

def ShippedStamp.kind : ShippedStamp ω → StampKind
  | delay _ => .delay
  | errorDetails _ _ => .errorDetails
  | redelivery _ => .redelivery
  | transportMessageId _ => .transportMessageId
  | transportNames _ => .transportNames
  | ackReceipt _ => .ackReceipt
  | dispatchAfterCurrentBus => .dispatchAfterCurrentBus
  | handled _ _ => .handled
  | received _ => .received
  | sent _ _ => .sent

/-- A stamp class an application defines. `id` is the identity of the class object:
two classes may share a `name`. -/
structure AppStampClass where
  id : Nat
  name : String
  module : String
  qualname : String
  /-- The shipped stamp class it inherits from, if any. -/
  base : Option StampKind
  /-- Whether it names `NonSendableStampInterface` among its bases. -/
  marked : Bool
  deriving DecidableEq, Repr

/-- A stamp class object. -/
inductive StampClass
  | shipped (kind : StampKind)
  | app (cls : AppStampClass)
  deriving DecidableEq, Repr

namespace StampClass

def name : StampClass → String
  | shipped k => k.name
  | app c => c.name

/-- `issubclass(cls, NonSendableStampInterface)`. -/
def nonSendable : StampClass → Bool
  | shipped k => k.nonSendable
  | app c => c.marked || c.base.any StampKind.nonSendable

end StampClass

/-- An instance of an application's stamp class, with the fields of the shipped class
it inherits from. -/
structure AppStamp (ω : Type) where
  cls : AppStampClass
  inherited : Option (ShippedStamp ω)
  payload : ω
  fits : inherited.map ShippedStamp.kind = cls.base
  deriving DecidableEq

inductive Stamp (ω : Type)
  | shipped (stamp : ShippedStamp ω)
  | app (stamp : AppStamp ω)
  deriving DecidableEq

/-- What `all`, `last` and `without_stamps` filter by: the classes the package asks
`isinstance` about. -/
inductive StampBase
  | nonSendable
  | shipped (kind : StampKind)
  deriving DecidableEq, Repr

namespace Stamp

/-- `type(stamp)`. -/
def cls : Stamp ω → StampClass
  | shipped s => .shipped s.kind
  | app s => .app s.cls

/-- The stamp as an instance of the shipped class it is or inherits from. -/
def asShipped : Stamp ω → Option (ShippedStamp ω)
  | shipped s => some s
  | app s => s.inherited

def isInstance (s : Stamp ω) : StampBase → Bool
  | .nonSendable => s.cls.nonSendable
  | .shipped k => (s.asShipped.map ShippedStamp.kind) = some k

def receipt? (s : Stamp ω) : Option Int :=
  match s.asShipped with
  | some (.ackReceipt r) => some r
  | _ => none

def transportName? (s : Stamp ω) : Option String :=
  match s.asShipped with
  | some (.received n) => some n
  | _ => none

def delayMs? (s : Stamp ω) : Option Int :=
  match s.asShipped with
  | some (.delay ms) => some ms
  | _ => none

/-- `isinstance` asks about the class alone. -/
theorem isInstance_congr {s t : Stamp ω} (h : s.cls = t.cls) (b : StampBase) :
    s.isInstance b = t.isInstance b := by
  have hkind : ∀ s : Stamp ω, s.asShipped.map ShippedStamp.kind = match s.cls with
      | .shipped k => some k
      | .app c => c.base := by
    intro s
    cases s with
    | shipped s => rfl
    | app s => exact s.fits
  cases b with
  | nonSendable => simp [isInstance, h]
  | shipped k => simp only [isInstance, hkind, h]

end Stamp
end XtrMessenger
