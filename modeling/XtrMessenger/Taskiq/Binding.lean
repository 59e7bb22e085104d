import XtrMessenger.Serialization.JsonSerializer
import XtrMessenger.Worker.Settlement
import XtrMessenger.Foundation.Json
import XtrMessenger.Foundation.Numeral

/-! `bind_bus`: the task that rebuilds a message a broker delivers and dispatches it. -/
namespace XtrMessenger.Taskiq
open Foundation
variable {ω : Type}

/-- What a label may hold, as far as this adapter tells it apart. -/
inductive Label
  | text (value : String)
  | int (value : Int)
  | bool (value : Bool)
  /-- The float `milliseconds / 1000.0`. -/
  | seconds (milliseconds : Int)
  | other

abbrev Labels := Dict String Label

def retriesLabel : String := "_retries"
def queueLabel : String := "queue_name"
def headersLabel : String := "mb_headers"
def delayLabel : String := "delay"

/-- `retries_from`: nothing when the count is missing or unreadable. -/
def retriesFrom [Numerals] (labels : Labels) : Option Int :=
  match labels.get? retriesLabel with
  | some (.int n) => some n
  | some (.text s) => Numeral.intOf (points s)
  | _ => none

def lostLabelAttempt : Int := 1000000

def attemptFrom [Numerals] (labels : Labels) : Int := (retriesFrom labels).getD lostLabelAttempt

def stringOf : PyStr × Json → Option (PyStr × PyStr)
  | (name, .string text) => some (name, text)
  | _ => none

/-- The members of an object, when all of them are strings. -/
def stringsOf (members : Dict PyStr Json) : Option (List (PyStr × PyStr)) :=
  members.entries.mapM stringOf

/-- The same as texts: of what a sender writes no string has a surrogate that stands alone. -/
def textsOf (headers : List (PyStr × PyStr)) : Option (List (String × String)) :=
  headers.mapM fun (name, text) => return (← name.string?, ← text.string?)

theorem textsOf_points (headers : List (String × String)) :
    textsOf (headers.map fun m => (points m.1, points m.2)) = some headers := by
  induction headers with
  | nil => rfl
  | cons header headers ih =>
    rw [textsOf] at ih ⊢
    rw [List.map_cons, List.mapM_cons, ih]
    simp

/-- `_headers_from`: a JSON object of strings, or without the label the task's name alone. -/
def headersFrom [Unicode] (raw : Option Label) (taskName : String) :
    Except (Exc ω) (Dict String String) :=
  match raw with
  | some (.text raw) =>
    match Json.loads (points raw) with
    | some (.object members) =>
      match (stringsOf (Dict.update .empty members)).bind textsOf with
      | some headers => .ok (Dict.update .empty headers)
      | none => refused
    | _ => refused
  | _ => .ok (Dict.update .empty [(typeHeader, taskName)])
where
  refused : Except (Exc ω) (Dict String String) := .error (Exc.messageDecodingFailedError
    "headers label must hold a JSON object of strings" (some taskName))

/-- What a process has declared. -/
structure Declared where
  messages : MessageRegistry
  stamps : StampRegistry

def rebuild [Unicode] [Numerals] [PyObject ω] (declared : Declared) (body : String)
    (labels : Labels) (taskName : String) (serializer : JsonSerializer ω) (receiverName : String) :
    Except (Exc ω) (Envelope ω) := do
  let headers ← headersFrom (labels.get? headersLabel) taskName
  let envelope ← serializer.decode declared.messages declared.stamps ⟨body, headers⟩
  let decoded := declared.messages.nameOf (PyObject.typeOf envelope.message)
  if decoded ≠ taskName then
    throw (Exc.messageDecodingFailedError ("decoded message is " ++ pyRepr decoded ++
      ", but the task is " ++ pyRepr taskName) (some taskName))
  return envelope.withStamps
    [.shipped (.received receiverName), .shipped (.redelivery (attemptFrom labels))]

/-- A delivery, as taskiq hands it to a task. -/
structure Message where
  body : String
  labels : Labels

/-- What every task of one `bind_bus` call shares. `deadLetter` answers with what quarantining
a delivery raised. -/
structure Binding (ω : Type) where
  serializer : JsonSerializer ω
  hasDispatcher : Bool := false
  receiverNames : Dict (Option String) String := .empty
  maxAttempts : Option Int := none
  hasResetter : Bool := false
  deadLetter : Option (Message → Exc ω → Option (Exc ω)) := none

/-- A call a task makes. -/
inductive TaskCall (ω : Type)
  | about (call : Call ω)
  | deadLetter (message : Message) (error : Exc ω) (raised : Option (Exc ω))

namespace Binding

/-- The transport a delivery came from, by the queue it was published to. -/
def receiverName (b : Binding ω) (labels : Labels) : String :=
  match b.receiverNames.values with
  | [name] => name
  | _ =>
    let queue := match labels.get? queueLabel with
      | some (.text queue) => some queue
      | _ => none
    (b.receiverNames.get? queue).getD "taskiq"

/-- `RedeliveryStamp.retry_count` of the last one. -/
def attemptOf (envelope : Envelope ω) : Int :=
  match (envelope.last (.shipped .redelivery)).bind Stamp.asShipped with
  | some (.redelivery count) => count
  | _ => lostLabelAttempt

def willRetry (b : Binding ω) (envelope : Envelope ω) : Bool :=
  match b.maxAttempts with
  | none => false
  | some attempts => attemptOf envelope < attempts - 1

def dispatcher (b : Binding ω) (world : World ω) : Option (Listeners ω) :=
  if b.hasDispatcher then some world.listeners else none

def settledByRaising (_ : Envelope ω) : Traced (Call ω) (Exc ω) Unit := pure ()

/-- What a task does with the envelope it rebuilt. -/
def consume (b : Binding ω) (world : World ω) (name : String) (envelope : Envelope ω) :
    Traced (Call ω) (Exc ω) Unit := do
  let outcome ← handle world.bus envelope name (b.dispatcher world)
  match outcome with
  | .failed current error => do
    announceFailure current error name (b.dispatcher world) settledByRaising (b.willRetry current)
    Traced.lift (.error error)
  | _ => return ()

def resetting (b : Binding ω) (world : World ω) : Traced (Call ω) (Exc ω) Unit :=
  if b.hasResetter then Traced.call (.reset world.reset) (raising world.reset) else pure ()

/-- The task body, with the envelope rebuilt or what rebuilding it raised. -/
def body (b : Binding ω) (world : World ω) (name : String) (message : Message)
    (rebuilt : Except (Exc ω) (Envelope ω)) : Traced (TaskCall ω) (Exc ω) Unit :=
  Traced.finallyDo
    (match rebuilt, b.deadLetter with
      | .ok envelope, _ => (b.consume world name envelope).mapCalls .about
      | .error (.messageDecodingFailed reason messageName text), some quarantine =>
        let error := .messageDecodingFailed reason messageName text
        let raised := quarantine message error
        Traced.call (.deadLetter message error raised) (raising raised)
      | .error error, _ => Traced.lift (.error error))
    ((b.resetting world).mapCalls .about)

/-- The task under a name: `_task_for`. -/
def taskFor [Unicode] [Numerals] [PyObject ω] (b : Binding ω) (declared : Declared)
    (taskName : String) (world : World ω) (message : Message) :
    Traced (TaskCall ω) (Exc ω) Unit :=
  let name := b.receiverName message.labels
  b.body world name message
    (rebuild declared message.body message.labels taskName b.serializer name)

end Binding

/-- `declared_names()`: the names `bind_bus` registers a task under. -/
def boundNames (messages : MessageRegistry) : List String := messages.nameByType.values

end XtrMessenger.Taskiq
