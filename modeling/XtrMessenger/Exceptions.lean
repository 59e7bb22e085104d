import XtrMessenger.Envelope
import XtrMessenger.Foundation.Text

/-! The exceptions the package tells apart. Reading an exception's text is a call of its
`__str__`, which may itself raise. -/
namespace XtrMessenger
open Foundation

/-- A Python class object, up to what the package reads of it. `id` is its identity. -/
structure PyType where
  id : Nat
  module : String
  qualname : String
  deriving DecidableEq, Repr

/-- Objects whose class can be asked for. -/
class PyObject (ω : Type) where
  typeOf : ω → PyType

instance : PyObject Int := ⟨fun _ => ⟨0, "builtins", "int"⟩⟩

inductive Exc (ω : Type)
  /-- Any exception whose `str()` returns `text`. -/
  | exception (cls text : String)
  /-- Any exception whose `__str__` raises. -/
  | unprintable (cls : String) (raises : Exc ω)
  | handlersFailed (envelope : Envelope ω) (errors : List (String × Exc ω)) (text : String)
  | delayedMessageHandling (envelope : Envelope ω) (errors : List (Exc ω)) (text : String)
  | messageEncodingFailed (reason messageName text : String)
  | messageDecodingFailed (reason : String) (messageName : Option String) (text : String)

namespace Exc
variable {ω : Type}

/-- `str(error)`. -/
def str : Exc ω → Except (Exc ω) String
  | exception _ text => .ok text
  | unprintable _ raises => .error raises
  | handlersFailed _ _ text => .ok text
  | delayedMessageHandling _ _ text => .ok text
  | messageEncodingFailed _ _ text => .ok text
  | messageDecodingFailed _ _ text => .ok text

/-- `type(error).__name__`. -/
def typeName : Exc ω → String
  | exception cls _ => cls
  | unprintable cls _ => cls
  | handlersFailed _ _ _ => "HandlersFailedError"
  | delayedMessageHandling _ _ _ => "DelayedMessageHandlingError"
  | messageEncodingFailed _ _ _ => "MessageEncodingFailedError"
  | messageDecodingFailed _ _ _ => "MessageDecodingFailedError"

def Printable (e : Exc ω) : Prop := ∃ text, e.str = .ok text

instance (e : Exc ω) : Decidable e.Printable :=
  match h : e.str with
  | .ok text => .isTrue ⟨text, h⟩
  | .error _ => .isFalse fun ⟨_, ht⟩ => by simp [h] at ht

/-- `HandlersFailedError(envelope, errors)`: composing its text reads every error's. -/
def handlersFailedError [PyObject ω] (envelope : Envelope ω) (errors : List (String × Exc ω)) :
    Except (Exc ω) (Exc ω) := do
  let failures ← errors.mapM fun entry => return entry.1 ++ ": " ++ (← entry.2.str)
  let kind := (PyObject.typeOf envelope.message).qualname
  return handlersFailed envelope errors
    (toString errors.length ++ " handler(s) of " ++ kind ++ " failed: " ++
      "; ".intercalate failures)

/-- `DelayedMessageHandlingError(envelope, errors)`. -/
def delayedMessageHandlingError [PyObject ω] (envelope : Envelope ω) (errors : List (Exc ω)) :
    Except (Exc ω) (Exc ω) := do
  let failures ← errors.mapM str
  let kind := (PyObject.typeOf envelope.message).qualname
  return delayedMessageHandling envelope errors
    (toString errors.length ++ " message(s) dispatched after " ++ kind ++
      " was handled failed: " ++ "; ".intercalate failures)

/-- `MessageEncodingFailedError(reason, message_name)`. -/
def messageEncodingFailedError [Unicode] (reason messageName : String) : Exc ω :=
  messageEncodingFailed reason messageName
    ("cannot encode " ++ pyRepr messageName ++ ": " ++ reason)

/-- `MessageDecodingFailedError(reason, message_name)`. -/
def messageDecodingFailedError [Unicode] (reason : String) (messageName : Option String := none) :
    Exc ω :=
  let place := (messageName.map fun name => " for " ++ pyRepr name).getD ""
  messageDecodingFailed reason messageName ("cannot decode envelope" ++ place ++ ": " ++ reason)

theorem mapM_str_of_printable {errors : List (Exc ω)} (h : ∀ e ∈ errors, e.Printable) :
    ∃ texts, errors.mapM str = .ok texts := by
  induction errors with
  | nil => exact ⟨[], rfl⟩
  | cons e es ih =>
    obtain ⟨text, ht⟩ := h e (by simp)
    obtain ⟨texts, hts⟩ := ih fun e' he' => h e' (by simp [he'])
    exact ⟨text :: texts, by simp [List.mapM_cons, ht, hts, bind, Except.bind, pure, Except.pure]⟩

theorem delayedMessageHandlingError_of_printable [PyObject ω] (envelope : Envelope ω)
    {errors : List (Exc ω)} (h : ∀ e ∈ errors, e.Printable) :
    ∃ text, delayedMessageHandlingError envelope errors =
      .ok (delayedMessageHandling envelope errors text) := by
  obtain ⟨texts, hts⟩ := mapM_str_of_printable h
  simp [delayedMessageHandlingError, hts, bind, Except.bind, pure, Except.pure]

end Exc

/-- What a fetch, one step of a receiver's iterator, ended with. -/
inductive Fetched (ω : Type)
  | delivered (envelope : Envelope ω)
  | exhausted
  | raised (error : Exc ω)
  | cancelled

end XtrMessenger
