import XtrMessenger.Serialization.Registries

/-! `JsonSerializer`: an envelope as a body and headers, and back. What writes and reads the
values is a parameter. -/
namespace XtrMessenger
open Foundation

/-- The types values are written and read as: a class, or `list` of a stamp class. -/
inductive TypeRef
  | cls (type : PyType)
  | listOf (stampType : StampClass)

/-- The values a type stands for. -/
abbrev TypeRef.Value (ω : Type) : TypeRef → Type
  | cls _ => ω
  | listOf _ => List (Stamp ω)

/-- The JSON serializer the package builds on. What it raises is a `SerializerError`, here its
text. -/
structure XtrSerializer (ω : Type) where
  serialize : (type : TypeRef) → type.Value ω → Except String String
  deserialize : (type : TypeRef) → String → Except String (type.Value ω)

/-- What it writes it reads back exactly. -/
def XtrSerializer.RoundTrips {ω : Type} (x : XtrSerializer ω) : Prop :=
  ∀ type value text, x.serialize type value = .ok text → x.deserialize type text = .ok value

structure EncodedEnvelope where
  body : String
  headers : Dict String String

def typeHeader : String := "type"

def stampHeaderPrefix : String := "X-Message-Stamp-"

structure JsonSerializer (ω : Type) where
  serializer : XtrSerializer ω
  /-- The stamp types given, none for those the library ships and those declared. -/
  stampTypes : Option (Dict String StampClass)

namespace JsonSerializer
variable {ω : Type}

def create (serializer : XtrSerializer ω) (stampTypes : Option (List StampClass)) :
    JsonSerializer ω := ⟨serializer, stampTypes.map stampsByName⟩

def stampTypeFor (s : JsonSerializer ω) (stamps : StampRegistry) (name : String) :
    Option StampClass :=
  match s.stampTypes with
  | none => stamps.stampTypeFor name
  | some stampTypes => stampTypes.get? name

def encodeStamps (s : JsonSerializer ω) (envelope : Envelope ω) :
    Except String (Dict String String) := do
  let grouped := groupBy (fun stamp => stamp.cls.name) envelope.stamps
  let headers ← grouped.entries.mapM fun (stampName, first, rest) =>
    (s.serializer.serialize (.listOf first.cls) (first :: rest)).map fun value =>
      (stampHeaderPrefix ++ stampName, value)
  return Dict.update .empty headers

def encode [Unicode] [PyObject ω] (s : JsonSerializer ω) (messages : MessageRegistry)
    (envelope : Envelope ω) : Except (Exc ω) EncodedEnvelope :=
  let messageType := PyObject.typeOf envelope.message
  let name := messages.nameOf messageType
  let encoded : Except String EncodedEnvelope := do
    let body ← s.serializer.serialize (.cls messageType) envelope.message
    let headers := Dict.update .empty [(typeHeader, name)]
    let stamps ← s.encodeStamps (envelope.withoutStamps .nonSendable)
    return ⟨body, headers.update stamps.entries⟩
  encoded.mapError fun error => Exc.messageEncodingFailedError error name

/-- What one header holds: a stamp header no class is known for is dropped. -/
def decodeHeader [Unicode] (s : JsonSerializer ω) (stamps : StampRegistry) (name : String)
    (entry : String × String) : Except (Exc ω) (List (Stamp ω)) :=
  match (Text.afterStart stampHeaderPrefix entry.1).bind (s.stampTypeFor stamps) with
  | none => .ok []
  | some stampType =>
    (s.serializer.deserialize (.listOf stampType) entry.2).mapError fun error =>
      Exc.messageDecodingFailedError (stampType.name ++ " header: " ++ error) (some name)

def decodeStamps [Unicode] (s : JsonSerializer ω) (stamps : StampRegistry)
    (headers : Dict String String) (name : String) : Except (Exc ω) (List (Stamp ω)) :=
  (headers.entries.mapM (s.decodeHeader stamps name)).map List.flatten

def decode [Unicode] (s : JsonSerializer ω) (messages : MessageRegistry) (stamps : StampRegistry)
    (encoded : EncodedEnvelope) : Except (Exc ω) (Envelope ω) :=
  let name := (encoded.headers.get? typeHeader).getD ""
  if name = "" then .error (Exc.messageDecodingFailedError "missing 'type' header")
  else match (messages.typeForName name : Except (Exc ω) PyType) with
    | .error _ =>
      .error (Exc.messageDecodingFailedError "the 'type' header names no declared message")
    | .ok messageType => do
      let message ← (s.serializer.deserialize (.cls messageType) encoded.body).mapError
        fun error => Exc.messageDecodingFailedError error (some name)
      return ⟨message, ← s.decodeStamps stamps encoded.headers name⟩

end JsonSerializer
end XtrMessenger
