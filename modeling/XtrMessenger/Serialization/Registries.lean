import XtrMessenger.Exceptions
import XtrMessenger.Foundation.Dict
import Mathlib.Logic.Relation

/-! The message and the stamp registry: what an application declares, and what a serializer
may rely on however much is declared later. -/
namespace XtrMessenger
open Foundation
variable {ω : Type} [Unicode]

/-- The declared message classes. A class that has a name is found under it. -/
structure MessageRegistry where
  nameByType : Dict PyType String
  typeByName : Dict String PyType
  transportsByType : Dict PyType (List String)
  coherent : ∀ t n, nameByType.get? t = some n → typeByName.get? n = some t

namespace MessageRegistry

/-- Nothing declared. -/
def empty : MessageRegistry := ⟨.empty, .empty, .empty, by simp [Dict.get?, Dict.empty]⟩

/-- The class a name is already used by, if it is another. -/
def claimed (r : MessageRegistry) (name : String) (messageType : PyType) : Option PyType :=
  (r.typeByName.get? name).filter fun t => t ≠ messageType

omit [Unicode] in
theorem eq_of_claimed_eq_none {r : MessageRegistry} {name : String} {messageType t : PyType}
    (h : r.claimed name messageType = none) (ht : r.typeByName.get? name = some t) :
    t = messageType := by
  simpa [claimed, ht, Option.filter] using h

/-- A free name goes to a class. -/
def assign (r : MessageRegistry) (name : String) (messageType : PyType)
    (h : r.claimed name messageType = none) : MessageRegistry where
  nameByType := r.nameByType.set messageType name
  typeByName := r.typeByName.set name messageType
  transportsByType := r.transportsByType
  coherent t n ht := by
    rw [Dict.get?_set] at ht ⊢
    split_ifs at ht with hm
    · simp [Option.some.inj ht, hm]
    · have hn := r.coherent t n ht
      split_ifs with he
      · exact absurd (eq_of_claimed_eq_none h (he ▸ hn)) hm
      · exact hn

def claim (r : MessageRegistry) (name : String) (messageType : PyType) :
    Except (Exc ω) MessageRegistry :=
  match h : r.claimed name messageType with
  | some claimed => .error (.exception "MessageBusError"
      ("message name " ++ pyRepr name ++ " is already used by " ++ claimed.qualname))
  | none => .ok (r.assign name messageType h)

def defaultName (messageType : PyType) : String := messageType.module ++ ":" ++ messageType.qualname

/-- A class declared without a name keeps the one it has. -/
def identify (r : MessageRegistry) (messageType : PyType) :
    Option String → Except (Exc ω) MessageRegistry
  | some name => r.claim name messageType
  | none =>
    if r.nameByType.get? messageType = none then r.claim (defaultName messageType) messageType
    else .ok r

/-- `register_message`. -/
def register (r : MessageRegistry) (messageType : PyType) (name : Option String)
    (transports : List String) : Except (Exc ω) MessageRegistry :=
  (r.identify messageType name).map fun r =>
    if transports.isEmpty then r
    else { r with transportsByType := r.transportsByType.set messageType transports }

def nameOf (r : MessageRegistry) (messageType : PyType) : String :=
  (r.nameByType.get? messageType).getD (defaultName messageType)

def typeForName (r : MessageRegistry) (name : String) : Except (Exc ω) PyType :=
  match r.typeByName.get? name with
  | none => .error (.exception "UnknownMessageNameError" ("no message type registered for name " ++
      pyRepr name ++ "; import the module that defines it, or declare it with @as_message"))
  | some messageType => .ok messageType

/-- More may have been declared since. -/
def Grows (ω : Type) : MessageRegistry → MessageRegistry → Prop :=
  Relation.ReflTransGen fun r r' => ∃ messageType name transports,
    (r.register messageType name transports : Except (Exc ω) MessageRegistry) = .ok r'

variable {r r' : MessageRegistry} {name : String} {messageType : PyType}

theorem claim_typeByName {name' : String} {t : PyType}
    (h : (r.claim name' messageType : Except (Exc ω) MessageRegistry) = .ok r')
    (hn : r.typeByName.get? name = some t) : r'.typeByName.get? name = some t := by
  unfold claim at h
  split at h
  · simp at h
  · rename_i hfree
    obtain rfl := Except.ok.inj h
    simp only [assign, Dict.get?_set]
    split_ifs with he
    · exact congrArg some (eq_of_claimed_eq_none hfree (he ▸ hn)).symm
    · exact hn

theorem register_typeByName {name' : Option String} {transports : List String} {t : PyType}
    (h : (r.register messageType name' transports : Except (Exc ω) MessageRegistry) = .ok r')
    (hn : r.typeByName.get? name = some t) : r'.typeByName.get? name = some t := by
  unfold register at h
  cases hu : (r.identify messageType name' : Except (Exc ω) MessageRegistry) with
  | error e => simp [hu, Except.map] at h
  | ok u =>
    have hclaimed : u.typeByName.get? name = some t := by
      cases name' with
      | some name' => exact claim_typeByName hu hn
      | none =>
        unfold identify at hu
        split_ifs at hu
        · exact claim_typeByName hu hn
        · exact Except.ok.inj hu ▸ hn
    rw [hu] at h
    obtain rfl := Except.ok.inj h
    split_ifs <;> exact hclaimed

theorem Grows.typeByName (h : Grows ω r r') {t : PyType} (hn : r.typeByName.get? name = some t) :
    r'.typeByName.get? name = some t := by
  induction h with
  | refl => exact hn
  | tail _ hs ih =>
    obtain ⟨messageType, name', transports, hs⟩ := hs
    exact register_typeByName hs ih

theorem register_declared {name' : Option String} {transports : List String} {t : PyType}
    (h : (r.register messageType name' transports : Except (Exc ω) MessageRegistry) = .ok r')
    (ht : t ∈ r.nameByType.keys) : t ∈ r'.nameByType.keys := by
  have hclaimed : ∀ {name' : String} {u : MessageRegistry},
      (r.claim name' messageType : Except (Exc ω) MessageRegistry) = .ok u →
        t ∈ u.nameByType.keys := by
    intro name' u hu
    unfold claim at hu
    split at hu
    · simp at hu
    · obtain rfl := Except.ok.inj hu
      simp only [assign]
      exact (Dict.mem_keys_set _ messageType name').mpr (.inr ht)
  obtain ⟨u, hu, rfl⟩ := map_eq_ok_iff.mp h
  have hkept : t ∈ u.nameByType.keys := by
    cases name' with
    | some name' => exact hclaimed hu
    | none =>
      unfold identify at hu
      split_ifs at hu
      · exact hclaimed hu
      · exact Except.ok.inj hu ▸ ht
  split_ifs <;> exact hkept

theorem Grows.declared (h : Grows ω r r') {t : PyType} (ht : t ∈ r.nameByType.keys) :
    t ∈ r'.nameByType.keys := by
  induction h with
  | refl => exact ht
  | tail _ hs ih =>
    obtain ⟨messageType, name', transports, hs⟩ := hs
    exact register_declared hs ih

end MessageRegistry

def defaultStampTypes : List StampClass :=
  [.shipped .delay, .shipped .errorDetails, .shipped .redelivery, .shipped .transportMessageId,
    .shipped .transportNames]

/-- `{t.__name__: t for t in types}`. -/
def stampsByName (types : List StampClass) : Dict String StampClass :=
  Dict.update .empty (types.map fun t => (t.name, t))

/-- The stamp classes declared sendable, beside those the library ships. -/
structure StampRegistry where
  declaredByName : Dict String StampClass

namespace StampRegistry

def empty : StampRegistry := ⟨.empty⟩

def stampTypeFor (r : StampRegistry) (name : String) : Option StampClass :=
  ((stampsByName defaultStampTypes).get? name).or (r.declaredByName.get? name)

/-- `f"{t.__module__}.{t.__qualname__}"`. -/
def place : StampClass → String
  | .shipped k => "xtr_messenger.stamp." ++ k.moduleName ++ "." ++ k.name
  | .app c => c.module ++ "." ++ c.qualname

/-- `register_stamp`. -/
def register (r : StampRegistry) (stampType : StampClass) : Except (Exc ω) StampRegistry :=
  match r.stampTypeFor stampType.name with
  | none => .ok ⟨r.declaredByName.set stampType.name stampType⟩
  | some claimed =>
    if claimed = stampType then .ok r
    else .error (.exception "MessageBusError"
      ("stamp name " ++ pyRepr stampType.name ++ " is already used by " ++ place claimed))

/-- More may have been declared since. -/
def Grows (ω : Type) : StampRegistry → StampRegistry → Prop :=
  Relation.ReflTransGen fun r r' => ∃ stampType,
    (r.register stampType : Except (Exc ω) StampRegistry) = .ok r'

variable {r r' : StampRegistry} {name : String} {stampType : StampClass}

/-- A stamp that is restored stays so whatever is declared later. -/
theorem Grows.stampTypeFor (h : Grows ω r r') (hn : r.stampTypeFor name = some stampType) :
    r'.stampTypeFor name = some stampType := by
  induction h with
  | refl => exact hn
  | @tail u v _ hs ih =>
    obtain ⟨declared, hs⟩ := hs
    unfold register at hs
    split at hs
    · rename_i hfree
      obtain rfl := Except.ok.inj hs
      have hne : name ≠ declared.name := by
        rintro rfl
        simp [hfree] at ih
      simpa [StampRegistry.stampTypeFor, Dict.get?_set, hne] using ih
    · split_ifs at hs
      exact Except.ok.inj hs ▸ ih

end StampRegistry
end XtrMessenger
