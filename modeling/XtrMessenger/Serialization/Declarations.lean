import XtrMessenger.Foundation.Stateful
import XtrMessenger.Serialization.Registries

/-! `register_message` on the process's own dictionaries, one assignment at a time: what any
sequence of declarations leaves, the ones that raise among them. -/
namespace XtrMessenger
open Foundation
variable {ω : Type} [Unicode]

/-- `_NAME_BY_TYPE`, `_TYPE_BY_NAME` and `_TRANSPORTS_BY_TYPE`. -/
structure MessageTables where
  nameByType : Dict PyType String
  typeByName : Dict String PyType
  transportsByType : Dict PyType (List String)

namespace MessageTables

def empty : MessageTables := ⟨.empty, .empty, .empty⟩

/-- `_claim`: the name is checked before either of the two is written. -/
def claim (name : String) (messageType : PyType) : Stateful MessageTables (Exc ω) Unit := do
  let tables ← Stateful.get
  match (tables.typeByName.get? name).filter fun claimed => claimed ≠ messageType with
  | some claimed => Stateful.lift (.error (.exception "MessageBusError"
      ("message name " ++ pyRepr name ++ " is already used by " ++ claimed.qualname)))
  | none => do
    Stateful.modify fun tables =>
      { tables with nameByType := tables.nameByType.set messageType name }
    Stateful.modify fun tables =>
      { tables with typeByName := tables.typeByName.set name messageType }

end MessageTables

/-- A call of `register_message`. -/
structure Declaration where
  messageType : PyType
  name : Option String := none
  transports : List String := []

namespace MessageTables

/-- The name a declaration claims, if any. -/
def identify (d : Declaration) : Stateful MessageTables (Exc ω) Unit :=
  match d.name with
  | some name => claim name d.messageType
  | none => do
    let tables ← Stateful.get
    if tables.nameByType.get? d.messageType = none then
      claim (MessageRegistry.defaultName d.messageType) d.messageType

def registerMessage (d : Declaration) : Stateful MessageTables (Exc ω) Unit := do
  identify d
  if !d.transports.isEmpty then
    Stateful.modify fun tables =>
      { tables with transportsByType := tables.transportsByType.set d.messageType d.transports }

def declaredNames (tables : MessageTables) : List String := tables.nameByType.values

def nameOf (tables : MessageTables) (messageType : PyType) : String :=
  (tables.nameByType.get? messageType).getD (MessageRegistry.defaultName messageType)

def typeForName (tables : MessageTables) (name : String) : Except (Exc ω) PyType :=
  match tables.typeByName.get? name with
  | none => .error (.exception "UnknownMessageNameError" ("no message type registered for name " ++
      pyRepr name ++ "; import the module that defines it, or declare it with @as_message"))
  | some messageType => .ok messageType

/-- What a sequence of declarations leaves. -/
def declare (ω : Type) (tables : MessageTables) (calls : List Declaration) : MessageTables :=
  calls.foldl (fun tables d => (registerMessage (ω := ω) d tables).2) tables

end MessageTables

/-- The dictionaries of a registry. -/
def MessageRegistry.tables (r : MessageRegistry) : MessageTables :=
  ⟨r.nameByType, r.typeByName, r.transportsByType⟩

namespace MessageTables

/-- What a computation on the tables of a registry comes to, where it is a change of the registry
or raises before it changes anything. -/
def settled (r : MessageRegistry) :
    Except (Exc ω) MessageRegistry → Except (Exc ω) Unit × MessageTables
  | .error error => (.error error, r.tables)
  | .ok r' => (.ok (), r'.tables)

theorem claim_tables (r : MessageRegistry) (name : String) (messageType : PyType) :
    claim (ω := ω) name messageType r.tables = settled r (r.claim name messageType) := by
  have hclaimed : (r.tables.typeByName.get? name).filter (fun claimed => claimed ≠ messageType) =
      r.claimed name messageType := rfl
  unfold claim
  rw [Stateful.get_bind_apply, hclaimed]
  unfold MessageRegistry.claim
  split
  · rename_i claimed hclaims
    rw [hclaims]
    rfl
  · rename_i hfree
    simp only [hfree]
    rfl

theorem identify_tables (r : MessageRegistry) (d : Declaration) :
    identify (ω := ω) d r.tables = settled r (r.identify d.messageType d.name) := by
  unfold identify MessageRegistry.identify
  cases d.name with
  | some name => exact claim_tables r name d.messageType
  | none =>
    dsimp only
    rw [Stateful.get_bind_apply]
    by_cases hnew : r.nameByType.get? d.messageType = none
    · have hnew' : r.tables.nameByType.get? d.messageType = none := hnew
      rw [if_pos hnew, if_pos hnew']
      exact claim_tables r _ d.messageType
    · have hnew' : ¬ r.tables.nameByType.get? d.messageType = none := hnew
      rw [if_neg hnew, if_neg hnew']
      rfl

/-- Declaring a message is what it is on registries whose names are coherent, and what raises has
changed nothing. -/
theorem registerMessage_tables (r : MessageRegistry) (d : Declaration) :
    registerMessage (ω := ω) d r.tables =
      settled r (r.register d.messageType d.name d.transports) := by
  unfold registerMessage MessageRegistry.register
  have hidentify := identify_tables (ω := ω) r d
  cases hi : (r.identify d.messageType d.name : Except (Exc ω) MessageRegistry) with
  | error error =>
    rw [hi] at hidentify
    rw [Stateful.bind_of_error _ hidentify]
    rfl
  | ok r' =>
    rw [hi] at hidentify
    rw [Stateful.bind_of_ok _ hidentify]
    cases ht : d.transports <;> rfl

theorem declare_tables (r : MessageRegistry) (calls : List Declaration) :
    ∃ r', MessageRegistry.Grows ω r r' ∧ declare ω r.tables calls = r'.tables := by
  induction calls generalizing r with
  | nil => exact ⟨r, .refl, rfl⟩
  | cons d calls ih =>
    have hstep : declare ω r.tables (d :: calls) =
        declare ω (registerMessage (ω := ω) d r.tables).2 calls := rfl
    rw [hstep, registerMessage_tables]
    cases hd : (r.register d.messageType d.name d.transports : Except (Exc ω) MessageRegistry) with
    | error error => exact ih r
    | ok u =>
      obtain ⟨r', hgrows, htables⟩ := ih u
      exact ⟨r', .head ⟨d.messageType, d.name, d.transports, hd⟩ hgrows, htables⟩

end MessageTables

namespace MessageRegistry
variable {r r' : MessageRegistry} {messageType : PyType} {name : Option String}
  {transports : List String}

theorem claim_claimed {name : String}
    (h : (r.claim name messageType : Except (Exc ω) MessageRegistry) = .ok r') :
    r'.nameByType.get? messageType = some name ∧ r'.typeByName.get? name = some messageType := by
  unfold claim at h
  split at h
  · simp at h
  · obtain rfl := Except.ok.inj h
    simp [assign, Dict.get?_set]

/-- A class that was declared has a name, and the one it was declared under is its own. -/
theorem register_claims
    (h : (r.register messageType name transports : Except (Exc ω) MessageRegistry) = .ok r') :
    messageType ∈ r'.nameByType.keys ∧
      ∀ n, name = some n → r'.typeByName.get? n = some messageType := by
  obtain ⟨u, hu, rfl⟩ := map_eq_ok_iff.mp h
  have hclaims : messageType ∈ u.nameByType.keys ∧
      ∀ n, name = some n → u.typeByName.get? n = some messageType := by
    cases name with
    | some name =>
      obtain ⟨hname, htype⟩ := claim_claimed hu
      exact ⟨u.nameByType.mem_keys_of_get? hname, fun n hn => Option.some.inj hn ▸ htype⟩
    | none =>
      refine ⟨?_, fun n hn => nomatch hn⟩
      unfold identify at hu
      split_ifs at hu with hnew
      · exact u.nameByType.mem_keys_of_get? (claim_claimed hu).1
      · obtain rfl := Except.ok.inj hu
        by_contra hnot
        exact hnew ((Dict.get?_eq_none_iff _).mpr hnot)
  split_ifs <;> exact hclaims

omit [Unicode] in
/-- Two classes have no name in common. -/
theorem names_nodup (r : MessageRegistry) : r.nameByType.values.Nodup := by
  refine List.Nodup.map_on (fun e he e' he' hsame => ?_) (.of_map Prod.fst r.nameByType.nodup)
  have hname : ∀ e ∈ r.nameByType.entries, r.typeByName.get? e.2 = some e.1 := fun e he =>
    r.coherent e.1 e.2 (r.nameByType.get?_eq_some_iff.mpr he)
  have htype : some e.1 = some e'.1 := by rw [← hname e he, ← hname e' he', hsame]
  exact Prod.ext (Option.some.inj htype) hsame

end MessageRegistry

/-- The declaration was made in the course of the calls, and did not raise. -/
def Declares (ω : Type) (calls : List Declaration) (d : Declaration) : Prop :=
  ∃ pre post, calls = pre ++ d :: post ∧
    (MessageTables.registerMessage (ω := ω) d (.declare ω .empty pre)).1 = .ok ()

namespace MessageTables
variable {calls : List Declaration}

theorem typeForName_eq_ok_iff {tables : MessageTables} {name : String} {messageType : PyType} :
    (tables.typeForName name : Except (Exc ω) PyType) = .ok messageType ↔
      tables.typeByName.get? name = some messageType := by
  unfold typeForName
  cases tables.typeByName.get? name <;> simp

theorem declare_append (tables : MessageTables) (calls later : List Declaration) :
    declare ω tables (calls ++ later) = declare ω (declare ω tables calls) later :=
  List.foldl_append

/-- What a declaration made, whatever is declared since: its class is declared, and the name it
gave is the class's. -/
theorem declare_of_declares {d : Declaration} (h : Declares ω calls d) :
    ∃ r : MessageRegistry, declare ω .empty calls = r.tables ∧
      d.messageType ∈ r.nameByType.keys ∧
        ∀ n, d.name = some n → r.typeByName.get? n = some d.messageType := by
  obtain ⟨pre, post, rfl, hok⟩ := h
  obtain ⟨before, -, hbefore⟩ := declare_tables (ω := ω) .empty pre
  have hempty : (.empty : MessageTables) = MessageRegistry.empty.tables := rfl
  rw [hempty, hbefore, registerMessage_tables] at hok
  cases hd : (before.register d.messageType d.name d.transports : Except (Exc ω) _) with
  | error error => simp [hd, settled] at hok
  | ok declared =>
    obtain ⟨r, hgrows, hr⟩ := declare_tables (ω := ω) declared post
    obtain ⟨hkeys, hnames⟩ := MessageRegistry.register_claims hd
    refine ⟨r, ?_, hgrows.declared hkeys, fun n hn => hgrows.typeByName (hnames n hn)⟩
    have hstep : declare ω (declare ω .empty pre) (d :: post) =
        declare ω (registerMessage (ω := ω) d (declare ω .empty pre)).2 post := rfl
    rw [declare_append, hstep, hempty, hbefore, registerMessage_tables, hd]
    exact hr

end MessageTables

/-- After any declarations, the ones that raised among them: every declared class is found under
the name it has, no two have one, a name keeps its class for ever, and what raises changes
nothing. -/
theorem declarations_coherent (ω : Type) (calls : List Declaration) :
    let tables := MessageTables.declare ω .empty calls
    (∀ d, Declares ω calls d →
      (tables.typeForName (tables.nameOf d.messageType) : Except (Exc ω) PyType) =
          .ok d.messageType ∧
        ∀ n, d.name = some n →
          (tables.typeForName n : Except (Exc ω) PyType) = .ok d.messageType) ∧
    tables.declaredNames.Nodup ∧
    (∀ n ∈ tables.declaredNames, ∃ messageType,
      (tables.typeForName n : Except (Exc ω) PyType) = .ok messageType) ∧
    (∀ n messageType later, (tables.typeForName n : Except (Exc ω) PyType) = .ok messageType →
      ((MessageTables.declare ω .empty (calls ++ later)).typeForName n : Except (Exc ω) PyType) =
        .ok messageType) ∧
    ∀ d error, (MessageTables.registerMessage (ω := ω) d tables).1 = .error error →
      (MessageTables.registerMessage (ω := ω) d tables).2 = tables := by
  intro tables
  obtain ⟨r, -, hr⟩ := MessageTables.declare_tables (ω := ω) .empty calls
  have htables : tables = r.tables := hr
  simp only [MessageTables.typeForName_eq_ok_iff]
  refine ⟨fun d hd => ?_, ?_, fun n hn => ?_, fun n t later hn => ?_, fun d error herror => ?_⟩
  · obtain ⟨r', hr', hkeys, hclaims⟩ := MessageTables.declare_of_declares hd
    have hsame : tables = r'.tables := hr'
    rw [hsame]
    obtain ⟨n, hn⟩ := r'.nameByType.get?_of_mem_keys hkeys
    have hname : r'.tables.nameOf d.messageType = n := by
      change (r'.nameByType.get? d.messageType).getD _ = n
      rw [hn]
      rfl
    rw [hname]
    exact ⟨r'.coherent _ _ hn, hclaims⟩
  · rw [htables]
    exact r.names_nodup
  · rw [htables] at hn ⊢
    obtain ⟨e, he, rfl⟩ := List.mem_map.mp hn
    exact ⟨e.1, r.coherent _ _ (r.nameByType.get?_eq_some_iff.mpr he)⟩
  · obtain ⟨r', hgrows, hr'⟩ := MessageTables.declare_tables (ω := ω) r later
    have hlater : MessageTables.declare ω .empty (calls ++ later) = r'.tables := by
      rw [MessageTables.declare_append]
      exact (congrArg (MessageTables.declare ω · later) htables).trans hr'
    rw [hlater]
    rw [htables] at hn
    exact hgrows.typeByName hn
  · rw [htables, MessageTables.registerMessage_tables] at herror ⊢
    cases hd : (r.register d.messageType d.name d.transports : Except (Exc ω) _) with
    | error error => rfl
    | ok r' => simp [hd, MessageTables.settled] at herror

section
attribute [local instance] Unicode.ascii

def buildReport : PyType := ⟨0, "app.messages", "BuildReport"⟩

/-- Another class that asks for the name the report was declared under first. -/
def claimingReport : Declaration := ⟨⟨1, "app.messages", "BuildInvoice"⟩, some "report", []⟩

/-- A class that is declared again under another name, and then the other. -/
def renamings : List Declaration :=
  [⟨buildReport, some "report", []⟩, ⟨buildReport, some "report.v2", ["reports"]⟩, claimingReport]

theorem declarations_coherent_renamings :
    let tables := MessageTables.declare Int .empty renamings
    tables.declaredNames = ["report.v2"] ∧
      (tables.typeForName (tables.nameOf buildReport) : Except (Exc Int) PyType) =
        .ok buildReport ∧
      (tables.typeForName "report" : Except (Exc Int) PyType) = .ok buildReport ∧
      ∃ error, (MessageTables.registerMessage (ω := Int) claimingReport tables).1 = .error error ∧
        (MessageTables.registerMessage (ω := Int) claimingReport tables).2 = tables := by
  obtain ⟨hdeclared, -, -, -, hrefused⟩ := declarations_coherent Int renamings
  have hfirst : Declares Int renamings ⟨buildReport, some "report", []⟩ := ⟨[], _, rfl, rfl⟩
  obtain ⟨hfound, hnamed⟩ := hdeclared _ hfirst
  exact ⟨rfl, hfound, hnamed "report" rfl, _, rfl, hrefused _ _ rfl⟩

end

end XtrMessenger
