import Mathlib.Data.List.Sort
import XtrMessenger.Dsn.Settings
import XtrMessenger.Transport.Serving

/-! The `sync://` and `in-memory://` transports: what they accept of the settings written. -/
namespace XtrMessenger.Transport
open Foundation Dsn Url
variable {ω σ : Type}

section Accepting
variable [Unicode]

/-- `sorted(names)`. -/
def sorted (names : List (List Char)) : List (List Char) :=
  names.insertionSort fun a b => String.ofList a ≤ String.ofList b

def unknownTransportOptionError (scheme : List Char) (unknown known : List (List Char)) : Exc ω :=
  let offending := ", ".toList.intercalate unknown
  let accepted := if known = [] then "<none>".toList else ", ".toList.intercalate known
  .exception "UnknownTransportOptionError" (String.ofList (scheme ++ "://".toList ++
    " does not accept ".toList ++ offending ++ "; it accepts: ".toList ++ accepted))

def invalidTransportOptionError (option value expected : List Char) : Exc ω :=
  .exception "InvalidTransportOptionError" (String.ofList (option ++ '=' :: Text.repr value ++
    " must be ".toList ++ expected))

def rejectUnknownOptions (scheme : List Char) (options : Settings) (known : List (List Char)) :
    Except (Exc ω) Unit :=
  let unknown := sorted (options.keys.filter fun name => name ∉ known)
  if unknown ≠ [] then .error (unknownTransportOptionError scheme unknown (sorted known))
  else .ok ()

def asBool (options : Settings) (key : List Char) (fallback : Bool) : Except (Exc ω) Bool :=
  match options.get? key with
  | none => .ok fallback
  | some raw =>
    if raw ∉ ["true".toList, "false".toList] then
      .error (invalidTransportOptionError key raw "'true' or 'false'".toList)
    else .ok (raw = "true".toList)

/-- `TransportConfig.settings`, raising. -/
def settingsOf (config : TransportConfig) : Except (Exc ω) Settings :=
  config.settings.mapError fun error =>
    .exception "InvalidDsnError" (String.ofList error.message)

namespace Sync

/-- `SYNC_SCHEME`. -/
def scheme : List Char := "sync".toList

/-- `SYNC_OPTIONS`. -/
def options : List (List Char) := []

/-- What is checked of each transport of a group. -/
def check (config : TransportConfig) : Except (Exc ω) Unit := do
  rejectUnknownOptions scheme (← settingsOf config) options

/-- `SyncTransportFactory.create`: the names of the transports built. -/
def create (group : List (String × TransportConfig)) : Except (Exc ω) (List String) := do
  group.forM fun entry => check entry.2
  return group.map Prod.fst

end Sync

/-- An `InMemoryTransport` as it is built: nothing recorded yet. -/
structure InMemoryTransport (σ : Type) where
  serializer : Option σ

namespace InMemory

/-- `IN_MEMORY_SCHEME`. -/
def scheme : List Char := "in-memory".toList

/-- `IN_MEMORY_OPTIONS`. -/
def options : List (List Char) := ["serialize".toList]

abbrev Made (σ : Type) := Dict String (InMemoryTransport σ)

/-- `_serializer_for`, in a factory built with `serializer`. -/
def serializerFor (serializer : Option σ) (config : TransportConfig) :
    Except (Exc ω) (Option σ) := do
  let settings ← settingsOf config
  rejectUnknownOptions scheme settings options
  if !(← asBool settings "serialize".toList false) then return none
  match serializer with
  | none => .error (.exception "MissingSerializerError" ("the " ++
      pyRepr (String.ofList scheme) ++ " transport needs a serializer: " ++
      "serialize=true round-trips through one, and this factory was built without"))
  | some serializer => return some serializer

def transport (serializer : Option σ) (name : String) (config : TransportConfig) :
    Stateful (Made σ) (Exc ω) (InMemoryTransport σ) := do
  match (← Stateful.get).get? name with
  | some made => return made
  | none =>
    let made := ⟨← Stateful.lift (serializerFor serializer config)⟩
    Stateful.modify fun m => m.set name made
    return made

def create (serializer : Option σ) (group : List (String × TransportConfig)) :
    Stateful (Made σ) (Exc ω) (List (String × InMemoryTransport σ)) :=
  group.mapM fun entry => do return (entry.1, ← transport serializer entry.1 entry.2)

end InMemory

/-- `UnknownTransportOptionError` was raised. -/
def RaisesUnknown {α : Type} (outcome : Except (Exc ω) α) : Prop :=
  ∃ error, outcome = .error error ∧ error.typeName = "UnknownTransportOptionError"

/-- How `create` comes out for a group with the transport, those before it built. -/
inductive Sync.Came (config : TransportConfig) : Except (Exc ω) (List String) → Prop
  | built (before after : List (String × TransportConfig)) (name : String)
      (hbefore : before.forM (fun entry => Sync.check entry.2) = (.ok () : Except (Exc ω) Unit)) :
      Came config (Sync.create (before ++ (name, config) :: after))

/-- As for `sync://`, where nothing was built under the transport's name. -/
inductive InMemory.Came (σ : Type) (config : TransportConfig) :
    Except (Exc ω) (List (String × InMemoryTransport σ)) → Prop
  | built (serializer : Option σ) (made made' : InMemory.Made σ)
      (before after : List (String × TransportConfig)) (name : String)
      (transports : List (String × InMemoryTransport σ))
      (hbefore : InMemory.create serializer before made =
        ((.ok transports, made') : Except (Exc ω) _ × _))
      (hname : made'.get? name = none) :
      Came σ config (InMemory.create serializer (before ++ (name, config) :: after) made).1

/-- A setting that is written and not accepted is refused, whatever group the transport is created
in; else each accepted setting has the value it was last given. Of these settings `sync://` builds
from none, and `in-memory://` from `serialize`, in `serializerFor`. -/
structure Honours {α : Type} (known : List (List Char)) (config : TransportConfig)
    (came : Except (Exc ω) α → Prop) : Prop where
  refused : (∃ name ∈ (intended config).keys, name ∉ known) →
    ∀ outcome, came outcome → RaisesUnknown outcome
  taken : (∀ name ∈ (intended config).keys, name ∈ known) → ∃ settings,
    config.settings = .ok settings ∧
      ∀ name ∈ known, settings.get? name = (intended config).get? name

/-- Something that is not accepted has a value, or is given beside the DSN; or all that is written
is accepted, and the last field of each setting has a value unless it is given beside the DSN. -/
def Reads (known : List (List Char)) (config : TransportConfig) : Prop :=
  (∃ name, name ∉ known ∧ ((∃ field ∈ fieldsOf (queryOf config.dsn),
      field.value ≠ [] ∧ readForm field.name = name) ∨ name ∈ config.options.entries.keys ∨
        config.queue.isSome = true ∧ name = "queue".toList)) ∨
    (∀ field ∈ fieldsOf (queryOf config.dsn), readForm field.name ∈ known) ∧
      ∀ name ∈ known, Left config name → ∀ field,
        lastField (queryOf config.dsn) name = some field → field.value ≠ []

section Honouring
variable {known : List (List Char)} {config : TransportConfig} {dsn : Dsn}

theorem settings_of_parsed (h : config.parsed = .ok dsn) :
    config.settings = .ok (merged (dictOf (parseQsl (queryOf config.dsn) false)) config) := by
  have hraw : dsn.raw = config.dsn := raw_of_parse h
  unfold TransportConfig.settings
  rw [h]
  change Except.ok (merged dsn.options config) = _
  rw [Dsn.options, hraw]

omit [Unicode] in
theorem rejectUnknownOptions_cases (scheme : List Char) (settings : Settings)
    (known : List (List Char)) :
    (RaisesUnknown (rejectUnknownOptions scheme settings known : Except (Exc ω) Unit) ∧
      ∃ name ∈ settings.keys, name ∉ known) ∨
    (rejectUnknownOptions scheme settings known = (.ok () : Except (Exc ω) Unit) ∧
      ∀ name ∈ settings.keys, name ∈ known) := by
  unfold rejectUnknownOptions
  by_cases h : settings.keys.filter (fun name => name ∉ known) = []
  · right
    rw [h]
    refine ⟨rfl, fun name hname => ?_⟩
    by_contra hnot
    exact List.ne_nil_of_mem (List.mem_filter.mpr ⟨hname, by simpa using hnot⟩) h
  · left
    have hsorted : sorted (settings.keys.filter fun name => name ∉ known) ≠ [] := by
      intro hnil
      have hlength := congrArg List.length hnil
      rw [sorted, List.length_insertionSort, List.length_nil, List.length_eq_zero_iff] at hlength
      exact h hlength
    rw [if_pos hsorted]
    refine ⟨⟨_, rfl, rfl⟩, ?_⟩
    obtain ⟨name, hname⟩ := List.exists_mem_of_ne_nil _ h
    obtain ⟨hkey, hnot⟩ := List.mem_filter.mp hname
    exact ⟨name, hkey, by simpa using hnot⟩

omit [Unicode] in
/-- Where a setting that is not accepted comes from, with or without the fields without a value. -/
theorem unknown_merged_iff (keepBlankValues : Bool) :
    (∃ name ∈ (merged (dictOf (parseQsl (queryOf config.dsn) keepBlankValues)) config).keys,
      name ∉ known) ↔ ∃ name, name ∉ known ∧ ((∃ field ∈ fieldsOf (queryOf config.dsn),
        (keepBlankValues = true ∨ field.value ≠ []) ∧ readForm field.name = name) ∨
          name ∈ config.options.entries.keys ∨
            config.queue.isSome = true ∧ name = "queue".toList) := by
  simp only [mem_keys_merged, mem_keys_parseQsl]
  exact exists_congr fun name => and_comm

/-- What is written is honoured exactly when it is read, whichever way unknown settings are
refused. -/
theorem honours_iff_of {α : Type} {came : Except (Exc ω) α → Prop}
    (hparsed : config.parsed = .ok dsn)
    (hrefuses : ∀ settings, config.settings = .ok settings →
      (∃ name ∈ settings.keys, name ∉ known) → ∀ outcome, came outcome → RaisesUnknown outcome)
    (haccepts : ∀ settings, config.settings = .ok settings →
      (∀ name ∈ settings.keys, name ∈ known) → ∃ outcome, came outcome ∧ ¬RaisesUnknown outcome) :
    Honours known config came ↔ Reads known config := by
  have hsettings := settings_of_parsed hparsed
  have hread : (∃ name ∈ (merged (dictOf (parseQsl (queryOf config.dsn) false)) config).keys,
      name ∉ known) ↔ ∃ name, name ∉ known ∧ ((∃ field ∈ fieldsOf (queryOf config.dsn),
        field.value ≠ [] ∧ readForm field.name = name) ∨ name ∈ config.options.entries.keys ∨
          config.queue.isSome = true ∧ name = "queue".toList) := by
    simpa only [Bool.false_eq_true, false_or] using unknown_merged_iff false
  have hwritten : (∃ name ∈ (intended config).keys, name ∉ known) ↔ ∃ name, name ∉ known ∧
      ((∃ field ∈ fieldsOf (queryOf config.dsn), readForm field.name = name) ∨
        name ∈ config.options.entries.keys ∨
          config.queue.isSome = true ∧ name = "queue".toList) := by
    simpa only [intended, true_or, true_and] using unknown_merged_iff true
  unfold Reads
  rw [← hread]
  by_cases hunknown : ∃ name ∈ (merged (dictOf (parseQsl (queryOf config.dsn) false)) config).keys,
      name ∉ known
  · -- it is refused, and was written
    simp only [hunknown, true_or, iff_true]
    refine ⟨fun _ => hrefuses _ hsettings hunknown, fun hall => ?_⟩
    obtain ⟨name, hnot, hgiven⟩ := hread.mp hunknown
    have hkey : ∃ name ∈ (intended config).keys, name ∉ known := by
      refine hwritten.mpr ⟨name, hnot, hgiven.imp_left fun hfield => ?_⟩
      obtain ⟨field, hm, -, hname⟩ := hfield
      exact ⟨field, hm, hname⟩
    obtain ⟨name, hkey, hnot⟩ := hkey
    exact absurd (hall name hkey) hnot
  · simp only [hunknown, false_or]
    have hknown : ∀ name ∈ (merged (dictOf (parseQsl (queryOf config.dsn) false)) config).keys,
        name ∈ known := by
      intro name hname
      by_contra hnot
      exact hunknown ⟨name, hname, hnot⟩
    constructor
    · intro h
      have hall : ∀ name ∈ (intended config).keys, name ∈ known := by
        intro name hname
        by_contra hnot
        obtain ⟨outcome, hcame, hquiet⟩ := haccepts _ hsettings hknown
        exact hquiet (h.refused ⟨name, hname, hnot⟩ outcome hcame)
      refine ⟨fun field hfield => ?_, fun name hname hleft => ?_⟩
      · apply hall
        exact mem_keys_merged.mpr (.inl (mem_keys_parseQsl.mpr ⟨field, hfield, .inl rfl, rfl⟩))
      · obtain ⟨settings, hs, hsame⟩ := h.taken hall
        rw [hsettings] at hs
        obtain rfl := Except.ok.inj hs
        have hget := hsame name hname
        rw [intended, get?_merged_of_left hleft, get?_merged_of_left hleft] at hget
        exact get?_read_iff.mp hget
    · intro h
      obtain ⟨hfields, hvalues⟩ := h
      constructor
      case refused =>
        intro hexists
        obtain ⟨name, hnot, ⟨field, hm, rfl⟩ | hgiven⟩ := hwritten.mp hexists
        · exact absurd (hfields field hm) hnot
        · exact absurd (hread.mpr ⟨name, hnot, .inr hgiven⟩) hunknown
      case taken =>
        intro _
        refine ⟨_, hsettings, fun name hname => ?_⟩
        by_cases hleft : Left config name
        · rw [intended, get?_merged_of_left hleft, get?_merged_of_left hleft]
          exact get?_read_iff.mpr (hvalues name hname hleft)
        · exact get?_merged_of_not_left hleft

omit [Unicode] in
theorem forM_append {α : Type} {f : α → Except (Exc ω) Unit} {before after : List α}
    (h : before.forM f = .ok ()) : (before ++ after).forM f = after.forM f := by
  induction before with
  | nil => rfl
  | cons a before ih =>
    obtain ⟨u, hfirst, hrest⟩ := Foundation.bind_eq_ok_iff.mp h
    change (f a >>= fun _ => (before ++ after).forM f) = _
    rw [hfirst]
    exact ih hrest

theorem Sync.check_eq {settings : Settings} (h : config.settings = .ok settings) :
    (Sync.check config : Except (Exc ω) Unit) =
      rejectUnknownOptions Sync.scheme settings Sync.options := by
  unfold Sync.check settingsOf
  rw [h]
  rfl

theorem Sync.honours_of_parsed (hparsed : config.parsed = .ok dsn) :
    Honours Sync.options config (Sync.Came (ω := ω) config) ↔ Reads Sync.options config := by
  apply honours_iff_of hparsed
  · intro settings hsettings hunknown outcome hcame
    obtain ⟨before, after, name, hbefore⟩ := hcame
    obtain ⟨⟨error, herror, htype⟩, -⟩ | ⟨-, hknown⟩ :=
      rejectUnknownOptions_cases (ω := ω) Sync.scheme settings Sync.options
    · refine ⟨error, ?_, htype⟩
      rw [← Sync.check_eq hsettings] at herror
      unfold Sync.create
      rw [forM_append hbefore]
      change ((Sync.check config >>= fun _ => _) >>= fun _ => _) = _
      rw [herror]
      rfl
    · obtain ⟨name, hname, hnot⟩ := hunknown
      exact absurd (hknown name hname) hnot
  · intro settings hsettings hknown
    refine ⟨_, .built [] [] "" rfl, ?_⟩
    obtain ⟨-, name, hname, hnot⟩ | ⟨hok, -⟩ :=
      rejectUnknownOptions_cases (ω := ω) Sync.scheme settings Sync.options
    · exact absurd (hknown name hname) hnot
    · rw [← Sync.check_eq hsettings] at hok
      have hcreated : (Sync.create ([] ++ ("", config) :: []) : Except (Exc ω) _) = .ok [""] := by
        change ((Sync.check config >>= fun _ => _) >>= fun _ => _) = _
        rw [hok]
        rfl
      rw [hcreated]
      intro hraises
      obtain ⟨error, herror, -⟩ := hraises
      simp at herror

theorem InMemory.serializerFor_of_refused (serializer : Option σ) {settings : Settings}
    (h : config.settings = .ok settings) {error : Exc ω}
    (hrefused : rejectUnknownOptions InMemory.scheme settings InMemory.options = .error error) :
    InMemory.serializerFor serializer config = .error error := by
  unfold InMemory.serializerFor settingsOf
  rw [h]
  change (rejectUnknownOptions InMemory.scheme settings InMemory.options >>= fun _ => _) = _
  rw [hrefused]
  rfl

/-- Without unknown settings, building fails on a value or for want of a serializer. -/
theorem InMemory.serializerFor_of_accepted {settings : Settings}
    (h : config.settings = .ok settings)
    (haccepted : rejectUnknownOptions InMemory.scheme settings InMemory.options =
      (.ok () : Except (Exc ω) Unit)) :
    ¬RaisesUnknown (InMemory.serializerFor (none : Option σ) config : Except (Exc ω) _) := by
  unfold InMemory.serializerFor settingsOf
  rw [h]
  change ¬RaisesUnknown
    (rejectUnknownOptions InMemory.scheme settings InMemory.options >>= fun _ => _)
  rw [haccepted]
  change ¬RaisesUnknown
    ((asBool settings "serialize".toList false : Except (Exc ω) Bool) >>= fun _ => _)
  intro hraises
  obtain ⟨error, herror, htype⟩ := hraises
  unfold asBool at herror
  cases hget : settings.get? "serialize".toList with
  | none =>
    rw [hget] at herror
    exact absurd herror (by simp [pure, Except.pure, bind, Except.bind])
  | some raw =>
    rw [hget] at herror
    dsimp only at herror
    split_ifs at herror with hraw
    · change (if _ then _ else _ : Except (Exc ω) (Option σ)) = _ at herror
      split_ifs at herror
      · exact absurd herror (by simp [pure, Except.pure])
      · obtain rfl := Except.error.inj herror
        simp [Exc.typeName] at htype
    · obtain rfl := Except.error.inj herror
      simp [invalidTransportOptionError, Exc.typeName] at htype

/-- A transport not built yet is built, or refused, by its settings. -/
theorem InMemory.transport_of_new (serializer : Option σ) (config : TransportConfig)
    {name : String} {made : InMemory.Made σ} (hname : made.get? name = none) :
    (InMemory.transport serializer name config made : Except (Exc ω) _ × _) =
      match InMemory.serializerFor serializer config with
      | .error error => (.error error, made)
      | .ok serializer => (.ok ⟨serializer⟩, made.set name ⟨serializer⟩) := by
  unfold InMemory.transport
  rw [Stateful.get_bind_apply, hname]
  cases hs : (InMemory.serializerFor serializer config : Except (Exc ω) _) with
  | error error => exact Stateful.bind_of_error _ rfl
  | ok serializer => rfl

/-- A group is created as far as a transport that is refused. -/
theorem InMemory.create_of_refused {serializer : Option σ} {name : String}
    {made made' : InMemory.Made σ} {before after : List (String × TransportConfig)}
    {transports : List (String × InMemoryTransport σ)}
    (hbefore : InMemory.create serializer before made =
      ((.ok transports, made') : Except (Exc ω) _ × _))
    (hname : made'.get? name = none) {error : Exc ω}
    (hrefused : InMemory.serializerFor serializer config = .error error) :
    (InMemory.create serializer (before ++ (name, config) :: after) made).1 = .error error := by
  have htransport := InMemory.transport_of_new (ω := ω) serializer config hname
  rw [hrefused] at htransport
  unfold InMemory.create at hbefore ⊢
  rw [List.mapM_append, Stateful.bind_of_ok _ hbefore, List.mapM_cons]
  have hentry := Stateful.bind_of_error (fun t => (pure (name, t) : Stateful _ _ _)) htransport
  rw [Stateful.bind_of_error _ (Stateful.bind_of_error _ hentry)]

theorem InMemory.create_one {serializer : Option σ} {name : String} {made : InMemory.Made σ}
    (hname : made.get? name = none) {built : Option σ}
    (hbuilt : InMemory.serializerFor serializer config = (.ok built : Except (Exc ω) _)) :
    (InMemory.create serializer [(name, config)] made).1 =
      (.ok [(name, ⟨built⟩)] : Except (Exc ω) _) := by
  have htransport := InMemory.transport_of_new (ω := ω) serializer config hname
  rw [hbuilt] at htransport
  unfold InMemory.create
  rw [List.mapM_cons]
  have hentry := Stateful.bind_of_ok (fun t => (pure (name, t) : Stateful _ (Exc ω) _)) htransport
  rw [Stateful.bind_of_ok _ hentry]
  rfl

theorem InMemory.honours_of_parsed (σ : Type) (hparsed : config.parsed = .ok dsn) :
    Honours InMemory.options config (InMemory.Came (ω := ω) σ config) ↔
      Reads InMemory.options config := by
  apply honours_iff_of hparsed
  · intro settings hsettings hunknown outcome hcame
    obtain ⟨serializer, made, made', before, after, name, transports, hbefore, hname⟩ := hcame
    obtain ⟨⟨error, herror, htype⟩, -⟩ | ⟨-, hknown⟩ :=
      rejectUnknownOptions_cases (ω := ω) InMemory.scheme settings InMemory.options
    · have hrefused := InMemory.serializerFor_of_refused serializer hsettings herror
      exact ⟨error, InMemory.create_of_refused hbefore hname hrefused, htype⟩
    · obtain ⟨name, hname, hnot⟩ := hunknown
      exact absurd (hknown name hname) hnot
  · intro settings hsettings hknown
    obtain ⟨-, name, hname, hnot⟩ | ⟨hok, -⟩ :=
      rejectUnknownOptions_cases (ω := ω) InMemory.scheme settings InMemory.options
    · exact absurd (hknown name hname) hnot
    · have hquiet := InMemory.serializerFor_of_accepted (σ := σ) hsettings hok
      refine ⟨_, .built none .empty .empty [] [] "" [] rfl rfl, ?_⟩
      cases hs : (InMemory.serializerFor (none : Option σ) config : Except (Exc ω) _) with
      | error error =>
        rw [InMemory.create_of_refused rfl rfl hs]
        rw [hs] at hquiet
        intro hraises
        obtain ⟨raised, hraised, htype⟩ := hraises
        exact hquiet ⟨raised, by rw [← Except.error.inj hraised], htype⟩
      | ok built =>
        rw [List.nil_append, InMemory.create_one rfl hs]
        intro hraises
        obtain ⟨raised, hraised, -⟩ := hraises
        simp at hraised

end Honouring
end Accepting

section Samples
attribute [local instance] Unicode.ascii

/-- A transport of one DSN, with no other settings. -/
def written (dsn : String) : TransportConfig := ⟨dsn.toList, none, ⟨.empty, true⟩⟩

end Samples

end XtrMessenger.Transport
