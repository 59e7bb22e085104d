import XtrMessenger.Bus.Message
import XtrMessenger.Foundation.Stateful

/-! The middleware a configuration lists, and what its names mean. -/
namespace XtrMessenger.Middleware
open Foundation
variable {σ ω μ β : Type}

/-- What an entry gives a name: arguments by the names of the parameters they fill, or something
else, here its `repr`. -/
inductive Given (ω : Type)
  | arguments (arguments : Dict String ω)
  | other (shown : String)

/-- `MiddlewareEntry`; `μ` stands for middleware. -/
inductive Entry (ω μ : Type)
  | name (name : String)
  | arguments (entry : Dict String (Given ω))
  | built (middleware : μ)

/-- `isinstance(entry, Mapping)`. -/
def Entry.isMapping : Entry ω μ → Bool
  | arguments _ => true
  | _ => false

/-- The mapping an entry with arguments is. -/
def Entry.mapping? : Entry ω μ → Option (Dict String (Given ω))
  | arguments entry => some entry
  | _ => none

/-- The name and the arguments of an entry that gives one name arguments. -/
def Entry.given? : Entry ω μ → Option (String × Dict String ω)
  | .arguments entry => match entry.entries with
    | [(named, .arguments given)] => some (named, given)
    | _ => none
  | _ => none

/-- An entry with arguments gives them to one name. -/
def Entry.WellFormed (entry : Entry ω μ) : Prop :=
  entry.isMapping = true → ∃ given, entry.given? = some given

def unknownMiddlewareError (name : String) (known : List String) : Exc ω :=
  .exception "UnknownMiddlewareError" ("unknown middleware: " ++ name ++ "; registered: " ++
    Bus.listed (Bus.sorted known))

def invalidMiddlewareArgumentsError (name reason : String) : Exc ω :=
  .exception "InvalidMiddlewareArgumentsError"
    ("invalid arguments for middleware " ++ name ++ ": " ++ reason)

def entryArguments [Unicode] (entry : Dict String (Given ω)) :
    Except (Exc ω) (String × Dict String ω) :=
  match entry.entries with
  | [(name, .arguments arguments)] => .ok (name, arguments)
  | [(name, .other shown)] => .error (invalidMiddlewareArgumentsError name
      ("arguments are a mapping of parameter names, not " ++ shown))
  | entries =>
    let names := Bus.joined (entries.map fun given => pyRepr given.1)
    .error (invalidMiddlewareArgumentsError (if names = "" then "none" else names)
      "an entry with arguments is a single \x7bname: \x7bargument: value\x7d\x7d")

def entryKey (name : String) (ordinal : Nat) : String := name ++ "#" ++ toString ordinal

/-- Names read through layers, the first that has one winning. -/
structure Names (β : Type) where
  layers : List (Dict String β)

namespace Names

def get? (named : Names β) (name : String) : Option β :=
  named.layers.findSome? fun layer => layer.get? name

/-- `tuple(named)`. -/
def known (named : Names β) : List String := (named.layers.reverse.flatMap Dict.keys).eraseDups

end Names

/-- `named_middleware`: the names given, then those declared, then `"logging"`. -/
def namedMiddleware (logging : β) (named : Option (Dict String β)) (registry : Dict String β) :
    Names β := ⟨[named.getD .empty, registry, Dict.empty.set "logging" logging]⟩

/-- What there is to a builder: whether it takes some arguments, and what calling it with them
does. -/
structure Calling (σ ω μ β : Type) where
  /-- `inspect.signature(builder).bind(**arguments)`, which raises a `TypeError` with a text, or
  something else. -/
  bind : β → Dict String ω → Except (String ⊕ Exc ω) Unit
  /-- `builder(**arguments)`. -/
  call : β → Dict String ω → Stateful σ (Exc ω) μ

section Model
variable [Unicode] (calling : Calling σ ω μ β) (named : Names β)

def builder (name : String) : Except (Exc ω) β :=
  match named.get? name with
  | none => .error (unknownMiddlewareError name named.known)
  | some builder => .ok builder

/-- The builder of a name called with the arguments it was given, if it takes them. -/
def callWith (name : String) (arguments : Dict String ω) : Stateful σ (Exc ω) μ := do
  let builder ← Stateful.lift (builder named name)
  Stateful.lift ((calling.bind builder arguments).mapError fun
    | .inl text => invalidMiddlewareArgumentsError name text
    | .inr error => error)
  calling.call builder arguments

/-- One turn of the loop of `resolve`, with what is built so far and the next ordinal. -/
def resolveEntry (so_far : List μ × Nat) : Entry ω μ → Stateful σ (Exc ω) (List μ × Nat)
  | .name name => do
    let builder ← Stateful.lift (builder named name)
    let middleware ← calling.call builder .empty
    return (so_far.1 ++ [middleware], so_far.2)
  | .arguments entry => do
    let (name, arguments) ← Stateful.lift (entryArguments entry)
    match named.get? (entryKey name so_far.2) with
    | some prepared =>
      let middleware ← calling.call prepared .empty
      return (so_far.1 ++ [middleware], so_far.2 + 1)
    | none =>
      let middleware ← callWith calling named name arguments
      return (so_far.1 ++ [middleware], so_far.2 + 1)
  | .built middleware => return (so_far.1 ++ [middleware], so_far.2)

def resolve (configured : List (Entry ω μ)) : Stateful σ (Exc ω) (List μ) := do
  let (built, _) ← configured.foldlM (resolveEntry calling named) ([], 0)
  return built

end Model

/-- Each entry with the number of entries with arguments before it. -/
def numbered (configured : List (Entry ω μ)) : List (Entry ω μ × Nat) :=
  configured.mapIdx fun i entry => (entry, (configured.take i).countP Entry.isMapping)

section Spec
variable [Unicode] (calling : Calling σ ω μ β) (named : Names β)

/-- The builder an entry with arguments has under its key. -/
def prepared : Entry ω μ × Nat → Option β
  | (.arguments entry, ordinal) =>
    match (entryArguments entry : Except (Exc ω) _) with
    | .ok (name, _) => named.get? (entryKey name ordinal)
    | .error _ => none
  | _ => none

/-- An entry built as what its name means: a name by its builder, without arguments; a name with
arguments by its builder, with them. -/
def asNamed : Entry ω μ → Stateful σ (Exc ω) μ
  | .name name => do calling.call (← Stateful.lift (builder named name)) .empty
  | .arguments entry => do
    let (name, arguments) ← Stateful.lift (entryArguments entry)
    callWith calling named name arguments
  | .built middleware => pure middleware

/-- What an entry is built as: what stands under its key, called without arguments, where there
is something. -/
def made (x : Entry ω μ × Nat) : Stateful σ (Exc ω) μ :=
  match prepared named x with
  | some builder => calling.call builder .empty
  | none => asNamed calling named x.1

end Spec

section Resolve
variable {calling : Calling σ ω μ β} {named : Names β}

theorem numbered_concat (configured : List (Entry ω μ)) (entry : Entry ω μ) :
    numbered (configured ++ [entry]) =
      numbered configured ++ [(entry, configured.countP Entry.isMapping)] := by
  have hbefore : configured.mapIdx (fun i entry' =>
      (entry', ((configured ++ [entry]).take i).countP Entry.isMapping)) = numbered configured := by
    apply List.mapIdx_eq_mapIdx_iff.mpr
    intro i hi
    rw [List.take_append_of_le_length (Nat.le_of_lt hi)]
  unfold numbered at hbefore ⊢
  rw [List.mapIdx_append, hbefore]
  simp

theorem mapM_numbered {configured : List (Entry ω μ)}
    {f : Entry ω μ × Nat → Stateful σ (Exc ω) μ} {g : Entry ω μ → Stateful σ (Exc ω) μ}
    (h : ∀ x ∈ numbered configured, f x = g x.1) :
    (numbered configured).mapM f = configured.mapM g := by
  induction configured using List.reverseRecOn with
  | nil => rfl
  | append_singleton configured entry ih =>
    rw [numbered_concat] at h ⊢
    have hbefore := ih fun x hx => h x (List.mem_append_left _ hx)
    have hlast := h _ (List.mem_append_right _ (List.mem_singleton_self _))
    rw [List.mapM_append, List.mapM_append, hbefore]
    simp [hlast]

variable [Unicode]

/-- One turn builds one middleware, and counts an entry with arguments. -/
theorem resolveEntry_eq (so_far : List μ × Nat) (entry : Entry ω μ) :
    resolveEntry calling named so_far entry = do
      let middleware ← made calling named (entry, so_far.2)
      return (so_far.1 ++ [middleware], so_far.2 + [entry].countP Entry.isMapping) := by
  cases entry with
  | name name => simp [resolveEntry, made, prepared, asNamed, Entry.isMapping]
  | built middleware => simp [resolveEntry, made, prepared, asNamed, Entry.isMapping]
  | arguments entry =>
    have hcount : [Entry.arguments (μ := μ) entry].countP Entry.isMapping = 1 := rfl
    rw [hcount]
    cases hread : (entryArguments entry : Except (Exc ω) _) with
    | error error =>
      simp only [resolveEntry, made, prepared, asNamed, hread]
      rfl
    | ok read =>
      have hlift : (Stateful.lift (.ok read) : Stateful σ (Exc ω) _) = pure read := rfl
      cases hkey : named.get? (entryKey read.1 so_far.2) with
      | none => simp only [resolveEntry, made, prepared, asNamed, hread, hlift, pure_bind, hkey]
      | some builder => simp only [resolveEntry, made, prepared, hread, hlift, pure_bind, hkey]

theorem foldlM_resolveEntry (configured : List (Entry ω μ)) :
    configured.foldlM (resolveEntry calling named) ([], 0) = do
      let built ← (numbered configured).mapM (made calling named)
      return (built, configured.countP Entry.isMapping) := by
  induction configured using List.reverseRecOn with
  | nil => rfl
  | append_singleton configured entry ih =>
    rw [List.foldlM_append, ih, numbered_concat, List.mapM_append]
    simp [resolveEntry_eq, List.countP_append]

theorem resolve_eq_mapM (configured : List (Entry ω μ)) :
    resolve calling named configured = (numbered configured).mapM (made calling named) := by
  simp [resolve, foldlM_resolveEntry]

/-- One middleware for each entry in order, each built as what it names but for the entries with
arguments that have a builder under their own key. -/
theorem resolve_builds (configured : List (Entry ω μ)) :
    resolve calling named configured = (numbered configured).mapM (made calling named) ∧
      ((∀ x ∈ numbered configured, prepared named x = none) →
        resolve calling named configured = configured.mapM (asNamed calling named)) := by
  refine ⟨resolve_eq_mapM configured, ?_⟩
  intro hfree
  have hmade : ∀ x ∈ numbered configured, made calling named x = asNamed calling named x.1 := by
    intro x hx
    rw [made, hfree x hx]
  rw [resolve_eq_mapM]
  exact mapM_numbered hmade

end Resolve

section Sample
attribute [local instance] Unicode.ascii

/-- Builders that tell which they are and what they were called with. -/
def telling : Calling Unit Int (String × List (String × Int)) String where
  bind _ _ := .ok ()
  call builder arguments := pure (builder, arguments.entries)

/-- An application's name that is the key of an entry with arguments. -/
def hijacking : Names String :=
  namedMiddleware "logging" (some (Dict.update .empty
    [("audit", "audit builder"), ("audit#0", "another builder")])) .empty

def auditEntry : Entry Int (String × List (String × Int)) :=
  .arguments (Dict.update .empty [("audit", .arguments (Dict.update .empty [("sampled", 1)]))])

/-- The entry is built by the builder of another name, without its arguments. -/
theorem entry_hijacked :
    (resolve telling hijacking [auditEntry] ()).1 = .ok [("another builder", [])] ∧
      ([auditEntry].mapM (asNamed telling hijacking) ()).1 =
        .ok [("audit builder", [("sampled", 1)])] ∧
      resolve telling hijacking [auditEntry] ≠
        [auditEntry].mapM (asNamed telling hijacking) := by
  have hresolved : (resolve telling hijacking [auditEntry] ()).1 =
      .ok [("another builder", [])] := rfl
  have hnamed : ([auditEntry].mapM (asNamed telling hijacking) ()).1 =
      .ok [("audit builder", [("sampled", 1)])] := rfl
  refine ⟨hresolved, hnamed, fun hsame => ?_⟩
  rw [hsame, hnamed] at hresolved
  exact absurd hresolved (by simp)

end Sample

end XtrMessenger.Middleware
