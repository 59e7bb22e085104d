import XtrMessenger.Bus.Message
import XtrMessenger.Transport.Serving

/-! `WorkerFactory.worker`: what consumes the transports a process names. -/
namespace XtrMessenger.Transport
open Foundation Dsn Factory
variable {ω ρ υ : Type}

structure WorkerFactory (ω ρ υ : Type) where
  /-- `MessageBusConfig.transports`. -/
  transports : Group
  /-- The `TransportFactory` over the factories given. -/
  factories : Factory ω ρ υ
  receivers : Dict String ρ := .empty
  /-- The bus a message is dispatched through, or what building it raised. -/
  dispatcher : Except (Exc ω) (Bus ω)

/-- `_by_connection`: the transports of each server, in the order first named. -/
def byConnection [Unicode] (group : Group) : Except (Exc ω) (List Part) := do
  let connected ← group.entries.mapM fun entry => do
    return ((← parsed entry.2).connection, entry)
  return (groupBy Prod.fst connected).values.map fun part => (part.1.2, part.2.map Prod.snd)

def incompatibleReceiversError (brokered registered : List String) : Exc ω :=
  .exception "IncompatibleReceiversError" ("cannot consume " ++ Bus.joined brokered ++
    " together with " ++ Bus.joined registered ++
    ": the first bring their own worker; consume them in separate workers")

def notConsumableError (names : List String) : Exc ω :=
  .exception "NotConsumableError" ("cannot consume " ++ Bus.joined names ++
    ": it has no receive half, and its factory should implement WorkerProvidingInterface")

def receiversOf (built : Dict String (Option ρ)) : Except (Exc ω) (List (String × ρ)) :=
  let receivers := built.entries.filterMap fun made => made.2.map fun receiver => (made.1, receiver)
  if receivers.length ≠ built.entries.length then .error (notConsumableError built.keys)
  else .ok receivers

def Factory.Part.members (part : Part) : List (String × TransportConfig) := part.1 :: part.2

/-- `WorkerProvidingInterface.worker`. A `TransportFactory` has none. -/
def Factory.worker : Factory ω ρ υ → Option (Group → Bus ω → Except (Exc ω) υ)
  | adapter a => a.worker
  | delegating _ _ | discovering _ => none

/-- What `worker` has in hand when it tells who consumes. -/
structure Selection (ω ρ υ : Type) where
  group : Group
  registered : Dict String ρ
  bus : Bus ω
  served : List (Factory ω ρ υ × Part)

/-- Who consumes: a factory, with what builds its worker, or the library's own worker. -/
inductive Consumer (ω ρ υ : Type)
  | provided (factory : Factory ω ρ υ) (build : Group → Bus ω → Except (Exc ω) υ)
  | library

/-- What `worker` returns. -/
inductive BuiltWorker (ω ρ υ : Type)
  /-- What a factory built of the group it was handed. -/
  | provided (factory : Factory ω ρ υ) (group : Group) (worker : υ)
  /-- `Worker` over one receiver, or over several chained. -/
  | library (bus : Bus ω) (receivers : List (String × ρ)) (receiverName : Option String)

/-- The factories that bring their own worker. -/
def Selection.providing (s : Selection ω ρ υ) :
    List (Factory ω ρ υ × (Group → Bus ω → Except (Exc ω) υ)) :=
  s.served.filterMap fun (factory, _) => factory.worker.map fun build => (factory, build)

/-- The transports of factories that bring their own worker, or of those that do not. -/
def Selection.namesServed (s : Selection ω ρ υ) (brings : Bool) : List String :=
  (s.served.filter fun (factory, _) => factory.worker.isSome = brings).flatMap fun (_, part) =>
    part.members.map Prod.fst

def Selection.consumer (s : Selection ω ρ υ) : Except (Exc ω) (Consumer ω ρ υ) :=
  match s.providing with
  | [] => .ok .library
  | (factory, build) :: _ =>
    let brokered := s.namesServed true
    let others := s.namesServed false ++ s.registered.keys
    if others ≠ [] then .error (incompatibleReceiversError brokered others)
    else .ok (.provided factory build)

/-- `create`: what serves the transports builds them, so a `TransportFactory` that was discovered
asks again what serves them, until `RecursionError`. -/
def Factory.create [Unicode] [Installed ω ρ υ] :
    Nat → Part → Factory ω ρ υ → Asking ω ρ υ (Dict String (Option ρ))
  | _, part, adapter a => Stateful.lift (a.create (Dict.update .empty part.members))
  | 0, _, _ => Stateful.lift (.error recursionError)
  | n + 1, part, factory => do create n part (← serving factory part)

namespace WorkerFactory

def select (f : WorkerFactory ω ρ υ) (names : List String) : Except (Exc ω) Group :=
  let missing := names.filter fun n => n ∉ f.transports.keys ∧ n ∉ f.receivers.keys
  if missing ≠ [] then
    .error (Bus.unknownTransportError missing (f.transports.keys ++ f.receivers.keys))
  else .ok (Dict.update .empty (names.filterMap fun n => (f.transports.get? n).map fun t => (n, t)))

/-- The registered receivers named, where no transport has the name. -/
def registered (f : WorkerFactory ω ρ υ) (names : List String) (group : Group) : Dict String ρ :=
  Dict.update .empty ((names.filter fun n => n ∉ group.keys).filterMap fun n =>
    (f.receivers.get? n).map fun receiver => (n, receiver))

variable [Unicode] [Installed ω ρ υ]

def selected (f : WorkerFactory ω ρ υ) (names : List String) :
    Asking ω ρ υ (Selection ω ρ υ) := do
  let group ← Stateful.lift (f.select names)
  let bus ← Stateful.lift f.dispatcher
  let parts ← Stateful.lift (byConnection group)
  let served ← parts.mapM fun part => do return (← serving f.factories part, part)
  return { group, registered := f.registered names group, bus, served }

/-- The library's own worker, over what the factories build and the registered receivers. -/
def libraryWorker (names : List String) (s : Selection ω ρ υ) :
    Asking ω ρ υ (BuiltWorker ω ρ υ) := do
  let built ← s.served.mapM fun (factory, part) => do
    Stateful.lift (receiversOf (← create (Installed.depth ω ρ υ) part factory))
  let found := (Dict.update .empty built.flatten).update s.registered.entries
  let ordered := names.filterMap fun n => (found.get? n).map fun receiver => (n, receiver)
  let receiverName := match ordered with
    | [(name, _)] => some name
    | _ => none
  return .library s.bus ordered receiverName

def worker (f : WorkerFactory ω ρ υ) (names : List String) :
    Asking ω ρ υ (BuiltWorker ω ρ υ) := do
  let s ← f.selected names
  match ← Stateful.lift s.consumer with
  | .provided factory build =>
    let worker ← Stateful.lift (build s.group s.bus)
    return .provided factory s.group worker
  | .library => libraryWorker names s

end WorkerFactory

end XtrMessenger.Transport
