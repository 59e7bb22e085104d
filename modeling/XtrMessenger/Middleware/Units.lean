import XtrMessenger.Middleware.Entering

/-! The unit of work each message runs in: `UnitOfWorkMiddleware` behind
`DispatchAfterCurrentBusMiddleware`, where the bundle has every chain begin. -/
namespace XtrMessenger.UnitOfWork
open Foundation DispatchAfterCurrentBus
variable {ν ω σ κ : Type}

/-- A middleware behind the first; `ν` stands for all the others. -/
inductive Inner (ν : Type)
  | unitOfWork
  | other (middleware : ν)

/-- A bus of the bundle, whose chain opens a unit of work before anything else. -/
structure UnitBus (ν : Type) where
  bus : MessageBus (Inner ν)
  second : bus.stack.next.1 = some (.other .unitOfWork)

/-- The chain of a configuration in units of work, with the middleware it lists and the default. -/
def UnitBus.of (configured defaults : List ν) : UnitBus ν where
  bus := {
    middlewares := .dispatchAfterCurrentBus :: .other .unitOfWork ::
      (configured ++ defaults).map fun middleware => .other (.other middleware)
    first := rfl }
  second := rfl

/-- What entering a unit of work gives: the unit, and what leaves it again. -/
structure Opening (σ κ : Type) where
  scopes : σ
  unit : Nat
  scope : κ

/-- A `ScopeFactoryInterface` of the container, which keeps its units of work as `σ`. -/
structure ScopeFactory (σ κ : Type) where
  /-- `current_unit_of_work()`, in a context. -/
  current : σ → Nat → Option Nat
  isOpen : σ → Nat → Bool
  /-- The units opened so far. -/
  units : σ → List Nat
  /-- `unit_of_work(join)` is entered in a context, and left there. -/
  enter : σ → Nat → Bool → Opening σ κ
  exit : σ → Nat → κ → σ
  /-- A context is made, empty or as a copy of another. -/
  copy : σ → Nat → Option Nat → σ

/-- A message whose chain is entered, and the unit of work it runs in. -/
structure Entry (κ : Type) where
  context : Nat
  id : Nat
  role : Role
  /-- It carries a `ReceivedStamp`. -/
  received : Bool
  /-- The unit of the context before. -/
  token : Option Nat
  unit : Nat
  /-- The unit was not open before. -/
  opens : Bool
  scope : κ

namespace ScopeFactory
variable (f : ScopeFactory σ κ)

/-- Leaving a unit of work undoes what entering it did. -/
structure Exits (e : Entry κ) : Prop where
  current : ∀ scopes, f.current (f.exit scopes e.context e.scope) =
    if e.opens then Function.update (f.current scopes) e.context e.token else f.current scopes
  isOpen : ∀ scopes, f.isOpen (f.exit scopes e.context e.scope) =
    if e.opens then Function.update (f.isOpen scopes) e.unit false else f.isOpen scopes
  units : ∀ scopes, f.units (f.exit scopes e.context e.scope) = f.units scopes

/-- `unit_of_work(join)` of a container, as it is documented: with `join` it is the unit open in
the context; else a new one, open and current until it is left. -/
structure Documented (start : σ) : Prop where
  unopened : ∀ unit, f.isOpen start unit = false
  outside : ∀ context, f.current start context = none
  joined : ∀ scopes context unit, f.current scopes context = some unit →
    f.isOpen scopes unit = true →
      (f.enter scopes context true).unit = unit ∧
      f.current (f.enter scopes context true).scopes = f.current scopes ∧
      f.isOpen (f.enter scopes context true).scopes = f.isOpen scopes ∧
      f.units (f.enter scopes context true).scopes = f.units scopes
  leftJoined : ∀ scopes context unit, f.current scopes context = some unit →
    f.isOpen scopes unit = true → ∀ later,
      let left := f.exit later context (f.enter scopes context true).scope
      f.current left = f.current later ∧ f.isOpen left = f.isOpen later ∧
        f.units left = f.units later
  opened : ∀ scopes context join,
    (join = true → ∀ unit, f.current scopes context = some unit →
      f.isOpen scopes unit = false) →
    let opening := f.enter scopes context join
    f.isOpen scopes opening.unit = false ∧ opening.unit ∉ f.units scopes ∧
      f.current opening.scopes =
        Function.update (f.current scopes) context (some opening.unit) ∧
      f.isOpen opening.scopes = Function.update (f.isOpen scopes) opening.unit true ∧
      f.units opening.scopes = opening.unit :: f.units scopes
  leftOpened : ∀ scopes context join,
    (join = true → ∀ unit, f.current scopes context = some unit →
      f.isOpen scopes unit = false) → ∀ later,
    let opening := f.enter scopes context join
    let left := f.exit later context opening.scope
    f.current left = Function.update (f.current later) context (f.current scopes context) ∧
      f.isOpen left = Function.update (f.isOpen later) opening.unit false ∧
      f.units left = f.units later
  copied : ∀ scopes context inherits,
    f.current (f.copy scopes context inherits) =
      Function.update (f.current scopes) context (inherits.bind (f.current scopes)) ∧
    f.isOpen (f.copy scopes context inherits) = f.isOpen scopes ∧
    f.units (f.copy scopes context inherits) = f.units scopes

end ScopeFactory

inductive Event (κ : Type)
  | entered (entry : Entry κ)
  /-- The chain returned or raised; a unit opened for it is released. -/
  | left (entry : Entry κ)

inductive Action (ν ω : Type)
  | context (inherits : Option Nat)
  | dispatch (context : Nat) (bus : UnitBus ν) (envelope : Envelope ω)
  /-- The chain entered last in the context, of those that run there, returns or raises. -/
  | finish (context : Nat) (outcome : Except (Exc ω) (Envelope ω))

structure State (ν ω σ κ : Type) where
  bus : DispatchAfterCurrentBus.State (Inner ν) ω := {}
  scopes : σ
  /-- The unit each context was made with. -/
  inherited : Nat → Option Nat := fun _ => none
  /-- The chains that run in a context, the one entered last first. -/
  running : Nat → List (Entry κ) := fun _ => []
  log : List (Event κ) := []

namespace State
variable (f : ScopeFactory σ κ)

/-- A message enters its unit of work, and these scopes are what is left. -/
def enter (s : State ν ω σ κ) (scopes : σ) (e : Entry κ) : State ν ω σ κ :=
  { s with
    scopes := scopes
    running := Function.update s.running e.context (e :: s.running e.context)
    log := s.log ++ [.entered e] }

/-- `UnitOfWorkMiddleware.handle`, up to the rest of the chain. -/
def handle (s : State ν ω σ κ) (context : Nat) (entrance : Entrance ω) : State ν ω σ κ :=
  let received := (entrance.2.2.last (.shipped .received)).isSome
  let opening := f.enter s.scopes context (!received)
  s.enter opening.scopes {
    context, id := entrance.1, role := entrance.2.1, received
    token := f.current s.scopes context
    unit := opening.unit
    opens := !f.isOpen s.scopes opening.unit
    scope := opening.scope }

/-- What is left of it once the rest of the chain has returned or raised. -/
def leave (s : State ν ω σ κ) (e : Entry κ) (entries : List (Entry κ)) : State ν ω σ κ :=
  { s with
    scopes := f.exit s.scopes e.context e.scope
    running := Function.update s.running e.context entries
    log := s.log ++ [.left e] }

/-- The buses went on in a context; what they entered there runs in a unit. -/
def enterLast (s : State ν ω σ κ) (context : Nat)
    (bus : DispatchAfterCurrentBus.State (Inner ν) ω) : State ν ω σ κ :=
  let t := { s with bus := bus }
  match lastEntrance bus.log with
  | some entrance => t.handle f context entrance
  | none => t

end State

def step [PyObject ω] (f : ScopeFactory σ κ) (s : State ν ω σ κ) :
    Action ν ω → Option (State ν ω σ κ)
  | .context inherits => (DispatchAfterCurrentBus.step s.bus (.context inherits)).map fun bus =>
    { s with
      bus := bus
      scopes := f.copy s.scopes s.bus.contexts inherits
      inherited := Function.update s.inherited s.bus.contexts
        (inherits.bind (f.current s.scopes)) }
  | .dispatch context bus envelope =>
    (DispatchAfterCurrentBus.step s.bus (.dispatch context bus.bus envelope)).map fun bus =>
      s.enterLast f context bus
  | .finish context outcome =>
    match s.running context with
    | [] => none
    | e :: entries =>
      (DispatchAfterCurrentBus.step s.bus (.finish e.id outcome)).map fun bus =>
        (s.leave f e entries).enterLast f context bus

/-- Messages dispatched through the buses of a bundle, in any contexts. -/
def machine (ν ω : Type) [PyObject ω] (f : ScopeFactory σ κ) (start : σ) :
    Machine (State ν ω σ κ) (Action ν ω) where
  init s := s = { scopes := start }
  step := step f

/-- The unit was opened and is not released yet. -/
def OpenIn (log : List (Event κ)) (unit : Nat) : Prop :=
  ∃ e, .entered e ∈ log ∧ e.opens = true ∧ e.unit = unit ∧ .left e ∉ log

/-- The unit a message runs in, by what happened before. One that is held back runs where the
message that held it back ran, and finds there what that message found: everything else that
was entered for the hold is done with, and no unit opened for it is joined. -/
structure Placed (pre : List (Event κ)) (e : Entry κ) : Prop where
  opens : e.opens = true ↔ e.received = true ∨ ∀ u, e.token = some u → ¬OpenIn pre u
  fresh : e.opens = true → ∀ e', .entered e' ∈ pre → e'.unit ≠ e.unit
  joins : e.opens = false → e.token = some e.unit
  around : ∀ h, e.role = .drained h → ∃ e', .entered e' ∈ pre ∧ e'.role = .current ∧ e'.id = h ∧
    e'.context = e.context ∧ e'.token = e.token
  done : ∀ h, e.role = .drained h → ∀ e', .entered e' ∈ pre → e'.role.IsFor e'.id h →
    .left e' ∈ pre ∧ (e'.opens = true → e'.unit ≠ e.unit)

def Follows (pre : List (Event κ)) : Event κ → Prop
  | .entered e => Placed pre e
  | .left e => .entered e ∈ pre ∧ .left e ∉ pre

/-- Every message that runs, runs in a unit of work, the one current in its context; a unit is
open while the message it was opened for runs, and no longer; a context nothing runs in has the
unit it was made with. -/
structure Sheltered (f : ScopeFactory σ κ) (s : State ν ω σ κ) : Prop where
  follows : Justified Follows s.log
  running : ∀ c e, e ∈ s.running c ↔ e.context = c ∧ .entered e ∈ s.log ∧ .left e ∉ s.log
  isOpen : ∀ u, f.isOpen s.scopes u = true ↔ ∃ c, ∃ e ∈ s.running c, e.opens = true ∧ e.unit = u
  inside : ∀ c e entries, s.running c = e :: entries → f.current s.scopes c = some e.unit
  idle : ∀ c, s.running c = [] → f.current s.scopes c = s.inherited c
  sheltered : ∀ c, ∀ e ∈ s.running c, f.isOpen s.scopes e.unit = true ∨ s.inherited c = some e.unit

/-- The unit current in a context, over the chains that run there: the one each chain found, and
the one it left current. -/
inductive Stacked (base : Option Nat) : Option Nat → List (Entry κ) → Prop
  | nil : Stacked base base []
  | opened {e : Entry κ} {entries : List (Entry κ)} (ho : e.opens = true)
    (h : Stacked base e.token entries) : Stacked base (some e.unit) (e :: entries)
  | joined {e : Entry κ} {entries : List (Entry κ)} (ho : e.opens = false)
    (ht : e.token = some e.unit) (h : Stacked base e.token entries) :
    Stacked base e.token (e :: entries)

theorem Stacked.inside {base current : Option Nat} {e : Entry κ} {entries : List (Entry κ)}
    (h : Stacked base current (e :: entries)) : current = some e.unit := by
  cases h with
  | opened ho h => rfl
  | joined ho ht h => exact ht

theorem Stacked.outer {base current : Option Nat} {e : Entry κ} {entries : List (Entry κ)}
    (h : Stacked base current (e :: entries)) : Stacked base e.token entries := by
  cases h with
  | opened ho h => exact h
  | joined ho ht h => exact h

theorem Stacked.unchanged {base current : Option Nat} {e : Entry κ} {entries : List (Entry κ)}
    (h : Stacked base current (e :: entries)) (ho : e.opens = false) : current = e.token := by
  cases h with
  | opened ho' _ => cases ho.symm.trans ho'
  | joined _ _ _ => rfl

theorem Stacked.idle {base current : Option Nat} (h : Stacked base current ([] : List (Entry κ))) :
    current = base := by
  cases h
  rfl

/-- The unit a chain runs in was opened for it or for one it runs inside of, or found. -/
theorem Stacked.sheltered {base current : Option Nat} {entries : List (Entry κ)}
    (h : Stacked base current entries) : ∀ e ∈ entries,
      base = some e.unit ∨ ∃ e' ∈ entries, e'.opens = true ∧ e'.unit = e.unit := by
  have hbelow : ∀ {token : Option Nat} {entries : List (Entry κ)} {u : Nat},
      Stacked base token entries → token = some u →
        base = some u ∨ ∃ e' ∈ entries, e'.opens = true ∧ e'.unit = u := by
    intro token entries u h
    induction h with
    | nil => exact fun h => .inl h
    | @opened e entries ho h ih =>
      exact fun heq => .inr ⟨e, List.mem_cons_self, ho, Option.some.inj heq⟩
    | joined ho ht h ih =>
      intro heq
      refine (ih heq).imp_right ?_
      rintro ⟨e', hm, he'⟩
      exact ⟨e', List.mem_cons_of_mem _ hm, he'⟩
  induction h with
  | nil => simp
  | @opened e entries ho h ih =>
    intro e' he'
    rcases List.mem_cons.mp he' with rfl | hm
    · exact .inr ⟨e', List.mem_cons_self, ho, rfl⟩
    · refine (ih e' hm).imp_right ?_
      rintro ⟨e'', hm', he''⟩
      exact ⟨e'', List.mem_cons_of_mem _ hm', he''⟩
  | @joined e entries ho ht h ih =>
    intro e' he'
    rcases List.mem_cons.mp he' with rfl | hm
    · refine (hbelow h ht).imp_right ?_
      rintro ⟨e'', hm', he''⟩
      exact ⟨e'', List.mem_cons_of_mem _ hm', he''⟩
    · refine (ih e' hm).imp_right ?_
      rintro ⟨e'', hm', he''⟩
      exact ⟨e'', List.mem_cons_of_mem _ hm', he''⟩

/-- What the entries say of one another, whatever the buses do. -/
structure Balanced (f : ScopeFactory σ κ) (s : State ν ω σ κ) : Prop where
  bounded : ∀ e, .entered e ∈ s.log → e.unit ∈ f.units s.scopes
  exits : ∀ e, .entered e ∈ s.log → f.Exits e
  ids : ∀ e e', .entered e ∈ s.log → .entered e' ∈ s.log → e.id = e'.id → e = e'
  left : ∀ e, .left e ∈ s.log → .entered e ∈ s.log
  running : ∀ c e, e ∈ s.running c ↔ e.context = c ∧ .entered e ∈ s.log ∧ .left e ∉ s.log
  nodup : ∀ c, (s.running c).Nodup
  stacked : ∀ c, Stacked (s.inherited c) (f.current s.scopes c) (s.running c)
  isOpen : ∀ u, f.isOpen s.scopes u = true ↔ OpenIn s.log u
  owners : ∀ e e', .entered e ∈ s.log → .entered e' ∈ s.log → e.opens = true → e'.opens = true →
    e.unit = e'.unit → e = e'
  follows : Justified Follows s.log

section Steps
variable {f : ScopeFactory σ κ} {s : State ν ω σ κ} {scopes : σ} {e : Entry κ}
  {entries : List (Entry κ)} {c : Nat}

theorem Balanced.top (h : Balanced f s) (hr : s.running c = e :: entries) :
    e.context = c ∧ .entered e ∈ s.log ∧ .left e ∉ s.log :=
  (h.running c e).mp (hr ▸ List.mem_cons_self)

theorem openIn_left (h : Balanced f s) (he : .entered e ∈ s.log) (u : Nat) :
    OpenIn (s.log ++ [.left e]) u ↔ OpenIn s.log u ∧ (e.opens = true → u ≠ e.unit) := by
  constructor
  · rintro ⟨e', hm, ho, hu, hl⟩
    have hm' : .entered e' ∈ s.log := by simpa using hm
    have hne : e' ≠ e ∧ .left e' ∉ s.log := by simpa [not_or, and_comm] using hl
    refine ⟨⟨e', hm', ho, hu, hne.2⟩, fun hopens heq => hne.1 ?_⟩
    exact h.owners e' e hm' he ho hopens (hu.trans heq)
  · rintro ⟨⟨e', hm, ho, hu, hl⟩, hother⟩
    refine ⟨e', by simp [hm], ho, hu, ?_⟩
    have hne : e' ≠ e := by
      rintro rfl
      exact hother ho hu.symm
    simp [hl, hne]

theorem openIn_entered (hnew : .left e ∉ s.log) (u : Nat) :
    OpenIn (s.log ++ [.entered e]) u ↔ OpenIn s.log u ∨ e.opens = true ∧ e.unit = u := by
  constructor
  · rintro ⟨e', hm, ho, hu, hl⟩
    have hl' : .left e' ∉ s.log := by simpa using hl
    rcases List.mem_append.mp hm with hm | hm
    · exact .inl ⟨e', hm, ho, hu, hl'⟩
    · obtain rfl : e' = e := by simpa using hm
      exact .inr ⟨ho, hu⟩
  · rintro (⟨e', hm, ho, hu, hl⟩ | ⟨ho, hu⟩)
    · exact ⟨e', by simp [hm], ho, hu, by simpa using hl⟩
    · exact ⟨e, by simp, ho, hu, by simpa using hnew⟩

/-- What is current once a chain is left is what it found. -/
theorem Balanced.current_leave (h : Balanced f s) (hr : s.running c = e :: entries) :
    f.current (s.leave f e entries).scopes c = e.token := by
  have hstacked := h.stacked c
  obtain ⟨rfl, hentered, -⟩ := h.top hr
  rw [hr] at hstacked
  have hexit := (h.exits e hentered).current s.scopes
  change f.current (f.exit s.scopes e.context e.scope) e.context = e.token
  cases ho : e.opens with
  | true => simp [hexit, ho]
  | false => simpa [hexit, ho] using hstacked.unchanged ho

theorem Balanced.leave (h : Balanced f s) (hr : s.running c = e :: entries) :
    Balanced f (s.leave f e entries) := by
  obtain ⟨hc, hentered, hleft⟩ := h.top hr
  have hnodup := h.nodup c
  rw [hr, List.nodup_cons] at hnodup
  have hlog : ∀ e', .entered e' ∈ (s.leave f e entries).log ↔ .entered e' ∈ s.log := by
    simp [State.leave]
  have hexits := h.exits e hentered
  have hscopes : (s.leave f e entries).scopes = f.exit s.scopes e.context e.scope := rfl
  refine {
    bounded := fun e' he' => by
      rw [hscopes, hexits.units]
      exact h.bounded e' ((hlog e').mp he')
    exits := fun e' he' => h.exits e' ((hlog e').mp he')
    ids := fun e' e'' he' he'' => h.ids e' e'' ((hlog e').mp he') ((hlog e'').mp he'')
    left := fun e' he' => ?_
    running := fun c' e' => ?_
    nodup := fun c' => ?_
    stacked := fun c' => ?_
    isOpen := fun u => ?_
    owners := fun e' e'' he' he'' => h.owners e' e'' ((hlog e').mp he') ((hlog e'').mp he'')
    follows := justified_concat.mpr ⟨h.follows, hentered, hleft⟩ }
  · rw [hlog]
    rcases List.mem_append.mp he' with he' | he'
    · exact h.left e' he'
    · obtain rfl : e' = e := by simpa using he'
      exact hentered
  · rw [hlog]
    have hl : .left e' ∉ (s.leave f e entries).log ↔ .left e' ∉ s.log ∧ e' ≠ e := by
      simp [State.leave, not_or]
    rw [hl]
    rcases eq_or_ne c' c with rfl | hne
    · have hmem := h.running c' e'
      rw [hr, List.mem_cons] at hmem
      have hrun : (s.leave f e entries).running c' = entries := by simp [State.leave, hc]
      rw [hrun]
      constructor
      · intro hm
        obtain ⟨hc', he', hl'⟩ := hmem.mp (.inr hm)
        exact ⟨hc', he', hl', fun heq => hnodup.1 (heq ▸ hm)⟩
      · rintro ⟨hc', he', hl', hne⟩
        exact (hmem.mpr ⟨hc', he', hl'⟩).resolve_left hne
    · have hrun : (s.leave f e entries).running c' = s.running c' := by
        simp [State.leave, hc, hne]
      rw [hrun, h.running]
      refine and_congr_right fun hc' => and_congr_right fun _ => ?_
      refine (and_iff_left fun heq => hne ?_).symm
      rw [← hc', heq, hc]
  · rcases eq_or_ne c' c with rfl | hne
    · simpa [State.leave, hc] using hnodup.2
    · simpa [State.leave, hc, hne] using h.nodup c'
  · rcases eq_or_ne c' c with rfl | hne
    · have hstacked := h.stacked c'
      rw [hr] at hstacked
      rw [h.current_leave hr]
      simpa [State.leave, hc] using hstacked.outer
    · have hcurrent : f.current (s.leave f e entries).scopes c' = f.current s.scopes c' := by
        rw [hscopes, hexits.current]
        cases ho : e.opens <;> simp [hc, hne]
      rw [hcurrent]
      simpa [State.leave, hc, hne] using h.stacked c'
  · change _ ↔ OpenIn (s.log ++ [.left e]) u
    rw [openIn_left h hentered, ← h.isOpen, hscopes, hexits.isOpen]
    cases ho : e.opens with
    | true =>
      rcases eq_or_ne u e.unit with rfl | hne
      · simp
      · simp [hne]
    | false => simp

/-- What `unit_of_work` makes of a message: the open unit of its context, or a new one. -/
inductive Joining (f : ScopeFactory σ κ) (s : State ν ω σ κ) (e : Entry κ) : Prop
  | opens (ho : e.opens = true) (hu : e.unit ∉ f.units s.scopes)
    (hr : e.received = true ∨ ∀ u, e.token = some u → f.isOpen s.scopes u = false)
  | joins (ho : e.opens = false) (hr : e.received = false) (ht : e.token = some e.unit)
    (hu : f.isOpen s.scopes e.unit = true)

/-- What a message makes of the scopes as it enters its unit. -/
structure Handled (f : ScopeFactory σ κ) (s : State ν ω σ κ) (scopes : σ) (e : Entry κ) :
    Prop where
  token : e.token = f.current s.scopes e.context
  joining : Joining f s e
  current : f.current scopes = if e.opens then
    Function.update (f.current s.scopes) e.context (some e.unit) else f.current s.scopes
  isOpen : f.isOpen scopes = if e.opens then
    Function.update (f.isOpen s.scopes) e.unit true else f.isOpen s.scopes
  units : f.units scopes = if e.opens then e.unit :: f.units s.scopes else f.units s.scopes
  exits : f.Exits e

/-- What a message that enters its chain is, where it enters it. -/
structure Enterable (f : ScopeFactory σ κ) (s : State ν ω σ κ) (scopes : σ) (e : Entry κ) : Prop
    extends Handled f s scopes e where
  new : ∀ e', .entered e' ∈ s.log → e'.id ≠ e.id
  around : ∀ h, e.role = .drained h → ∃ e', .entered e' ∈ s.log ∧ e'.role = .current ∧ e'.id = h ∧
    e'.context = e.context ∧ e'.token = e.token
  done : ∀ h, e.role = .drained h → ∀ e', .entered e' ∈ s.log → e'.role.IsFor e'.id h →
    .left e' ∈ s.log

/-- A message joins the unit open in its context or has a new one, as the container has it. -/
theorem handle_handled {start : σ} (hf : f.Documented start) (s : State ν ω σ κ) (c : Nat)
    (entrance : Entrance ω) : ∃ scopes e, s.handle f c entrance = s.enter scopes e ∧
      e.context = c ∧ e.id = entrance.1 ∧ e.role = entrance.2.1 ∧ Handled f s scopes e := by
  unfold State.handle
  generalize hr : (entrance.2.2.last (.shipped .received)).isSome = received
  refine ⟨_, _, rfl, rfl, rfl, rfl, ?_⟩
  by_cases hjoins : received = false ∧
      ∃ u, f.current s.scopes c = some u ∧ f.isOpen s.scopes u = true
  · obtain ⟨rfl, u, hcurrent, hopen⟩ := hjoins
    obtain ⟨hunit, hkept⟩ := hf.joined s.scopes c u hcurrent hopen
    have hleft := hf.leftJoined s.scopes c u hcurrent hopen
    have hopens : (!f.isOpen s.scopes (f.enter s.scopes c true).unit) = false := by
      rw [hunit, hopen]
      rfl
    refine ⟨rfl, .joins hopens rfl ?_ ?_, ?_, ?_, ?_, ?_, ?_, ?_⟩
    · exact hcurrent.trans (congrArg some hunit.symm)
    · exact hunit ▸ hopen
    · simpa [hopens] using hkept.1
    · simpa [hopens] using hkept.2.1
    · simpa [hopens] using hkept.2.2
    · intro later
      simpa [hopens] using (hleft later).1
    · intro later
      simpa [hopens] using (hleft later).2.1
    · exact fun later => (hleft later).2.2
  · have hfree : (!received) = true → ∀ u, f.current s.scopes c = some u →
        f.isOpen s.scopes u = false := by
      intro hreceived u hu
      by_contra hopen
      exact hjoins ⟨by simpa using hreceived, u, hu, by simpa using hopen⟩
    obtain ⟨hclosed, hnew, hcurrent, hopen, hunits⟩ := hf.opened s.scopes c (!received) hfree
    have hleft := hf.leftOpened s.scopes c (!received) hfree
    have hopens : (!f.isOpen s.scopes (f.enter s.scopes c (!received)).unit) = true := by
      rw [hclosed]
      rfl
    refine ⟨rfl, .opens hopens hnew ?_, ?_, ?_, ?_, ?_, ?_, ?_⟩
    · cases received with
      | true => exact .inl rfl
      | false => exact .inr (hfree rfl)
    · simpa [hopens] using hcurrent
    · simpa [hopens] using hopen
    · simpa [hopens] using hunits
    · intro later
      simpa [hopens] using (hleft later).1
    · intro later
      simpa [hopens] using (hleft later).2.1
    · exact fun later => (hleft later).2.2

theorem Enterable.notMem (he : Enterable f s scopes e) : .entered e ∉ s.log :=
  fun hm => he.new e hm rfl

/-- Where a message enters its chain it is placed by what came before. -/
theorem Balanced.placed (h : Balanced f s) (he : Enterable f s scopes e) : Placed s.log e := by
  have hopen : ∀ u, f.isOpen s.scopes u = false ↔ ¬OpenIn s.log u := fun u => by
    rw [← h.isOpen u, Bool.not_eq_true]
  refine ⟨?_, fun ho e' he' => ?_, fun ho => ?_, he.around, fun n hn e' he' hf => ?_⟩
  · cases he.joining with
    | opens ho _ hr => exact iff_of_true ho (hr.imp_right fun hu u ht => (hopen u).mp (hu u ht))
    | joins ho hr ht hu =>
      refine iff_of_false (by simp [ho]) ?_
      rintro (hr' | hall)
      · cases hr.symm.trans hr'
      · exact hall e.unit ht ((h.isOpen e.unit).mp hu)
  · cases he.joining with
    | opens _ hu _ => exact fun heq => hu (heq ▸ h.bounded e' he')
    | joins ho' _ _ _ => cases ho.symm.trans ho'
  · cases he.joining with
    | opens ho' _ _ => cases ho.symm.trans ho'
    | joins _ _ ht _ => exact ht
  · have hleft := he.done n hn e' he' hf
    refine ⟨hleft, fun ho heq => ?_⟩
    cases he.joining with
    | opens _ hu _ => exact hu (heq ▸ h.bounded e' he')
    | joins _ _ _ hu =>
      -- what is joined is open, and what was opened for the hold is not
      obtain ⟨e'', hm, ho', hu', hl⟩ := (h.isOpen e.unit).mp hu
      obtain rfl := h.owners e'' e' hm he' ho' ho (hu'.trans heq.symm)
      exact hl hleft

theorem running_enter (s : State ν ω σ κ) (scopes : σ) (e : Entry κ) :
    (s.enter scopes e).running e.context = e :: s.running e.context := by
  simp [State.enter]

theorem Balanced.enter (h : Balanced f s) (he : Enterable f s scopes e) :
    Balanced f (s.enter scopes e) := by
  have hnotMem := he.notMem
  have hnotLeft : .left e ∉ s.log := fun hl => hnotMem (h.left e hl)
  have hlog : ∀ e', .entered e' ∈ (s.enter scopes e).log ↔ .entered e' ∈ s.log ∨ e' = e := by
    simp [State.enter]
  have hleft : ∀ e', .left e' ∈ (s.enter scopes e).log ↔ .left e' ∈ s.log := by simp [State.enter]
  have hunits : e.unit ∈ f.units scopes ∧ ∀ u ∈ f.units s.scopes, u ∈ f.units scopes := by
    rw [he.units]
    cases he.joining with
    | opens ho hu _ =>
      rw [if_pos ho]
      exact ⟨List.mem_cons_self, fun u hu => List.mem_cons_of_mem _ hu⟩
    | joins ho _ _ hu =>
      obtain ⟨e', hm, -, hu', -⟩ := (h.isOpen e.unit).mp hu
      simpa [ho, ← hu'] using h.bounded e' hm
  have howner : ∀ e', .entered e' ∈ s.log → e'.opens = true → e.opens = true →
      e'.unit ≠ e.unit := fun e' he' _ ho => (h.placed he).fresh ho e' he'
  refine {
    bounded := fun e' he' => ?_
    exits := fun e' he' => ?_
    ids := fun e' e'' he' he'' hid => ?_
    left := fun e' he' => (hlog e').mpr (.inl (h.left e' ((hleft e').mp he')))
    running := fun c e' => ?_
    nodup := fun c => ?_
    stacked := fun c => ?_
    isOpen := fun u => ?_
    owners := fun e' e'' he' he'' ho' ho'' hu => ?_
    follows := justified_concat.mpr ⟨h.follows, h.placed he⟩ }
  · rcases (hlog e').mp he' with hm | rfl
    · exact hunits.2 _ (h.bounded e' hm)
    · exact hunits.1
  · rcases (hlog e').mp he' with hm | rfl
    · exact h.exits e' hm
    · exact he.exits
  · rcases (hlog e').mp he' with hm | rfl <;> rcases (hlog e'').mp he'' with hm' | rfl
    · exact h.ids e' e'' hm hm' hid
    · exact absurd hid (he.new e' hm)
    · exact absurd hid.symm (he.new e'' hm')
    · rfl
  · rw [hlog, hleft]
    have hmem := h.running c e'
    rcases eq_or_ne c e.context with rfl | hne
    · rw [running_enter, List.mem_cons, hmem]
      constructor
      · rintro (rfl | ⟨hc, hm, hl⟩)
        · exact ⟨rfl, .inr rfl, hnotLeft⟩
        · exact ⟨hc, .inl hm, hl⟩
      · rintro ⟨hc, hm | rfl, hl⟩
        · exact .inr ⟨hc, hm, hl⟩
        · exact .inl rfl
    · have hrun : (s.enter scopes e).running c = s.running c := by simp [State.enter, hne]
      rw [hrun, hmem]
      refine and_congr_right fun hc => and_congr_left fun _ => ?_
      exact (or_iff_left fun heq => hne (hc.symm.trans (congrArg Entry.context heq))).symm
  · rcases eq_or_ne c e.context with rfl | hne
    · rw [running_enter, List.nodup_cons]
      exact ⟨fun hm => hnotMem ((h.running _ e).mp hm).2.1, h.nodup _⟩
    · simpa [State.enter, hne] using h.nodup c
  · have hstacked := h.stacked c
    have hscopes : (s.enter scopes e).scopes = scopes := rfl
    rw [hscopes, he.current]
    rcases eq_or_ne c e.context with rfl | hne
    · rw [← he.token] at hstacked
      cases he.joining with
      | opens ho _ _ => simpa [State.enter, ho] using Stacked.opened ho hstacked
      | joins ho _ ht _ => simpa [State.enter, ho, ← he.token] using Stacked.joined ho ht hstacked
    · cases ho : e.opens <;> simpa [State.enter, hne] using hstacked
  · change _ ↔ OpenIn (s.log ++ [.entered e]) u
    have hscopes : (s.enter scopes e).scopes = scopes := rfl
    rw [openIn_entered hnotLeft, ← h.isOpen, hscopes, he.isOpen]
    cases ho : e.opens with
    | true =>
      rcases eq_or_ne u e.unit with rfl | hne
      · simp
      · simp [hne, hne.symm]
    | false => simp
  · rcases (hlog e').mp he' with hm | rfl <;> rcases (hlog e'').mp he'' with hm' | rfl
    · exact h.owners e' e'' hm hm' ho' ho'' hu
    · exact absurd hu (howner e' hm ho' ho'')
    · exact absurd hu.symm (howner e'' hm' ho'' ho')
    · rfl

end Steps

variable [PyObject ω] {f : ScopeFactory σ κ} {start : σ} {s t : State ν ω σ κ}

/-- The entries and what the buses know of them: each was entered by its bus, and those that run,
run there. -/
structure Inv (f : ScopeFactory σ κ) (s : State ν ω σ κ) : Prop extends Balanced f s where
  buses : DispatchAfterCurrentBus.Inv s.bus
  entered : ∀ e, .entered e ∈ s.log → Entered s.bus.log e.id e.role
  roles : ∀ c, ∀ e ∈ s.running c, s.bus.running e.id = some e.role
  unmade : ∀ c, s.bus.contexts ≤ c → s.running c = []

/-- What a step of the buses enters, runs in a unit from then on. -/
theorem Inv.enterLast (hf : f.Documented start)
    {bus : DispatchAfterCurrentBus.State (Inner ν) ω} {c : Nat} {left : Nat → Option Role}
    (h : Balanced f s) (hbus : DispatchAfterCurrentBus.Inv bus)
    (henters : Enters s.bus bus left (lastEntrance bus.log))
    (hentered : ∀ e, .entered e ∈ s.log → Entered s.bus.log e.id e.role)
    (hroles : ∀ c, ∀ e ∈ s.running c, left e.id = some e.role)
    (hmade : ∀ c, bus.contexts ≤ c → s.running c = []) (hc : c < bus.contexts)
    (haround : ∀ id role envelope, lastEntrance bus.log = some (id, role, envelope) →
      ∀ h, role = .drained h → (∃ e', .entered e' ∈ s.log ∧ e'.role = .current ∧ e'.id = h ∧
        e'.context = c ∧ e'.token = f.current s.scopes c) ∧
      ∀ e', .entered e' ∈ s.log → e'.role.IsFor e'.id h → .left e' ∈ s.log) :
    Inv f (s.enterLast f c bus) := by
  have hbalanced : Balanced f { s with bus := bus } :=
    ⟨h.bounded, h.exits, h.ids, h.left, h.running, h.nodup, h.stacked, h.isOpen, h.owners,
      h.follows⟩
  unfold State.enterLast
  generalize hlast : lastEntrance bus.log = entrance at henters haround ⊢
  cases henters with
  | none hrunning hlog =>
    exact ⟨hbalanced, hbus, fun e he => (hlog _ _).mpr (hentered e he),
      fun c e he => by rw [hrunning]; exact hroles c e he, hmade⟩
  | some id role envelope hrunning hlog hnew =>
    dsimp only
    obtain ⟨scopes, e, henter, rfl, hid, hrole, hhandled⟩ :=
      handle_handled hf { s with bus := bus } c (id, role, envelope)
    obtain rfl : e.id = id := hid
    obtain rfl : e.role = role := hrole
    rw [henter]
    have hne : ∀ e', .entered e' ∈ s.log → e'.id ≠ e.id := fun e' he' heq =>
      hnew e'.role (heq ▸ hentered e' he')
    have henterable : Enterable f { s with bus := bus } scopes e := by
      refine ⟨hhandled, hne, fun h hh => ?_, fun h hh => ?_⟩
      · rw [hhandled.token]
        exact (haround e.id e.role envelope rfl h hh).1
      · exact (haround e.id e.role envelope rfl h hh).2
    refine ⟨hbalanced.enter henterable, hbus, fun e' he' => ?_, fun c e' he' => ?_, fun c hle => ?_⟩
    · refine (hlog _ _).mpr ?_
      rcases List.mem_append.mp he' with hm | hm
      · exact .inl (hentered e' hm)
      · obtain rfl : e' = e := by simpa using hm
        exact .inr ⟨rfl, rfl⟩
    · change bus.running e'.id = _
      rw [hrunning]
      have hrun : e' = e ∨ e' ∈ s.running c := by
        rcases eq_or_ne c e.context with rfl | hne'
        · simpa [State.enter] using he'
        · exact .inr (by simpa [State.enter, hne'] using he')
      rcases hrun with rfl | hm
      · simp
      · rw [Function.update_of_ne (hne e' ((h.running c e').mp hm).2.1)]
        exact hroles c e' hm
    · have hne' : c ≠ e.context := fun heq => absurd hc (by
        have hle' : bus.contexts ≤ c := hle
        omega)
      simpa [State.enter, hne'] using hmade c hle

theorem Inv.context (hf : f.Documented start) (hi : Inv f s) {inherits : Option Nat}
    {bus : DispatchAfterCurrentBus.State (Inner ν) ω}
    (hb : DispatchAfterCurrentBus.step s.bus (.context inherits) = some bus) :
    Inv f { s with
      bus := bus
      scopes := f.copy s.scopes s.bus.contexts inherits
      inherited := Function.update s.inherited s.bus.contexts
        (inherits.bind (f.current s.scopes)) } := by
  have hsame : bus.log = s.bus.log ∧ bus.running = s.bus.running ∧
      bus.contexts = s.bus.contexts + 1 := by
    cases steps_of_step hb
    exact ⟨rfl, rfl, rfl⟩
  obtain ⟨hlog, hrunning, hcontexts⟩ := hsame
  obtain ⟨hcurrent, hopen, hunits⟩ := hf.copied s.scopes s.bus.contexts inherits
  refine ⟨⟨hunits ▸ hi.bounded, hi.exits, hi.ids, hi.left, hi.running, hi.nodup, fun c => ?_,
    hopen ▸ hi.isOpen, hi.owners, hi.follows⟩, step_inv hi.buses (steps_of_step hb),
    fun e he => ?_, fun c e he => ?_, fun c hle => ?_⟩
  · change Stacked _ (f.current (f.copy s.scopes s.bus.contexts inherits) c) (s.running c)
    rw [hcurrent]
    rcases eq_or_ne c s.bus.contexts with rfl | hne
    · rw [hi.unmade s.bus.contexts (Nat.le_refl _)]
      simpa using Stacked.nil
    · simpa [hne] using hi.stacked c
  · change Entered bus.log e.id e.role
    rw [hlog]
    exact hi.entered e he
  · change bus.running e.id = some e.role
    rw [hrunning]
    exact hi.roles c e he
  · have hle' : bus.contexts ≤ c := hle
    exact hi.unmade c (by omega)

/-- What the chain that ends says of the one its hold enters next. -/
theorem Inv.next (hi : Inv f s) {c h : Nat} {e : Entry κ} {entries : List (Entry κ)}
    (hr : s.running c = e :: entries) (hf : e.role.IsFor e.id h) :
    (∃ e', .entered e' ∈ (s.leave f e entries).log ∧ e'.role = .current ∧ e'.id = h ∧
      e'.context = c ∧ e'.token = f.current (s.leave f e entries).scopes c) ∧
    ∀ e', .entered e' ∈ (s.leave f e entries).log → e'.role.IsFor e'.id h →
      .left e' ∈ (s.leave f e entries).log := by
  obtain ⟨hc, hentered, hleft⟩ := hi.top hr
  have hlog : ∀ e', .entered e' ∈ (s.leave f e entries).log ↔ .entered e' ∈ s.log := by
    simp [State.leave]
  rw [hi.current_leave hr]
  refine ⟨?_, fun e' he' hf' => ?_⟩
  · cases hrole : e.role with
    | nested =>
      rw [hrole] at hf
      exact hf.elim
    | current =>
      rw [hrole] at hf
      exact ⟨e, (hlog e).mpr hentered, hrole, hf, hc, rfl⟩
    | drained h' =>
      rw [hrole] at hf
      obtain rfl : h' = h := hf
      obtain ⟨pre, post, hpre⟩ := List.append_of_mem hentered
      obtain ⟨e', he', hcurrent, hid, hcontext, htoken⟩ :=
        (hi.follows pre (.entered e) post hpre).around h' hrole
      refine ⟨e', (hlog e').mpr ?_, hcurrent, hid, hcontext.trans hc, htoken⟩
      rw [hpre]
      exact List.mem_append_left _ he'
  · rcases eq_or_ne e' e with rfl | hne
    · simp [State.leave]
    · by_contra hl
      have hl' : .left e' ∉ s.log := fun hm => hl (List.mem_append_left _ hm)
      -- two chains of one hold never run at once
      have hrun' := (hi.running e'.context e').mpr ⟨rfl, (hlog e').mp he', hl'⟩
      have hrun := (hi.running c e).mpr ⟨hc, hentered, hleft⟩
      have hruns := hi.buses.running _ _ (hi.roles _ _ hrun)
      have hruns' := hi.buses.running _ _ (hi.roles _ _ hrun')
      exact hne (hi.ids e' e ((hlog e').mp he') hentered (hruns'.unique hruns hf' hf))

theorem step_inv {a : Action ν ω} (hf : f.Documented start) (hi : Inv f s)
    (hs : step f s a = some t) : Inv f t := by
  cases a with
  | context inherits =>
    obtain ⟨bus, hb, rfl⟩ := Option.map_eq_some_iff.mp hs
    exact hi.context hf hb
  | dispatch c bus envelope =>
    obtain ⟨b, hb, rfl⟩ := Option.map_eq_some_iff.mp hs
    have hsteps := steps_of_step hb
    obtain ⟨henters, hrole⟩ := dispatch_enters hi.buses hsteps
    have hcontexts := contexts_of_steps hsteps (by simp)
    have hc : c < s.bus.contexts := by
      by_contra hlt
      simp [DispatchAfterCurrentBus.step, hlt] at hb
    refine Inv.enterLast hf hi.toBalanced (DispatchAfterCurrentBus.step_inv hi.buses hsteps) henters
      hi.entered hi.roles (hcontexts ▸ hi.unmade) (hcontexts ▸ hc) fun id role e hlast h hh => ?_
    rcases hrole id role e hlast with rfl | ⟨rfl, -⟩ <;> cases hh
  | finish c outcome =>
    simp only [step] at hs
    split at hs
    · cases hs
    · rename_i e entries hr
      obtain ⟨b, hb, rfl⟩ := Option.map_eq_some_iff.mp hs
      obtain ⟨hc, hentered, hleft⟩ := hi.top hr
      have hrun := (hi.running c e).mpr ⟨hc, hentered, hleft⟩
      have hsteps := steps_of_step hb
      have hcontexts := contexts_of_steps hsteps (by simp)
      obtain ⟨role, hrole, henters, hnext⟩ := finish_enters hi.buses hb
      obtain rfl : role = e.role := Option.some.inj (hrole.symm.trans (hi.roles c e hrun))
      have hbalanced := hi.toBalanced.leave hr
      have hlog : ∀ e', .entered e' ∈ (s.leave f e entries).log ↔ .entered e' ∈ s.log := by
        simp [State.leave]
      refine Inv.enterLast hf hbalanced (DispatchAfterCurrentBus.step_inv hi.buses hsteps) henters
        (fun e' he' => hi.entered e' ((hlog e').mp he')) (fun c' e' he' => ?_) (fun c' hle => ?_)
        ?_ fun id role' envelope hlast h hh => ?_
      · obtain ⟨hc', hm, hl⟩ := (hbalanced.running c' e').mp he'
        have hm' := (hlog e').mp hm
        have hne : e'.id ≠ e.id := by
          intro heq
          obtain rfl := hi.ids e' e hm' hentered heq
          simp [State.leave] at hl
        rw [Function.update_of_ne hne]
        refine hi.roles c' e' ((hi.running c' e').mpr ⟨hc', hm', fun hl' => hl ?_⟩)
        exact List.mem_append_left _ hl'
      · have hne : c' ≠ c := by
          rintro rfl
          have hnil := hi.unmade c' (hcontexts ▸ hle)
          rw [hr] at hnil
          cases hnil
        simpa [State.leave, hc, hne] using hi.unmade c' (hcontexts ▸ hle)
      · by_contra hlt
        have hnil := hi.unmade c (by rw [← hcontexts]; omega)
        rw [hr] at hnil
        cases hnil
      · obtain ⟨h', hrole', hfor⟩ := hnext id role' envelope hlast
        obtain rfl : h = h' := Role.drained.inj (hh.symm.trans hrole')
        exact hi.next hr hfor

theorem reachable_inv (hf : f.Documented start) (h : (machine ν ω f start).Reachable s) :
    Inv f s := by
  refine h.invariant ?_ fun s a t _ hi _ hs => step_inv hf hi hs
  rintro s rfl
  have hbalanced : Balanced f ({ scopes := start } : State ν ω σ κ) := by
    refine ⟨by simp, by simp, by simp, by simp, by simp, fun c => .nil, fun c => ?_, fun u => ?_,
      by simp, .nil⟩
    · rw [hf.outside]
      exact .nil
    · simp [OpenIn, hf.unopened]
  exact ⟨hbalanced, DispatchAfterCurrentBus.reachable_inv (.start rfl), by simp, by simp,
    fun c _ => rfl⟩

section Sample

/-- The units of a container that numbers them. -/
structure Numbered where
  current : Nat → Option Nat := fun _ => none
  used : Nat := 0
  released : List Nat := []

/-- The next unit is opened in a context. -/
def Numbered.opened (scopes : Numbered) (context : Nat) : Numbered where
  current := Function.update scopes.current context (some scopes.used)
  used := scopes.used + 1
  released := scopes.released.filter fun unit => unit < scopes.used

/-- A container that numbers its units; a scope holds the unit it opened and the one before. -/
def numbering : ScopeFactory Numbered (Option (Nat × Option Nat)) where
  current := Numbered.current
  isOpen scopes unit := unit < scopes.used && unit ∉ scopes.released
  units scopes := (List.range scopes.used).reverse
  enter scopes context join :=
    let found := (scopes.current context).filter fun unit =>
      join && (unit < scopes.used && unit ∉ scopes.released)
    match found with
    | some unit => ⟨scopes, unit, none⟩
    | none => ⟨scopes.opened context, scopes.used, some (scopes.used, scopes.current context)⟩
  exit scopes context
    | none => scopes
    | some (unit, token) =>
      { scopes with
        current := Function.update scopes.current context token
        released := unit :: scopes.released }
  copy scopes context inherits :=
    { scopes with
      current := Function.update scopes.current context (inherits.bind scopes.current) }

variable {scopes : Numbered} {context : Nat}

theorem numbering_joined {unit : Nat} (hc : scopes.current context = some unit)
    (ho : numbering.isOpen scopes unit = true) :
    numbering.enter scopes context true = ⟨scopes, unit, none⟩ := by
  have hopen : (unit < scopes.used && unit ∉ scopes.released) = true := ho
  simp only [numbering, hc, Option.filter_some, Bool.true_and, hopen, ↓reduceIte]

theorem numbering_opened {join : Bool} (h : join = true → ∀ unit,
    scopes.current context = some unit → numbering.isOpen scopes unit = false) :
    numbering.enter scopes context join =
      ⟨scopes.opened context, scopes.used, some (scopes.used, scopes.current context)⟩ := by
  have hfound : (scopes.current context).filter (fun unit =>
      join && (unit < scopes.used && unit ∉ scopes.released)) = none := by
    rw [Option.filter_eq_none_iff]
    intro unit hunit hopen
    obtain ⟨hjoin, hopen⟩ := Bool.and_eq_true_iff.mp hopen
    have hclosed : (unit < scopes.used && unit ∉ scopes.released) = false := h hjoin unit hunit
    rw [hclosed] at hopen
    cases hopen
  simp only [numbering, hfound]

theorem numbering_isOpen_opened (scopes : Numbered) (context : Nat) :
    numbering.isOpen (scopes.opened context) =
      Function.update (numbering.isOpen scopes) scopes.used true := by
  funext unit
  rcases eq_or_ne unit scopes.used with rfl | hne
  · simp [numbering, Numbered.opened]
  · have hlt : unit < scopes.used + 1 ↔ unit < scopes.used := by omega
    rw [Function.update_of_ne hne]
    by_cases hu : unit < scopes.used <;> simp [numbering, Numbered.opened, hlt, hu]

theorem numbering_isOpen_exit (scopes : Numbered) (context unit : Nat) (token : Option Nat) :
    numbering.isOpen (numbering.exit scopes context (some (unit, token))) =
      Function.update (numbering.isOpen scopes) unit false := by
  funext other
  rcases eq_or_ne other unit with rfl | hne
  · simp [numbering]
  · simp [numbering, hne]

theorem numbering_documented : numbering.Documented {} where
  unopened unit := by simp [numbering]
  outside context := rfl
  joined scopes context unit hc ho := by
    rw [numbering_joined hc ho]
    exact ⟨rfl, rfl, rfl, rfl⟩
  leftJoined scopes context unit hc ho later := by
    rw [numbering_joined hc ho]
    exact ⟨rfl, rfl, rfl⟩
  opened scopes context join h := by
    rw [numbering_opened h]
    refine ⟨by simp [numbering], by simp [numbering], rfl, numbering_isOpen_opened _ _, ?_⟩
    simp [numbering, Numbered.opened, List.range_succ]
  leftOpened scopes context join h later := by
    rw [numbering_opened h]
    exact ⟨rfl, numbering_isOpen_exit later context scopes.used _, rfl⟩
  copied scopes context inherits := ⟨rfl, rfl, rfl⟩

/-- A message a worker received, handled inside another, is new work; one held back meanwhile
runs when both are done with, in a unit of its own. -/
def workInside : List (Action Unit Int) :=
  [.context none, .dispatch 0 (.of [] []) ⟨10, []⟩,
    .dispatch 0 (.of [] []) ⟨11, [.shipped (.received "jobs")]⟩,
    .dispatch 0 (.of [] []) (later 12), .dispatch 0 (.of [] []) ⟨13, []⟩, .finish 0 (.ok ⟨13, []⟩),
    .finish 0 (.error (.exception "ValueError" "no")), .finish 0 (.ok ⟨10, []⟩),
    .finish 0 (.ok ⟨12, []⟩)]

end Sample

end XtrMessenger.UnitOfWork
