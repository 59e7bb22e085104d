import XtrMessenger.Foundation.Programs
import XtrMessenger.Middleware.Holding
import XtrMessenger.Bus.Frames

/-! A dispatch at its cursor: each middleware is handed the one `StackMiddleware`, and goes on with
whatever `stack.next()` returns when it asks. -/
namespace XtrMessenger
open Foundation
variable {κ ε α : Type}

/-- What handling with a cursor comes to. -/
structure Walked (κ ε α : Type) where
  /-- The places of the middleware entered, in order. -/
  entered : List Nat
  calls : List κ
  result : Except ε α
  stack : StackMiddleware (α → Program κ ε α)

def Walked.traced (w : Walked κ ε α) : Traced κ ε α := ⟨w.calls, w.result⟩

/-- A middleware's `handle`, where `enter` is `stack.next().handle`. -/
def Foundation.Program.on
    (enter : α → StackMiddleware (α → Program κ ε α) → Walked κ ε α) :
    Program κ ε α → StackMiddleware (α → Program κ ε α) → Walked κ ε α
  | .finish result, stack => ⟨[], [], result, stack⟩
  | .call c rest, stack =>
    let after := rest.on enter stack
    { after with calls := c :: after.calls }
  | .next a rest, stack =>
    let answer := enter a stack
    let after := (rest answer.result).on enter answer.stack
    { after with entered := answer.entered ++ after.entered, calls := answer.calls ++ after.calls }

namespace StackMiddleware

/-- `stack.next().handle(envelope, stack)`, for a cursor with no more middleware left than `fuel`:
the identity once there is none. -/
def enter : Nat → α → StackMiddleware (α → Program κ ε α) → Walked κ ε α
  | 0, a, stack => ⟨[], [], .ok a, stack⟩
  | fuel + 1, a, stack =>
    match stack.next with
    | (none, stack) => ⟨[], [], .ok a, stack⟩
    | (some middleware, next) =>
      let walked := (middleware a).on (enter fuel) next
      { walked with entered := stack.offset :: walked.entered }

/-- `MessageBus.dispatch`: a fresh cursor each time. -/
def dispatch (middlewares : List (α → Program κ ε α)) (a : α) : Walked κ ε α :=
  enter middlewares.length a ⟨middlewares, 0⟩

/-- The cursor went on from one place to another, through each middleware between. -/
structure Advanced (stack : StackMiddleware (α → Program κ ε α)) (w : Walked κ ε α) : Prop where
  middlewares : w.stack.middlewares = stack.middlewares
  forward : stack.offset ≤ w.stack.offset
  entered : w.entered = List.range' stack.offset (w.stack.offset - stack.offset)
  inside : stack.offset ≤ stack.middlewares.length → w.stack.offset ≤ w.stack.middlewares.length

variable {stack : StackMiddleware (α → Program κ ε α)} {fuel : Nat}

theorem advanced_refl (stack : StackMiddleware (α → Program κ ε α)) (calls : List κ)
    (result : Except ε α) : Advanced stack ⟨[], calls, result, stack⟩ :=
  ⟨rfl, Nat.le_refl _, by simp, id⟩

theorem Advanced.trans {w w' : Walked κ ε α} (h : Advanced stack w) (h' : Advanced w.stack w')
    (calls : List κ) :
    Advanced stack { w' with entered := w.entered ++ w'.entered, calls := calls } := by
  have hforward := h.forward
  have hforward' := h'.forward
  refine ⟨h'.middlewares.trans h.middlewares, Nat.le_trans hforward hforward', ?_, ?_⟩
  · have hplace : w.stack.offset = stack.offset + (w.stack.offset - stack.offset) := by omega
    have htotal : w'.stack.offset - stack.offset =
        (w.stack.offset - stack.offset) + (w'.stack.offset - w.stack.offset) := by omega
    change w.entered ++ w'.entered = List.range' stack.offset (w'.stack.offset - stack.offset)
    rw [h.entered, h'.entered, htotal, ← List.range'_append_1, ← hplace]
  · intro hle
    exact h'.inside (h.inside hle)

theorem on_advanced {enter : α → StackMiddleware (α → Program κ ε α) → Walked κ ε α}
    (henter : ∀ a stack, Advanced stack (enter a stack)) (program : Program κ ε α)
    (stack : StackMiddleware (α → Program κ ε α)) : Advanced stack (program.on enter stack) := by
  induction program generalizing stack with
  | finish result => exact advanced_refl stack [] result
  | call c rest ih =>
    obtain ⟨hm, hf, he, hi⟩ := ih stack
    exact ⟨hm, hf, he, hi⟩
  | next a rest ih => exact (henter a stack).trans (ih _ _) _

/-- Entered, a middleware is behind the cursor. -/
theorem advanced_next {middleware : α → Program κ ε α}
    {next : StackMiddleware (α → Program κ ε α)}
    (h : stack.next = (some middleware, next)) {w : Walked κ ε α} (hw : Advanced next w) :
    Advanced stack { w with entered := stack.offset :: w.entered } := by
  unfold StackMiddleware.next at h
  cases hm : stack.middlewares[stack.offset]? with
  | none => simp [hm] at h
  | some m =>
    rw [hm] at h
    obtain ⟨-, rfl⟩ := Prod.mk.inj h
    obtain ⟨hlt, -⟩ := List.getElem?_eq_some_iff.mp hm
    have hone : Advanced stack
        (⟨[stack.offset], [], w.result, { stack with offset := stack.offset + 1 }⟩ :
          Walked κ ε α) := by
      refine ⟨rfl, Nat.le_succ _, ?_, fun _ => hlt⟩
      change [stack.offset] = List.range' stack.offset (stack.offset + 1 - stack.offset)
      simp
    exact hone.trans hw w.calls

theorem enter_advanced (fuel : Nat) (a : α) (stack : StackMiddleware (α → Program κ ε α)) :
    Advanced stack (enter fuel a stack) := by
  induction fuel generalizing a stack with
  | zero => exact advanced_refl stack [] _
  | succ fuel ih =>
    unfold enter
    split
    · rename_i last h
      have hlast : last = stack := by
        unfold StackMiddleware.next at h
        split at h
        · exact (Prod.mk.inj h).2.symm
        · cases (Prod.mk.inj h).1
      exact hlast ▸ advanced_refl last [] _
    · rename_i middleware next h
      exact advanced_next h (on_advanced ih (middleware a) next)

/-- What is left after the cursor went on is no more than before. -/
theorem Advanced.remaining_le {w : Walked κ ε α} (h : Advanced stack w) :
    w.stack.remaining.length ≤ stack.remaining.length := by
  have hforward := h.forward
  simp only [remaining, List.length_drop, h.middlewares]
  omega

/-- The tail is where the cursor stops. -/
theorem next_none {last : StackMiddleware (α → Program κ ε α)} (h : stack.next = (none, last)) :
    last = stack ∧ stack.remaining = [] := by
  have hleft := stack.remaining_eq
  unfold StackMiddleware.next at h hleft
  split at h
  · rename_i hm
    obtain ⟨-, rfl⟩ := Prod.mk.inj h
    exact ⟨rfl, List.drop_eq_nil_of_le (List.getElem?_eq_none_iff.mp hm)⟩
  · cases (Prod.mk.inj h).1

theorem next_some {middleware : α → Program κ ε α} {next : StackMiddleware (α → Program κ ε α)}
    (h : stack.next = (some middleware, next)) :
    stack.remaining = middleware :: next.remaining := by
  have hleft := stack.remaining_eq
  rwa [h] at hleft

theorem on_congr {n : Nat} {enter enter' : α → StackMiddleware (α → Program κ ε α) → Walked κ ε α}
    (hsame : ∀ a stack, stack.remaining.length ≤ n → enter a stack = enter' a stack)
    (hadvanced : ∀ a stack, Advanced stack (enter a stack)) (program : Program κ ε α)
    (hle : stack.remaining.length ≤ n) : program.on enter stack = program.on enter' stack := by
  induction program generalizing stack with
  | finish result => rfl
  | call c rest ih => simp only [Program.on, ih hle]
  | next a rest ih =>
    have hbehind := (hadvanced a stack).remaining_le
    simp only [Program.on, ← hsame a stack hle, ih _ (Nat.le_trans hbehind hle)]

/-- With no middleware left, what is handed on is what it is. -/
theorem enter_tail (fuel : Nat) (a : α) (h : stack.remaining = []) :
    enter fuel a stack = ⟨[], [], .ok a, stack⟩ := by
  cases fuel with
  | zero => rfl
  | succ fuel =>
    unfold enter
    split
    · rename_i last hnext
      rw [(next_none hnext).1]
    · rename_i middleware next hnext
      rw [next_some hnext] at h
      cases h

/-- More fuel than there is middleware changes nothing. -/
theorem enter_fuel {fuel' : Nat} (a : α) (h : stack.remaining.length ≤ fuel)
    (h' : stack.remaining.length ≤ fuel') : enter fuel a stack = enter fuel' a stack := by
  induction fuel generalizing a stack fuel' with
  | zero =>
    have hnil := List.length_eq_zero_iff.mp (Nat.le_zero.mp h)
    rw [enter_tail 0 a hnil, enter_tail fuel' a hnil]
  | succ fuel ih =>
    cases fuel' with
    | zero =>
      have hnil := List.length_eq_zero_iff.mp (Nat.le_zero.mp h')
      rw [enter_tail _ a hnil, enter_tail 0 a hnil]
    | succ fuel' =>
      unfold enter
      split
      · rfl
      · rename_i middleware next hnext
        rw [next_some hnext, List.length_cons, Nat.succ_le_succ_iff] at h h'
        have hsame : (middleware a).on (enter fuel) next = (middleware a).on (enter fuel') next :=
          on_congr (fun b s hs => ih b (Nat.le_trans hs h) (Nat.le_trans hs h'))
            (enter_advanced fuel) _ (Nat.le_refl _)
        rw [hsame]

/-- With the work handed on no more, the cursor does not matter. -/
theorem on_ends {enter : α → StackMiddleware (α → Program κ ε α) → Walked κ ε α}
    (next : α → Traced κ ε α) {program : Program κ ε α} (h : program.Ends) :
    (program.on enter stack).traced = program.within next := by
  induction program with
  | finish result => rfl
  | call c rest ih =>
    change (⟨c :: (rest.on enter stack).traced.calls, (rest.on enter stack).traced.result⟩ :
      Traced κ ε α) = _
    rw [ih h]
    rfl
  | next a rest ih => exact h.elim

theorem on_once {enter : α → StackMiddleware (α → Program κ ε α) → Walked κ ε α}
    {next : α → Traced κ ε α} (hsame : ∀ a, (enter a stack).traced = next a)
    {program : Program κ ε α} (h : program.Once) :
    (program.on enter stack).traced = program.within next := by
  induction program with
  | finish result => rfl
  | call c rest ih =>
    change (⟨c :: (rest.on enter stack).traced.calls, (rest.on enter stack).traced.result⟩ :
      Traced κ ε α) = _
    rw [ih h]
    rfl
  | next a rest ih =>
    set after := (rest (enter a stack).result).on enter (enter a stack).stack with hafter
    have hrest : after.traced = (rest (enter a stack).result).within next :=
      on_ends next (h (enter a stack).result)
    change (⟨(enter a stack).traced.calls ++ after.traced.calls, after.traced.result⟩ :
      Traced κ ε α) = _
    have hresult : (enter a stack).result = (next a).result := congrArg Traced.result (hsame a)
    rw [hrest, hsame a, hresult]
    rfl

/-- Where each middleware goes on once at most, the cursor walks what they compose to. -/
theorem enter_composed (a : α) (hle : stack.remaining.length ≤ fuel)
    (h : ∀ middleware ∈ stack.remaining, ∀ a, (middleware a).Once) :
    (enter fuel a stack).traced = Program.composed stack.remaining a := by
  induction fuel generalizing a stack with
  | zero =>
    rw [List.length_eq_zero_iff.mp (Nat.le_zero.mp hle)]
    rfl
  | succ fuel ih =>
    unfold enter
    split
    · rename_i last hnext
      rw [(next_none hnext).2]
      rfl
    · rename_i middleware next hnext
      rw [next_some hnext] at hle h ⊢
      refine on_once (fun b => ?_) (h middleware List.mem_cons_self a)
      exact ih b (Nat.le_of_succ_le_succ hle) fun m hm => h m (List.mem_cons_of_mem _ hm)

end StackMiddleware

namespace Bus
variable {ω : Type}

/-- What a middleware's `handle` does, `await stack.next().handle(..)` left open. -/
abbrev Handling (ω : Type) := Envelope ω → Program (BusCall ω) (Exc ω) (Envelope ω)

/-- The middleware a program is, given what going on comes to. -/
def Handling.middleware (handling : Handling ω) : Middleware ω :=
  fun envelope next => (handling envelope).within next

theorem chain_composed (handlings : List (Handling ω)) (envelope : Envelope ω) :
    chain (handlings.map Handling.middleware) envelope = Program.composed handlings envelope := by
  induction handlings generalizing envelope with
  | nil => rfl
  | cons handling rest ih =>
    change (handling envelope).within (chain (rest.map Handling.middleware)) =
      (handling envelope).within (Program.composed rest)
    rw [funext ih]

/-- `return await stack.next().handle(envelope, stack)`. -/
def going (envelope : Envelope ω) : Program (BusCall ω) (Exc ω) (Envelope ω) :=
  .next envelope .finish

/-- What is done with what came back, once it did. -/
def goingThen (envelope : Envelope ω) (record : Envelope ω → Except (Exc ω) Unit) :
    Program (BusCall ω) (Exc ω) (Envelope ω) :=
  .next envelope fun r => .finish (r >>= fun handled => (record handled).map fun _ => handled)

section Going
variable (next : Envelope ω → Dispatching ω (Envelope ω))

theorem within_going (envelope : Envelope ω) : (going envelope).within next = next envelope :=
  congrArg (Traced.mk · _) (List.append_nil _)

theorem within_finish (result : Except (Exc ω) (Envelope ω)) :
    (Program.finish result).within next = Traced.lift result := rfl

theorem within_goingThen (envelope : Envelope ω) (record : Envelope ω → Except (Exc ω) Unit) :
    (goingThen envelope record).within next = (do
      let handled ← next envelope
      Traced.lift (record handled)
      return handled) := by
  unfold goingThen Program.within
  cases hr : (next envelope).result with
  | error e =>
    rw [Traced.bind_of_error _ hr]
    exact congrArg (Traced.mk · _) (List.append_nil _)
  | ok handled =>
    rw [Traced.bind_of_ok _ hr]
    cases hrecord : record handled with
    | error e =>
      rw [Traced.bind_of_error _ (show (Traced.lift (.error e)).result = .error e from rfl)]
      simp [Program.within, bind, Except.bind, hrecord, Except.map]
    | ok u =>
      rw [Traced.bind_of_ok _ (show (Traced.lift (.ok u)).result = .ok u from rfl)]
      simp [Program.within, bind, Except.bind, hrecord, Except.map]

theorem once_going (envelope : Envelope ω) : (going envelope).Once := fun _ => trivial

theorem once_goingThen (envelope : Envelope ω) (record : Envelope ω → Except (Exc ω) Unit) :
    (goingThen envelope record).Once := fun _ => trivial

end Going
namespace Handling

/-- `LoggingMiddleware.handle`. -/
def logging (record : Envelope ω → Except (Exc ω) Unit) : Handling ω :=
  fun envelope => goingThen envelope record

/-- `UnitOfWorkMiddleware.handle`. -/
def unitOfWork (enter : Bool → Except (Exc ω) Unit)
    (leave : Bool → Except (Exc ω) (Envelope ω) → Except (Exc ω) Unit) : Handling ω :=
  fun envelope =>
    let join := (envelope.last (.shipped .received)).isNone
    Program.after (Traced.lift (enter join)) fun _ => .next envelope fun r =>
      .finish (leave join r >>= fun _ => r)

/-- `DispatchAfterCurrentBusMiddleware.handle`. -/
def holdingBack (current : Bool) (after : Envelope ω → Except (Exc ω) Unit) : Handling ω :=
  fun envelope =>
    let stamped := (envelope.last (.shipped .dispatchAfterCurrentBus)).isSome
    let envelope := if stamped then
      envelope.withoutStamps (.shipped .dispatchAfterCurrentBus) else envelope
    if stamped && current then .finish (.ok envelope)
    else if current then going envelope
    else goingThen envelope after

/-- `SendMessageMiddleware.handle`. -/
def sendMessage [PyObject ω] [BEq (Stamp ω)] (locator : SendersLocatorInterface ω)
    (requireSender handleUnrouted : Bool) : Handling ω := fun envelope =>
  if envelope.last (.shipped .received) ≠ none then going envelope
  else
    let resolved := locator.sendersFor envelope
    Program.after (sendEach envelope resolved) fun added =>
      if !resolved.isEmpty then
        let envelope := envelope.withStamps added
        if envelope.last (.shipped .received) = none then .finish (.ok envelope)
        else going envelope
      else if requireSender then
        .finish (.error (noSenderForMessageError (PyObject.typeOf envelope.message)
          locator.routedTypeNames))
      else if !handleUnrouted then .finish (.ok envelope)
      else going envelope

/-- `HandleMessageMiddleware.handle`. -/
def handleMessage [PyObject ω] (registry : HandlersLocatorInterface ω) (requireHandler : Bool) :
    Handling ω := fun envelope =>
  let messageType := PyObject.typeOf envelope.message
  let descriptors := registry.handlersFor messageType
  if descriptors.isEmpty && requireHandler then
    .finish (.error (noHandlerForMessageError messageType
      (sorted (registry.messageTypes.map PyType.qualname))))
  else
    Program.after (handleEach registry.invoke descriptors envelope []) fun handled =>
      if handled.2.isEmpty then going handled.1
      else .finish (Exc.handlersFailedError handled.1 handled.2 >>= .error)

end Handling

/-- What the middleware is written as: it goes on once at most. -/
def OnceWritten (m : Middleware ω) (handling : Handling ω) : Prop :=
  handling.middleware = m ∧ ∀ envelope, (handling envelope).Once

theorem onceWritten_logging (record : Envelope ω → Except (Exc ω) Unit) :
    OnceWritten (logging record) (.logging record) := by
  refine ⟨?_, fun envelope => once_goingThen envelope record⟩
  funext envelope next
  exact within_goingThen next envelope record

theorem onceWritten_unitOfWork (enter : Bool → Except (Exc ω) Unit)
    (leave : Bool → Except (Exc ω) (Envelope ω) → Except (Exc ω) Unit) :
    OnceWritten (unitOfWork enter leave) (.unitOfWork enter leave) := by
  refine ⟨?_, fun envelope => Program.once_after _ fun _ _ => trivial⟩
  funext envelope next
  unfold unitOfWork Handling.middleware Handling.unitOfWork
  simp only [Program.within_after]
  refine congrArg _ (funext fun _ => ?_)
  unfold Program.within Traced.finallyDo
  cases hleave : leave (envelope.last (.shipped .received)).isNone (next envelope).result with
  | error e => simp [Program.within, hleave, bind, Except.bind]
  | ok u => simp [Program.within, hleave, bind, Except.bind]

theorem onceWritten_holdingBack (current : Bool) (after : Envelope ω → Except (Exc ω) Unit) :
    OnceWritten (holdingBack current after) (.holdingBack current after) := by
  constructor
  · funext envelope next
    unfold holdingBack Handling.middleware Handling.holdingBack
    simp only [Program.within_ite, within_finish, within_going, within_goingThen]
    rfl
  · exact fun envelope => Program.once_ite trivial
      (Program.once_ite (once_going _) (once_goingThen _ _))

theorem onceWritten_sendMessage [PyObject ω] [BEq (Stamp ω)] (locator : SendersLocatorInterface ω)
    (requireSender handleUnrouted : Bool) :
    OnceWritten (sendMessage locator requireSender handleUnrouted)
      (.sendMessage locator requireSender handleUnrouted) := by
  constructor
  · funext envelope next
    unfold sendMessage Handling.middleware Handling.sendMessage
    simp only [Program.within_ite, Program.within_after, within_finish, within_going]
    rfl
  · intro envelope
    refine Program.once_ite (once_going _) (Program.once_after _ fun added => ?_)
    refine Program.once_ite (Program.once_ite trivial (once_going _)) ?_
    exact Program.once_ite trivial (Program.once_ite trivial (once_going _))

theorem onceWritten_handleMessage [PyObject ω] (registry : HandlersLocatorInterface ω)
    (requireHandler : Bool) : OnceWritten (handleMessage registry requireHandler)
      (.handleMessage registry requireHandler) := by
  constructor
  · funext envelope next
    unfold handleMessage Handling.middleware Handling.handleMessage
    simp only [Program.within_ite, Program.within_after, within_finish, within_going]
  · intro envelope
    refine Program.once_ite trivial (Program.once_after _ fun handled => ?_)
    exact Program.once_ite (once_going _) trivial

/-- What a dispatch does with its cursor, whatever the middleware are. -/
structure Walks (handlings : List (Handling ω)) (envelope : Envelope ω)
    (walked : Walked (BusCall ω) (Exc ω) (Envelope ω)) : Prop where
  inOrder : ∃ n ≤ handlings.length,
    walked.entered = List.range n ∧ walked.stack = ⟨handlings, n⟩
  stops : ∀ fuel ≥ handlings.length, StackMiddleware.enter fuel envelope ⟨handlings, 0⟩ = walked
  spent : walked.entered.length = handlings.length → ∀ fuel again,
    StackMiddleware.enter fuel again walked.stack = ⟨[], [], .ok again, walked.stack⟩

theorem walks_dispatch (handlings : List (Handling ω)) (envelope : Envelope ω) :
    Walks handlings envelope (StackMiddleware.dispatch handlings envelope) := by
  have hadvanced := StackMiddleware.enter_advanced handlings.length envelope ⟨handlings, 0⟩
  have hwithin := hadvanced.inside (Nat.zero_le _)
  have hentered := hadvanced.entered
  have hmiddlewares := hadvanced.middlewares
  set walked := StackMiddleware.dispatch handlings envelope with hwalked
  change walked.stack.offset ≤ walked.stack.middlewares.length at hwithin
  change walked.entered = List.range' 0 (walked.stack.offset - 0) at hentered
  change walked.stack.middlewares = handlings at hmiddlewares
  rw [Nat.sub_zero, ← List.range_eq_range'] at hentered
  rw [hmiddlewares] at hwithin
  refine ⟨⟨walked.stack.offset, hwithin, hentered, ?_⟩, fun fuel hfuel => ?_, fun hall fuel a => ?_⟩
  · rw [← hmiddlewares]
  · exact StackMiddleware.enter_fuel envelope hfuel (Nat.le_refl _)
  · rw [hentered, List.length_range] at hall
    have hend : walked.stack.middlewares.length ≤ walked.stack.offset := by
      rw [hmiddlewares]
      exact Nat.le_of_eq hall.symm
    exact StackMiddleware.enter_tail fuel a (List.drop_eq_nil_of_le hend)

/-- A middleware and its `handle`: one of the library's, or a custom one that goes on once at
most. -/
inductive WrittenAs [PyObject ω] [BEq (Stamp ω)] : Middleware ω → Handling ω → Prop
  | logging (record : Envelope ω → Except (Exc ω) Unit) :
      WrittenAs (logging record) (.logging record)
  | unitOfWork (enter : Bool → Except (Exc ω) Unit)
      (leave : Bool → Except (Exc ω) (Envelope ω) → Except (Exc ω) Unit) :
      WrittenAs (unitOfWork enter leave) (.unitOfWork enter leave)
  | dispatchAfterCurrentBus (current : Bool) (after : Envelope ω → Except (Exc ω) Unit) :
      WrittenAs (holdingBack current after) (.holdingBack current after)
  | sendMessage (locator : SendersLocatorInterface ω) (requireSender handleUnrouted : Bool) :
      WrittenAs (sendMessage locator requireSender handleUnrouted)
        (.sendMessage locator requireSender handleUnrouted)
  | handleMessage (registry : HandlersLocatorInterface ω) (requireHandler : Bool) :
      WrittenAs (handleMessage registry requireHandler) (.handleMessage registry requireHandler)
  | custom (handling : Handling ω) (once : ∀ envelope, (handling envelope).Once) :
      WrittenAs handling.middleware handling

section Written
variable [PyObject ω] [BEq (Stamp ω)] {bus : List (Middleware ω)} {handlings : List (Handling ω)}

theorem WrittenAs.once {m : Middleware ω} {handling : Handling ω} (h : WrittenAs m handling) :
    OnceWritten m handling := by
  cases h with
  | logging record => exact onceWritten_logging record
  | unitOfWork enter leave => exact onceWritten_unitOfWork enter leave
  | dispatchAfterCurrentBus current after => exact onceWritten_holdingBack current after
  | sendMessage locator requireSender handleUnrouted =>
    exact onceWritten_sendMessage locator requireSender handleUnrouted
  | handleMessage registry requireHandler => exact onceWritten_handleMessage registry requireHandler
  | custom handling once => exact ⟨rfl, once⟩

theorem written_middleware (h : List.Forall₂ WrittenAs bus handlings) :
    handlings.map Handling.middleware = bus := by
  induction h with
  | nil => rfl
  | cons hm _ ih => rw [List.map_cons, hm.once.1, ih]

theorem written_once (h : List.Forall₂ WrittenAs bus handlings) :
    ∀ handling ∈ handlings, ∀ envelope, (handling envelope).Once := by
  induction h with
  | nil => simp
  | cons hm _ ih =>
    intro handling hmem
    rcases List.mem_cons.mp hmem with rfl | hmem
    · exact hm.once.2
    · exact ih handling hmem

theorem dispatch_walks (handlings : List (Handling ω)) (envelope : Envelope ω)
    (stamps : List (Stamp ω)) :
    let walked := StackMiddleware.dispatch handlings (envelope.withStamps stamps)
    Walks handlings (envelope.withStamps stamps) walked ∧
      ∀ bus, List.Forall₂ WrittenAs bus handlings →
        walked.traced = dispatch bus envelope stamps := by
  refine ⟨walks_dispatch handlings _, fun bus h => ?_⟩
  unfold dispatch
  rw [← written_middleware h, chain_composed]
  refine StackMiddleware.enter_composed _ (Nat.le_refl _) fun handling hmem => ?_
  exact written_once h handling hmem

/-- A middleware that has the rest of the chain try again. -/
def retrying : Handling Sample := fun envelope => .next envelope fun
  | .ok handled => .finish (.ok handled)
  | .error _ => .next envelope .finish

/-- A registry of one handler, which raises. -/
def oneFails : HandlersLocatorInterface Sample where
  handlersFor _ :=
    [.registered ⟨0, "build", false, fun _ _ => .error (.exception "ValueError" "no")⟩]
  messageTypes := []
  invoke := RedispatchingHandlers.invoke (.error (.exception "LookupError" "bus"))

/-- The second try finds the cursor spent. -/
example : (StackMiddleware.dispatch [retrying, Handling.handleMessage oneFails true]
    ⟨.report, []⟩).entered = [0, 1] := by decide

theorem dispatch_walks_recorded :
    (StackMiddleware.dispatch
        [Handling.logging fun _ => .ok (), Handling.handleMessage oneFails true]
        ⟨.report, []⟩).traced =
      dispatch [logging fun _ => .ok (), handleMessage oneFails true] ⟨.report, []⟩ [] :=
  (dispatch_walks [Handling.logging fun _ => .ok (), Handling.handleMessage oneFails true]
    ⟨.report, []⟩ []).2 [logging fun _ => .ok (), handleMessage oneFails true]
    (.cons (.logging _) (.cons (.handleMessage _ _) .nil))

end Written
end Bus
end XtrMessenger
