import XtrMessenger.Foundation.History
import XtrMessenger.Bus.Handlers
import XtrMessenger.Bus.Signatures

/-! Registering handlers and decorating them, in any order. The table looked up is extended by the
one and rebuilt by the other. -/
namespace XtrMessenger.Bus
open Foundation
variable {ω δ : Type}

/-- What decorators are: objects that compare equal, or not, and are called. -/
class Decorator (δ : Type) (ω : outParam Type) where
  /-- `a is b or a == b`. -/
  equal : δ → δ → Bool
  equal_self : ∀ wrap, equal wrap wrap = true
  call : δ → HandlerDescriptor ω → Except (Exc ω) (HandlerDescriptor ω)

/-- `HandlersLocator` with what it keeps beside the table it looks up: the descriptors as they were
declared, and the decorators in the order they apply. -/
structure DecoratedHandlers (ω δ : Type) extends HandlersLocator ω where
  declared : Dict PyType (List (HandlerDescriptor ω))
  decorators : List δ

variable [Decorator δ ω]

def decorated (decorators : List δ) (descriptor : HandlerDescriptor ω) :
    Except (Exc ω) (HandlerDescriptor ω) :=
  decorators.foldlM (fun descriptor wrap => Decorator.call wrap descriptor) descriptor

/-- A decorator equal to one applied already takes its place. -/
def placed (wrap : δ) (decorators : List δ) : List δ :=
  match decorators.findIdx? fun applied => Decorator.equal applied wrap with
  | some index => decorators.set index wrap
  | none => decorators ++ [wrap]

namespace DecoratedHandlers

def empty : DecoratedHandlers ω δ := ⟨⟨.empty⟩, .empty, []⟩

def register (check : ContainerCheck) (l : DecoratedHandlers ω δ) (messageType : PyType)
    (handler : Handler ω) (name : Option String) :
    Except (Exc ω) (HandlerDescriptor ω) × DecoratedHandlers ω δ :=
  match HandlerDescriptor.of check handler name with
  | .error error => (.error error, l)
  | .ok declared =>
    match decorated l.decorators declared with
    | .error error => (.error error, l)
    | .ok descriptor =>
      (.ok descriptor, { l with
        declared := l.declared.extend messageType declared
        handlers := l.handlers.extend messageType descriptor })

/-- The decorators are changed before the table is rebuilt. -/
def decorate (l : DecoratedHandlers ω δ) (wrap : δ) :
    Except (Exc ω) Unit × DecoratedHandlers ω δ :=
  let l := { l with decorators := placed wrap l.decorators }
  match l.declared.mapM fun descriptors => descriptors.mapM (decorated l.decorators) with
  | .error error => (.error error, l)
  | .ok handlers => (.ok (), { l with handlers := handlers })

end DecoratedHandlers

inductive HandlersCall (ω δ : Type)
  | register (messageType : PyType) (handler : Handler ω) (name : Option String)
  | decorate (wrap : δ)

namespace DecoratedHandlers

/-- What a call raises, if it does, and what it leaves. -/
def perform (check : ContainerCheck) (l : DecoratedHandlers ω δ) :
    HandlersCall ω δ → Except (Exc ω) Unit × DecoratedHandlers ω δ
  | .register messageType handler name =>
    let (answer, l) := l.register check messageType handler name
    (answer.map fun _ => (), l)
  | .decorate wrap => l.decorate wrap

/-- What a sequence of calls leaves, the ones that raise among them. -/
def run (check : ContainerCheck) (l : DecoratedHandlers ω δ) (calls : List (HandlersCall ω δ)) :
    DecoratedHandlers ω δ := calls.foldl (fun l call => (l.perform check call).2) l

end DecoratedHandlers

namespace HandlersCall

/-- The descriptor a call declares for a class. -/
def declares? (check : ContainerCheck) (messageType : PyType) :
    HandlersCall ω δ → Option (HandlerDescriptor ω)
  | register declaredType handler name =>
    if declaredType = messageType then (HandlerDescriptor.of check handler name).toOption else none
  | decorate _ => none

def decorator? : HandlersCall ω δ → Option δ
  | register _ _ _ => none
  | decorate wrap => some wrap

end HandlersCall

/-- The descriptors declared for a class, in the order they were. -/
def declaredBy (check : ContainerCheck) (calls : List (HandlersCall ω δ)) (messageType : PyType) :
    List (HandlerDescriptor ω) := calls.filterMap (HandlersCall.declares? check messageType)

/-- A decorator given last applies last, or in the place of the first it is equal to. -/
def replacing (wrap : δ) : List δ → List δ
  | [] => [wrap]
  | applied :: rest =>
    if Decorator.equal applied wrap then wrap :: rest else applied :: replacing wrap rest

/-- The decorators in force after some calls. -/
def decoratorsOf (calls : List (HandlersCall ω δ)) : List δ :=
  (calls.filterMap HandlersCall.decorator?).foldl (fun applied wrap => replacing wrap applied) []

omit [Decorator δ ω] in
theorem declaredBy_concat (check : ContainerCheck) (calls : List (HandlersCall ω δ))
    (call : HandlersCall ω δ) (messageType : PyType) :
    declaredBy check (calls ++ [call]) messageType =
      declaredBy check calls messageType ++ (call.declares? check messageType).toList :=
  filterMap_concat _ calls call

theorem decoratorsOf_concat (calls : List (HandlersCall ω δ)) (call : HandlersCall ω δ) :
    decoratorsOf (calls ++ [call]) =
      call.decorator?.toList.foldl (fun applied wrap => replacing wrap applied)
        (decoratorsOf calls) := by
  rw [decoratorsOf, filterMap_concat, List.foldl_append]
  rfl

section Placing

theorem placed_eq (wrap : δ) (decorators : List δ) :
    placed wrap decorators = replacing wrap decorators := by
  induction decorators with
  | nil => rfl
  | cons applied rest ih =>
    unfold placed at ih ⊢
    rw [List.findIdx?_cons, replacing, ← ih]
    split_ifs with happlied
    · rfl
    · cases rest.findIdx? fun applied => Decorator.equal applied wrap <;> rfl

/-- Placing a decorator changes nothing just where it is there itself, before any other equal. -/
theorem placed_eq_self_iff {wrap : δ} {decorators : List δ} : placed wrap decorators = decorators ↔
    ∃ pre post, decorators = pre ++ wrap :: post ∧
      ∀ applied ∈ pre, Decorator.equal applied wrap = false := by
  rw [placed_eq]
  induction decorators with
  | nil => simp [replacing]
  | cons applied rest ih =>
    rw [replacing]
    cases happlied : Decorator.equal applied wrap with
    | true =>
      constructor
      · intro h
        obtain ⟨rfl, -⟩ := List.cons.inj h
        exact ⟨[], rest, rfl, by simp⟩
      · intro h
        obtain ⟨pre, post, hsplit, hpre⟩ := h
        cases pre with
        | nil => simp [(List.cons.inj hsplit).1]
        | cons first pre =>
          obtain ⟨rfl, -⟩ := List.cons.inj hsplit
          simp [happlied] at hpre
    | false =>
      simp only [Bool.false_eq_true, if_false, List.cons.injEq, true_and, ih]
      constructor
      · intro h
        obtain ⟨pre, post, rfl, hpre⟩ := h
        exact ⟨applied :: pre, post, rfl, by simpa [happlied] using hpre⟩
      · intro h
        obtain ⟨pre, post, hsplit, hpre⟩ := h
        cases pre with
        | nil =>
          obtain ⟨rfl, -⟩ := List.cons.inj hsplit
          simp [Decorator.equal_self] at happlied
        | cons first pre =>
          obtain ⟨-, rfl⟩ := List.cons.inj hsplit
          exact ⟨pre, post, rfl, fun d hd => hpre d (List.mem_cons_of_mem _ hd)⟩

end Placing

section Pure
variable {apply : δ → HandlerDescriptor ω → HandlerDescriptor ω}

/-- What decorators that do not raise make of a descriptor, the first given innermost. -/
def decoratedBy (apply : δ → HandlerDescriptor ω → HandlerDescriptor ω) (decorators : List δ)
    (descriptor : HandlerDescriptor ω) : HandlerDescriptor ω :=
  decorators.foldl (fun descriptor wrap => apply wrap descriptor) descriptor

theorem decorated_of_pure (hpure : ∀ wrap descriptor,
    Decorator.call wrap descriptor = .ok (apply wrap descriptor)) (decorators : List δ)
    (descriptor : HandlerDescriptor ω) :
    decorated decorators descriptor = .ok (decoratedBy apply decorators descriptor) := by
  induction decorators generalizing descriptor with
  | nil => rfl
  | cons wrap decorators ih =>
    unfold decorated
    rw [List.foldlM_cons, hpure]
    exact ih (apply wrap descriptor)

omit [Decorator δ ω] in
theorem decoratedBy_handler (hkeeps : ∀ wrap descriptor,
    (apply wrap descriptor).handler = descriptor.handler) (decorators : List δ)
    (descriptor : HandlerDescriptor ω) :
    (decoratedBy apply decorators descriptor).handler = descriptor.handler := by
  induction decorators generalizing descriptor with
  | nil => rfl
  | cons wrap decorators ih => exact (ih (apply wrap descriptor)).trans (hkeeps wrap descriptor)

/-- The table looked up is what the decorators make of the one declared. -/
structure Agrees (apply : δ → HandlerDescriptor ω → HandlerDescriptor ω)
    (check : ContainerCheck) (calls : List (HandlersCall ω δ)) (l : DecoratedHandlers ω δ) :
    Prop where
  decorators : l.decorators = decoratorsOf calls
  declared : ∀ messageType, (l.declared.get? messageType).getD [] =
    declaredBy check calls messageType
  handlers : ∀ messageType, (l.handlers.get? messageType).getD [] =
    ((l.declared.get? messageType).getD []).map (decoratedBy apply l.decorators)

theorem agrees_empty (apply : δ → HandlerDescriptor ω → HandlerDescriptor ω)
    (check : ContainerCheck) : Agrees apply check [] (.empty : DecoratedHandlers ω δ) :=
  ⟨rfl, fun _ => rfl, fun _ => rfl⟩

namespace Agrees
variable {check : ContainerCheck} {calls : List (HandlersCall ω δ)} {l : DecoratedHandlers ω δ}
  (hpure : ∀ wrap descriptor, Decorator.call wrap descriptor = .ok (apply wrap descriptor))
include hpure

theorem register (h : Agrees apply check calls l) (messageType : PyType) (handler : Handler ω)
    (name : Option String) : Agrees apply check (calls ++ [.register messageType handler name])
      (l.perform check (.register messageType handler name)).2 := by
  have hdecorators : decoratorsOf (calls ++ [.register messageType handler name]) =
      decoratorsOf calls := decoratorsOf_concat calls _
  cases hof : HandlerDescriptor.of check handler name with
  | error error =>
    have hkept : (l.perform check (.register messageType handler name)).2 = l := by
      simp [DecoratedHandlers.perform, DecoratedHandlers.register, hof]
    have hnone : ∀ t, declaredBy check (calls ++ [.register messageType handler name]) t =
        declaredBy check calls t := by
      simp [declaredBy_concat, HandlersCall.declares?, hof, Except.toOption]
    rw [hkept]
    exact ⟨h.decorators.trans hdecorators.symm, fun t => (h.declared t).trans (hnone t).symm,
      h.handlers⟩
  | ok declared =>
    have hleft : (l.perform check (.register messageType handler name)).2 = { l with
        declared := l.declared.extend messageType declared
        handlers := l.handlers.extend messageType
          (decoratedBy apply l.decorators declared) } := by
      simp [DecoratedHandlers.perform, DecoratedHandlers.register, hof,
        decorated_of_pure hpure]
    rw [hleft]
    refine ⟨h.decorators.trans hdecorators.symm, fun t => ?_, fun t => ?_⟩
    · rw [Dict.getD_extend, h.declared, declaredBy_concat]
      congr 1
      by_cases ht : t = messageType
      · simp [HandlersCall.declares?, ht, hof, Except.toOption]
      · simp [HandlersCall.declares?, ht, Ne.symm ht]
    · simp only [Dict.getD_extend, h.handlers]
      by_cases ht : t = messageType <;> simp [ht]

theorem decorate (h : Agrees apply check calls l) (wrap : δ) :
    Agrees apply check (calls ++ [.decorate wrap]) (l.perform check (.decorate wrap)).2 := by
  have hrebuilt := Dict.mapM_of_ok (d := l.declared)
    (mapM_of_ok (decorated_of_pure hpure (placed wrap l.decorators)))
  have hleft : (l.perform check (.decorate wrap)).2 = { l with
      decorators := placed wrap l.decorators
      handlers := l.declared.map fun descriptors =>
        descriptors.map (decoratedBy apply (placed wrap l.decorators)) } := by
    simp [DecoratedHandlers.perform, DecoratedHandlers.decorate, hrebuilt]
  rw [hleft]
  refine ⟨?_, fun t => ?_, fun t => ?_⟩
  · simp [decoratorsOf_concat, HandlersCall.decorator?, h.decorators, placed_eq]
  · simp [declaredBy_concat, HandlersCall.declares?, h.declared]
  · rw [Dict.get?_map]
    cases l.declared.get? t <;> rfl

/-- What one call preserves, whatever it is. -/
theorem perform (h : Agrees apply check calls l) (call : HandlersCall ω δ) :
    Agrees apply check (calls ++ [call]) (l.perform check call).2 := by
  cases call with
  | register messageType handler name => exact h.register hpure messageType handler name
  | decorate wrap => exact h.decorate hpure wrap

end Agrees

theorem agrees_run (hpure : ∀ wrap descriptor,
    Decorator.call wrap descriptor = .ok (apply wrap descriptor)) (check : ContainerCheck)
    (calls : List (HandlersCall ω δ)) : Agrees apply check calls (.run check .empty calls) := by
  induction calls using List.reverseRecOn with
  | nil => exact agrees_empty apply check
  | append_singleton calls call ih =>
    have hrun : DecoratedHandlers.run check .empty (calls ++ [call]) =
        ((DecoratedHandlers.run check .empty calls).perform check call).2 := by
      simp [DecoratedHandlers.run]
    rw [hrun]
    exact ih.perform hpure call

end Pure

section Order
variable (check : ContainerCheck) (calls : List (HandlersCall ω δ))

/-- The registrations of some calls, then their decorations. -/
def registeredFirst (calls : List (HandlersCall ω δ)) : List (HandlersCall ω δ) :=
  calls.filter (fun call => call.decorator?.isNone) ++
    calls.filter fun call => call.decorator?.isSome

omit [Decorator δ ω] in
/-- What is read off the calls of one kind alone does not depend on where the others stand. -/
theorem filterMap_registeredFirst {β : Type} (f : HandlersCall ω δ → Option β)
    (h : (∀ call, call.decorator? = none → f call = none) ∨
      ∀ call, call.decorator? ≠ none → f call = none) :
    (registeredFirst calls).filterMap f = calls.filterMap f := by
  rw [registeredFirst, List.filterMap_append, List.filterMap_filter, List.filterMap_filter]
  rcases h with h | h
  · have hfirst : ∀ call : HandlersCall ω δ,
        (if call.decorator?.isNone = true then f call else none) = none := by
      intro call
      split_ifs with hc
      · exact h call (Option.isNone_iff_eq_none.mp hc)
      · rfl
    have hsecond : ∀ call : HandlersCall ω δ,
        (if call.decorator?.isSome = true then f call else none) = f call := by
      intro call
      split_ifs with hc
      · rfl
      · exact (h call (by simpa using hc)).symm
    rw [funext hfirst, funext hsecond]
    simp
  · have hfirst : ∀ call : HandlersCall ω δ,
        (if call.decorator?.isNone = true then f call else none) = f call := by
      intro call
      split_ifs with hc
      · rfl
      · exact (h call (by simpa using hc)).symm
    have hsecond : ∀ call : HandlersCall ω δ,
        (if call.decorator?.isSome = true then f call else none) = none := by
      intro call
      split_ifs with hc
      · exact h call (Option.isSome_iff_ne_none.mp hc)
      · rfl
    rw [funext hfirst, funext hsecond]
    simp

omit [Decorator δ ω] in
theorem declaredBy_registeredFirst (messageType : PyType) :
    declaredBy check (registeredFirst calls) messageType = declaredBy check calls messageType := by
  refine filterMap_registeredFirst calls _ (.inr fun call hc => ?_)
  cases call with
  | register declaredType handler name => exact absurd rfl hc
  | decorate wrap => rfl

theorem decoratorsOf_registeredFirst :
    decoratorsOf (registeredFirst calls) = decoratorsOf calls := by
  rw [decoratorsOf, filterMap_registeredFirst calls _ (.inl fun _ hc => hc), decoratorsOf]

end Order

/-- Where decorators keep the handler said to be declared, which descriptors are left out does not
depend on them. -/
theorem unseen_map {g : HandlerDescriptor ω → HandlerDescriptor ω}
    (h : ∀ d, (g d).handler = d.handler) (seen : List Nat) (l : List (HandlerDescriptor ω)) :
    unseen seen (l.map g) = (unseen seen l).map g := by
  induction l generalizing seen with
  | nil => rfl
  | cons d l ih =>
    rw [List.map_cons, unseen, unseen, h d]
    split_ifs
    · exact ih seen
    · rw [List.map_cons, ih]

/-- The descriptors declared for a class or one of its bases, most specific first. -/
def declaredFor [Messages ω] (check : ContainerCheck) (calls : List (HandlersCall ω δ))
    (messageType : PyType) : List (HandlerDescriptor ω) :=
  (mro ω messageType).flatMap (declaredBy check calls)

section Lookup
variable [Messages ω] {apply : δ → HandlerDescriptor ω → HandlerDescriptor ω}
  {check : ContainerCheck} {calls : List (HandlersCall ω δ)}

theorem handlersFor_run (hpure : ∀ wrap descriptor,
    Decorator.call wrap descriptor = .ok (apply wrap descriptor)) (messageType : PyType) :
    (DecoratedHandlers.run check .empty calls).handlersFor messageType =
      unseen [] ((declaredFor check calls messageType).map
        (decoratedBy apply (decoratorsOf calls))) := by
  have hagrees := agrees_run hpure check calls
  have hbound : (DecoratedHandlers.run check .empty calls).boundTo messageType =
      (declaredFor check calls messageType).map (decoratedBy apply (decoratorsOf calls)) := by
    simp only [HandlersLocator.boundTo, hagrees.handlers, hagrees.declared, hagrees.decorators]
    exact List.map_flatMap.symm
  rw [HandlersLocator.handlersFor, hbound]

end Lookup

section Claims
variable [Messages ω] {apply : δ → HandlerDescriptor ω → HandlerDescriptor ω}

/-- However registering and decorating take turns, a lookup finds what was declared for the class
and its bases, each as the decorators of the moment make it, once for each handler: as when all is
registered first. -/
theorem handlersFor_any_order (hpure : ∀ wrap descriptor,
    Decorator.call wrap descriptor = .ok (apply wrap descriptor)) (check : ContainerCheck)
    (calls : List (HandlersCall ω δ)) (messageType : PyType) :
    let found := (DecoratedHandlers.run check .empty calls).handlersFor messageType
    let declared := declaredFor check calls messageType
    found = unseen [] (declared.map (decoratedBy apply (decoratorsOf calls))) ∧
      ((∀ wrap descriptor, (apply wrap descriptor).handler = descriptor.handler) →
        found = (unseen [] declared).map (decoratedBy apply (decoratorsOf calls))) ∧
      found = (DecoratedHandlers.run check .empty (registeredFirst calls)).handlersFor
        messageType := by
  have hfound := @handlersFor_run ω δ _ _ apply check calls hpure messageType
  refine ⟨hfound, fun hkeeps => ?_, ?_⟩
  · rw [hfound, unseen_map (decoratedBy_handler hkeeps (decoratorsOf calls))]
  · have hsame : declaredFor check (registeredFirst calls) messageType =
        declaredFor check calls messageType := by
      unfold declaredFor
      rw [funext (declaredBy_registeredFirst check calls)]
    rw [hfound, handlersFor_run hpure messageType, hsame, decoratorsOf_registeredFirst]

end Claims

/-- `ContainerBinding`: any two are equal. A container binds the handlers all of whose dependencies
it has, and raises over another. -/
structure ContainerBinding where
  bindable : List Nat
  missing : String

instance : Decorator ContainerBinding Sample where
  equal _ _ := true
  equal_self _ := rfl
  call binding descriptor :=
    if descriptor.handler ∈ binding.bindable then
      .ok { descriptor with call := fun message _ => .ok message }
    else .error (.exception "ContainerError" binding.missing)

/-- Nothing here raises: naming a decorator is the handler kept. -/
instance : Decorator String Sample where
  equal a b := a == b
  equal_self _ := by simp
  call prefixed descriptor := .ok { descriptor with name := prefixed ++ descriptor.name }

theorem handlersFor_any_order_named :
    let build : Handler Sample := ⟨4, some "build", "function",
      .function ⟨[⟨"message", .positionalOrKeyword, false⟩], [], by simp, by simp⟩,
      fun message _ => .ok message⟩
    let report : PyType := ⟨2, "app.messages", "BuildReport"⟩
    let calls : List (HandlersCall Sample String) := [.decorate "span:",
      .register report build none, .register report build (some "again"), .decorate "span:"]
    ((DecoratedHandlers.run none .empty calls).handlersFor report).map HandlerDescriptor.name =
        ["span:build"] ∧
      ((DecoratedHandlers.run none .empty (registeredFirst calls)).handlersFor report).map
        HandlerDescriptor.name = ["span:build"] := by
  intro build report calls
  obtain ⟨-, hkept, hsame⟩ := handlersFor_any_order (δ := String) (ω := Sample) (fun _ _ => rfl)
    none calls report
  rw [← hsame, hkept fun _ _ => rfl]
  exact ⟨by decide, by decide⟩

/-- One handler in the place of every other: a pure wrap that does not keep what it wraps. -/
instance : Decorator Nat Sample where
  equal a b := a == b
  equal_self _ := by simp
  call handler descriptor := .ok { descriptor with handler := handler }

/-- Of two handlers declared, a wrap that makes one of both leaves the first. -/
theorem wrapped_alike_once :
    ¬∀ (calls : List (HandlersCall Sample Nat)) (messageType : PyType),
      (DecoratedHandlers.run none .empty calls).handlersFor messageType =
        (unseen [] (declaredFor none calls messageType)).map (decoratedBy
          (fun handler descriptor => { descriptor with handler := handler })
          (decoratorsOf calls)) := by
  intro h
  let handler (id : Nat) : Handler Sample := ⟨id, some "build", "function",
    .function ⟨[⟨"message", .positionalOrKeyword, false⟩], [], by simp, by simp⟩,
    fun message _ => .ok message⟩
  let report : PyType := ⟨2, "app.messages", "BuildReport"⟩
  have hsame := congrArg List.length (h [.register report (handler 4) none,
    .register report (handler 5) none, .decorate 9] report)
  exact absurd hsame (by decide)

/-- A call that raises before it changes anything, or does not raise, or is given a decorator that
is there already. -/
def HandlersCall.Safe (l : DecoratedHandlers ω δ) : HandlersCall ω δ → Prop
  | register _ _ _ => True
  | decorate wrap =>
    (∀ descriptors ∈ l.declared.values, ∀ descriptor ∈ descriptors,
      ∃ bound, decorated (placed wrap l.decorators) descriptor = .ok bound) ∨
    ∃ pre post, l.decorators = pre ++ wrap :: post ∧
      ∀ applied ∈ pre, Decorator.equal applied wrap = false

section Raising
variable {check : ContainerCheck} {l : DecoratedHandlers ω δ}

theorem register_raising {messageType : PyType} {handler : Handler ω} {name : Option String}
    {error : Exc ω} (h : (l.register check messageType handler name).1 = .error error) :
    (l.register check messageType handler name).2 = l := by
  unfold DecoratedHandlers.register at h ⊢
  cases hof : HandlerDescriptor.of check handler name with
  | error error => rfl
  | ok declared =>
    rw [hof] at h
    dsimp only at h ⊢
    cases hd : decorated l.decorators declared with
    | error error => rfl
    | ok descriptor => simp [hd] at h

theorem register_declared {messageType : PyType} {handler : Handler ω} {name : Option String}
    {d : HandlerDescriptor ω} (h : (l.register check messageType handler name).1 = .ok d) :
    ∃ declared, HandlerDescriptor.of check handler name = .ok declared ∧
      (l.register check messageType handler name).2.declared =
        l.declared.extend messageType declared := by
  unfold DecoratedHandlers.register at h ⊢
  cases hof : HandlerDescriptor.of check handler name with
  | error error => simp [hof] at h
  | ok declared =>
    rw [hof] at h
    dsimp only at h ⊢
    refine ⟨declared, rfl, ?_⟩
    cases hd : decorated l.decorators declared with
    | error error => simp [hd] at h
    | ok descriptor => rfl

/-- Decorating raises just where one of the decorators does, over a handler declared already; by
then they are changed. -/
theorem decorate_raising (wrap : δ) :
    (∀ error, (l.decorate wrap).1 = .error error →
        (l.decorate wrap).2 = { l with decorators := placed wrap l.decorators }) ∧
      ((∃ error, (l.decorate wrap).1 = .error error) ↔
        ¬ ∀ descriptors ∈ l.declared.values, ∀ descriptor ∈ descriptors,
          ∃ bound, decorated (placed wrap l.decorators) descriptor = .ok bound) := by
  have hreturns : (∃ handlers, (l.declared.mapM fun descriptors =>
        descriptors.mapM (decorated (placed wrap l.decorators))) = .ok handlers) ↔
      ∀ descriptors ∈ l.declared.values, ∀ descriptor ∈ descriptors,
        ∃ bound, decorated (placed wrap l.decorators) descriptor = .ok bound := by
    rw [Dict.mapM_returns_iff]
    simp only [mapM_returns_iff]
  rw [← hreturns]
  unfold DecoratedHandlers.decorate
  dsimp only
  cases l.declared.mapM fun descriptors =>
    descriptors.mapM (decorated (placed wrap l.decorators)) <;> simp

end Raising

/-- A call that raises leaves the locator as it was just where it is safe. -/
theorem left_as_it_was_iff (check : ContainerCheck) (l : DecoratedHandlers ω δ)
    (call : HandlersCall ω δ) :
    (∀ error, (l.perform check call).1 = .error error → (l.perform check call).2 = l) ↔
      call.Safe l := by
  cases call with
  | register messageType handler name =>
    refine iff_of_true (fun error h => ?_) trivial
    unfold DecoratedHandlers.perform at h ⊢
    cases hanswer : (l.register check messageType handler name).1 with
    | error error => exact register_raising hanswer
    | ok descriptor => simp [hanswer, Except.map] at h
  | decorate wrap =>
    obtain ⟨hleft, hraises⟩ := decorate_raising (l := l) wrap
    have hsame : { l with decorators := placed wrap l.decorators } = l ↔
        placed wrap l.decorators = l.decorators := by
      obtain ⟨locator, declared, decorators⟩ := l
      simp
    simp only [DecoratedHandlers.perform, HandlersCall.Safe, ← placed_eq_self_iff]
    constructor
    · intro h
      by_cases hreturns : ∃ error, (l.decorate wrap).1 = .error error
      · obtain ⟨error, herror⟩ := hreturns
        exact .inr (hsame.mp ((hleft error herror).symm.trans (h error herror)))
      · exact .inl (not_not.mp (mt hraises.mpr hreturns))
    · intro h error herror
      rcases h with hreturns | hthere
      · exact absurd hreturns (hraises.mp ⟨error, herror⟩)
      · exact (hleft error herror).trans (hsame.mpr hthere)

/-- A container without what one handler needs replaces the first all the same: another handler,
which the first would bind, can no longer be registered. -/
theorem binding_half_applied :
    let report : PyType := ⟨2, "app.messages", "BuildReport"⟩
    let handler (id : Nat) : Handler Sample := ⟨id, some "build", "function",
      .function ⟨[⟨"message", .positionalOrKeyword, false⟩], [], by simp, by simp⟩,
      fun message _ => .ok message⟩
    let first : ContainerBinding := ⟨[4, 5], ""⟩
    let second : ContainerBinding := ⟨[], "clock"⟩
    let l := DecoratedHandlers.run none .empty [.decorate first, .register report (handler 4) none]
    let left := (l.perform none (.decorate second)).2
    (l.perform none (.decorate second)).1 = .error (.exception "ContainerError" "clock") ∧
      l.decorators.map ContainerBinding.bindable = [[4, 5]] ∧
      left.decorators.map ContainerBinding.bindable = [[]] ∧
      (l.perform none (.register report (handler 5) none)).1 = .ok () ∧
      (left.perform none (.register report (handler 5) none)).1 =
        .error (.exception "ContainerError" "clock") := by
  refine ⟨rfl, rfl, rfl, rfl, rfl⟩

end XtrMessenger.Bus
