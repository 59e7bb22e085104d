import XtrMessenger.Bus.Message

/-! The check a handler's parameters pass where it is declared, and Python's rules for the call the
bus makes. The check reads names and annotations; the call goes by position. -/
namespace XtrMessenger.Bus
open Foundation
variable {ω : Type}

/-- The kinds `inspect` tells parameters apart by, in the order a signature lists them. -/
inductive ParameterKind
  | positionalOnly | positionalOrKeyword | varPositional | keywordOnly | varKeyword
  deriving DecidableEq, Repr

namespace ParameterKind

def rank : ParameterKind → Nat
  | positionalOnly => 0
  | positionalOrKeyword => 1
  | varPositional => 2
  | keywordOnly => 3
  | varKeyword => 4

/-- `b` may be listed after `a`: there is one `*args` and one `**kwargs` at most. -/
def Before (a b : ParameterKind) : Prop :=
  a.rank ≤ b.rank ∧ ¬ (a = b ∧ (a = varPositional ∨ a = varKeyword))

instance (a b : ParameterKind) : Decidable (Before a b) := by unfold Before; infer_instance

def positional : ParameterKind → Bool
  | positionalOnly | positionalOrKeyword => true
  | _ => false

end ParameterKind

/-- What an annotation resolves to: the class `Envelope`, or something else. -/
inductive Hint
  | envelope
  | other (id : Nat)
  deriving DecidableEq, Repr

structure Parameter where
  name : String
  kind : ParameterKind
  hasDefault : Bool := false
  deriving DecidableEq, Repr

/-- The parameters of a function, and what each of its annotations resolves to. -/
structure Signature where
  parameters : List Parameter
  hints : List (String × Hint) := []
  ordered : parameters.Pairwise fun p q => p.kind.Before q.kind
  distinct : (parameters.map Parameter.name).Nodup

/-- `hints.get(name)`. -/
def hintOf (hints : List (String × Hint)) (name : String) : Option Hint :=
  (hints.find? fun hint => hint.1 = name).map Prod.snd

/-- The `__call__` a handler class defines; a static one is not given the instance. -/
structure CallMethod where
  signature : Signature
  static : Bool := false

/-- What is declared as a handler, by how its parameters are read: a function or a bound method, an
object with a `__call__` of which `inspect` leaves out `self`, or a class. -/
inductive Callable
  | function (signature : Signature)
  | object (signature : Signature)
  | type (call : Option CallMethod)

/-- `id` is the object's identity, `qualname` its `__qualname__` where it has one, `run` what its
body does with the arguments. -/
structure Handler (ω : Type) where
  id : Nat
  qualname : Option String
  typeQualname : String
  callable : Callable
  run : ω → Option (Envelope ω) → Except (Exc ω) ω

/-- `is_container_supplied` of the container package, where it is installed. -/
abbrev ContainerCheck := Option (Option Hint → Bool)

def suppliedByContainer (check : ContainerCheck) (hint : Option Hint) : Bool :=
  match check with
  | none => false
  | some check => check hint

def handlerSignatureError (handlerName : String) (parameters : List String) : Exc ω :=
  .exception "HandlerSignatureError" (handlerName ++ " declares (" ++ listed parameters ++
    "); a handler takes the message, optionally followed by one parameter annotated Envelope")

def signatureOf (callable : Callable) (name : String) :
    Except (Exc ω) (List String × List (String × Hint)) :=
  match callable with
  | .type none => .error (handlerSignatureError name [])
  | .type (some call) =>
    .ok ((call.signature.parameters.map Parameter.name).tail, call.signature.hints)
  | .function signature => .ok (signature.parameters.map Parameter.name, signature.hints)
  | .object signature => .ok (signature.parameters.map Parameter.name, signature.hints)

def wantsEnvelope (check : ContainerCheck) (callable : Callable) (name : String) :
    Except (Exc ω) Bool := do
  let (declared, hints) ← signatureOf callable name
  let own := declared.filter fun p => !suppliedByContainer check (hintOf hints p)
  if own.isEmpty || declared.take own.length ≠ own || own.length > 2 then
    .error (handlerSignatureError name declared)
  else
    match own with
    | _ :: second :: _ =>
      if hintOf hints second ≠ some .envelope then .error (handlerSignatureError name declared)
      else .ok true
    | _ => .ok false

/-- `name or _name_of(handler)`. -/
def Handler.label (handler : Handler ω) (name : Option String) : String :=
  match name with
  | some name => if name = "" then handler.qualname.getD handler.typeQualname else name
  | none => handler.qualname.getD handler.typeQualname

def HandlerDescriptor.of (check : ContainerCheck) (handler : Handler ω)
    (name : Option String := none) : Except (Exc ω) (HandlerDescriptor ω) := do
  let label := handler.label name
  let wants ← Bus.wantsEnvelope check handler.callable label
  return ⟨handler.id, label, wants, handler.run⟩

theorem HandlerDescriptor.of_handler {check : ContainerCheck} {handler : Handler ω}
    {name : Option String} {d : HandlerDescriptor ω} (h : of check handler name = .ok d) :
    d.handler = handler.id := by
  obtain ⟨wants, -, hd⟩ := bind_eq_ok_iff.mp h
  rw [← Except.ok.inj hd]

/-- How many arguments `invoke` calls the handler with. -/
def HandlerDescriptor.arguments (d : HandlerDescriptor ω) : Nat := if d.wantsEnvelope then 2 else 1

/-- Python's rules for a call with `n` arguments by position, the parameters a container supplies
left to it: every argument has its place, and no parameter is missing one. -/
def binds (supplied : Parameter → Bool) : List Parameter → Nat → Bool
  | [], n => n == 0
  | p :: rest, n =>
    match p.kind, n with
    | .positionalOnly, 0 | .positionalOrKeyword, 0 =>
      (supplied p || p.hasDefault) && binds supplied rest 0
    | .positionalOnly, n + 1 | .positionalOrKeyword, n + 1 => !supplied p && binds supplied rest n
    | .varPositional, n => (n == 0 || !supplied p) && binds supplied rest 0
    | .keywordOnly, n => (supplied p || p.hasDefault) && binds supplied rest n
    | .varKeyword, n => binds supplied rest n

namespace Callable

/-- The parameters the check reads. -/
def parameters : Callable → List Parameter
  | function signature | object signature => signature.parameters
  | type none => []
  | type (some call) => call.signature.parameters.tail

def hints : Callable → List (String × Hint)
  | function signature | object signature => signature.hints
  | type none => []
  | type (some call) => call.signature.hints

def supplied (check : ContainerCheck) (callable : Callable) (p : Parameter) : Bool :=
  suppliedByContainer check (hintOf callable.hints p.name)

/-- Whether the call `invoke` makes with `n` arguments binds: the instance of a class goes before
them, unless `__call__` is static. -/
def bindsCall (check : ContainerCheck) (callable : Callable) (n : Nat) : Bool :=
  match callable with
  | function signature | object signature =>
    binds (callable.supplied check) signature.parameters n
  | type none => false
  | type (some call) =>
    match call.signature.parameters with
    | [] => false
    | first :: rest =>
      if call.static then binds (callable.supplied check) (first :: rest) n
      else if first.kind.positional then binds (callable.supplied check) rest n
      else binds (callable.supplied check) (first :: rest) (n + 1)

/-- How many of `n` arguments are left for the parameters the check reads, where the ones before
them take what they are given. -/
def left? (check : ContainerCheck) (callable : Callable) (n : Nat) : Option Nat :=
  match callable with
  | function _ | object _ => some n
  | type none => none
  | type (some call) =>
    match call.signature.parameters with
    | [] => none
    | first :: _ =>
      if first.kind.positional && !call.static then some n
      else if callable.supplied check first then none
      else match first.kind with
        | .positionalOnly | .positionalOrKeyword => some (n - 1)
        | .varPositional => some 0
        | .keywordOnly | .varKeyword => none

end Callable

namespace Parameter

/-- An argument given by position can go there. -/
def Takes (p : Parameter) : Prop := p.kind.positional = true ∨ p.kind = .varPositional

/-- It needs no argument. -/
def Optional (p : Parameter) : Prop :=
  p.hasDefault = true ∨ p.kind = .varPositional ∨ p.kind = .varKeyword

end Parameter

/-- One or two parameters and as many arguments or fewer: which shapes they fill. -/
def Fills : List Parameter → Nat → Prop
  | [p], 1 => p.Takes
  | [p], 0 => p.Optional
  | [p, q], 2 => p.kind.positional = true ∧ q.Takes ∨ p.kind = .varPositional ∧ q.Optional
  | [p, q], 1 => p.Takes ∧ q.Optional
  | [p, q], 0 => p.Optional ∧ q.Optional
  | _, _ => False

/-- What the check accepts: parameters that are the bus's to fill, then the container's. -/
structure Accepted (check : ContainerCheck) (callable : Callable) (own rest : List Parameter) :
    Prop where
  split : callable.parameters = own ++ rest
  unsupplied : ∀ p ∈ own, callable.supplied check p = false
  supplied : ∀ p ∈ rest, callable.supplied check p = true
  shape : (∃ p, own = [p]) ∨
    ∃ p q, own = [p, q] ∧ hintOf callable.hints q.name = some .envelope

section Checking
variable {check : ContainerCheck} {callable : Callable}

theorem signatureOf_eq (h : callable ≠ .type none) (name : String) :
    signatureOf (ω := ω) callable name =
      .ok (callable.parameters.map Parameter.name, callable.hints) := by
  rcases callable with signature | signature | call
  · rfl
  · rfl
  · cases call with
    | none => exact absurd rfl h
    | some call => simp [signatureOf, Callable.parameters, Callable.hints, List.map_tail]

/-- What a test keeps leads a list just where the list splits into what it keeps and the rest. -/
theorem take_filter_eq_iff {α : Type} (f : α → Bool) (l : List α) :
    l.take (l.filter f).length = l.filter f ↔
      ∃ kept rest, l = kept ++ rest ∧ (∀ x ∈ kept, f x = true) ∧ ∀ x ∈ rest, f x = false := by
  constructor
  · intro h
    have hkept : ∀ x ∈ l.filter f, f x = true := fun x hx => (List.mem_filter.mp hx).2
    have hl : l = l.filter f ++ l.drop (l.filter f).length := by
      conv_lhs => rw [← List.take_append_drop (l.filter f).length l, h]
    have hfilter := congrArg (List.filter f) hl
    rw [List.filter_append, List.filter_eq_self.mpr hkept, List.self_eq_append_right] at hfilter
    refine ⟨_, _, hl, hkept, fun x hx => ?_⟩
    simpa using List.filter_eq_nil_iff.mp hfilter x hx
  · intro h
    obtain ⟨kept, rest, rfl, hkept, hrest⟩ := h
    have hnone : rest.filter f = [] := List.filter_eq_nil_iff.mpr fun x hx => by simp [hrest x hx]
    rw [List.filter_append, List.filter_eq_self.mpr hkept, hnone, List.append_nil,
      List.take_left']
    rfl

theorem Accepted.ne_none {own rest : List Parameter} (h : Accepted check callable own rest) :
    callable ≠ .type none := by
  intro hc
  have hsplit := h.split
  subst hc
  obtain ⟨rfl, -⟩ := List.append_eq_nil_iff.mp hsplit.symm
  obtain ⟨p, hp⟩ | ⟨p, q, hp, -⟩ := h.shape <;> simp at hp

theorem filter_own {own rest : List Parameter} (hsplit : callable.parameters = own ++ rest)
    (hown : ∀ p ∈ own, callable.supplied check p = false)
    (hrest : ∀ p ∈ rest, callable.supplied check p = true) :
    callable.parameters.filter (fun p => !callable.supplied check p) = own := by
  have hkept : own.filter (fun p => !callable.supplied check p) = own :=
    List.filter_eq_self.mpr fun p hp => by simp [hown p hp]
  have hnone : rest.filter (fun p => !callable.supplied check p) = [] :=
    List.filter_eq_nil_iff.mpr fun p hp => by simp [hrest p hp]
  rw [hsplit, List.filter_append, hkept, hnone, List.append_nil]

/-- The check filters names where the parameters themselves are meant. -/
theorem filter_names {own rest : List Parameter} (hsplit : callable.parameters = own ++ rest)
    (hown : ∀ p ∈ own, callable.supplied check p = false)
    (hrest : ∀ p ∈ rest, callable.supplied check p = true) :
    ((callable.parameters.map Parameter.name).filter fun name =>
      !suppliedByContainer check (hintOf callable.hints name)) = own.map Parameter.name := by
  rw [List.filter_map]
  exact congrArg (List.map Parameter.name) (filter_own hsplit hown hrest)

theorem Accepted.wantsEnvelope {own rest : List Parameter} (h : Accepted check callable own rest)
    (name : String) :
    Bus.wantsEnvelope (ω := ω) check callable name = .ok (own.length == 2) := by
  have hnames := filter_names h.split h.unsupplied h.supplied
  have htake : (callable.parameters.map Parameter.name).take (own.map Parameter.name).length =
      own.map Parameter.name := by
    rw [h.split, List.map_append, List.take_left']
    rfl
  unfold Bus.wantsEnvelope
  rw [signatureOf_eq h.ne_none]
  simp only [bind, Except.bind, hnames, htake]
  obtain ⟨p, rfl⟩ | ⟨p, q, rfl, hq⟩ := h.shape
  · simp
  · simp [hq]

theorem wantsEnvelope_cases (check : ContainerCheck) (callable : Callable) (name : String) :
    (∃ own rest, Accepted check callable own rest) ∨
      wantsEnvelope (ω := ω) check callable name =
        .error (handlerSignatureError name (callable.parameters.map Parameter.name)) := by
  by_cases hc : callable = .type none
  · subst hc
    exact .inr rfl
  unfold wantsEnvelope
  rw [signatureOf_eq hc]
  simp only [bind, Except.bind]
  set own := (callable.parameters.map Parameter.name).filter fun p =>
    !suppliedByContainer check (hintOf callable.hints p) with hown
  split_ifs with hshape
  · exact .inr rfl
  simp only [Bool.or_eq_true, List.isEmpty_iff, decide_eq_true_eq, not_or, not_not] at hshape
  obtain ⟨⟨hne, htake⟩, hlen⟩ := hshape
  obtain ⟨kept, rest, hsplit, hkept, hrest⟩ := (take_filter_eq_iff _ _).mp htake
  obtain ⟨l, r, hl, rfl, rfl⟩ := List.map_eq_append_iff.mp hsplit
  simp only [List.mem_map, forall_exists_index, and_imp, forall_apply_eq_imp_iff₂,
    Bool.not_eq_true', Bool.not_eq_false'] at hkept hrest
  have hnames : own = l.map Parameter.name := filter_names hl hkept hrest
  rw [hnames] at hne hlen ⊢
  rcases l with _ | ⟨p, _ | ⟨q, _ | ⟨x, l⟩⟩⟩
  · exact absurd rfl hne
  · exact .inl ⟨[p], r, hl, hkept, hrest, .inl ⟨p, rfl⟩⟩
  · by_cases hq : hintOf callable.hints q.name = some .envelope
    · exact .inl ⟨[p, q], r, hl, hkept, hrest, .inr ⟨p, q, rfl, hq⟩⟩
    · exact .inr (by simp [hq])
  · simp at hlen

end Checking

section Binding
variable {supplied : Parameter → Bool}

theorem binds_of_supplied {rest : List Parameter} (h : ∀ p ∈ rest, supplied p = true) (n : Nat) :
    binds supplied rest n = (n == 0) := by
  induction rest generalizing n with
  | nil => rfl
  | cons p rest ih =>
    obtain ⟨hp, hrest⟩ := List.forall_mem_cons.mp h
    cases hk : p.kind <;> cases n <;> simp [binds, hk, hp, ih hrest]

theorem binds_append (own : List Parameter) {rest : List Parameter}
    (h : ∀ p ∈ rest, supplied p = true) (n : Nat) :
    binds supplied (own ++ rest) n = binds supplied own n := by
  induction own generalizing n with
  | nil => exact binds_of_supplied h n
  | cons p own ih => cases hk : p.kind <;> cases n <;> simp [binds, hk, ih]

/-- Past a parameter that takes no position there is none that does. -/
theorem binds_of_keywords {l : List Parameter}
    (h : ∀ p ∈ l, p.kind = .keywordOnly ∨ p.kind = .varKeyword) (n : Nat) :
    binds supplied l (n + 1) = false := by
  induction l with
  | nil => rfl
  | cons p l ih =>
    obtain ⟨hp, hl⟩ := List.forall_mem_cons.mp h
    rcases hp with hp | hp <;> simp [binds, hp, ih hl]

/-- The first of some arguments goes to the first parameter, or finds no place. -/
theorem binds_first {first : Parameter} {l : List Parameter}
    (h : (first :: l).Pairwise fun p q => p.kind.Before q.kind) {n : Nat} (hn : 0 < n) :
    binds supplied (first :: l) n = true ↔ supplied first = false ∧
      (first.kind.positional = true ∧ binds supplied l (n - 1) = true ∨
        first.kind = .varPositional ∧ binds supplied l 0 = true) := by
  obtain ⟨n, rfl⟩ : ∃ m, n = m + 1 := ⟨n - 1, by omega⟩
  have hlater := (List.pairwise_cons.mp h).1
  have hkeywords : first.kind = .keywordOnly ∨ first.kind = .varKeyword →
      binds supplied l (n + 1) = false := by
    intro hfirst
    refine binds_of_keywords (fun p hp => ?_) n
    have hbefore := hlater p hp
    rcases hfirst with hk | hk <;> cases hp : p.kind <;>
      simp [ParameterKind.Before, ParameterKind.rank, hk, hp] at hbefore ⊢
  cases hk : first.kind <;> simp [binds, ParameterKind.positional, hk] at hkeywords ⊢
  · exact fun _ => hkeywords
  · exact hkeywords

theorem binds_one_iff {p : Parameter} (h : supplied p = false) {n : Nat} (hn : n ≤ 1) :
    binds supplied [p] n = true ↔ Fills [p] n := by
  obtain rfl | rfl : n = 0 ∨ n = 1 := by omega
  · cases hk : p.kind <;> simp [binds, Fills, Parameter.Optional, hk, h]
  · cases hk : p.kind <;>
      simp [binds, Fills, Parameter.Takes, ParameterKind.positional, hk, h]

theorem binds_two_iff {p q : Parameter} (hp : supplied p = false) (hq : supplied q = false)
    (hpq : p.kind.Before q.kind) {n : Nat} (hn : n ≤ 2) :
    binds supplied [p, q] n = true ↔ Fills [p, q] n := by
  -- what cannot be listed after `p` is no case of its own
  revert hpq
  obtain rfl | rfl | rfl : n = 0 ∨ n = 1 ∨ n = 2 := by omega
  · cases hk : p.kind <;> cases hl : q.kind <;>
      simp [binds, Fills, Parameter.Optional, hk, hl, hp, hq]
  · cases hk : p.kind <;> cases hl : q.kind <;>
      simp [binds, Fills, Parameter.Takes, Parameter.Optional, ParameterKind.positional,
        ParameterKind.Before, ParameterKind.rank, hk, hl, hp, hq]
  · cases hk : p.kind <;> cases hl : q.kind <;>
      simp [binds, Fills, Parameter.Takes, Parameter.Optional, ParameterKind.positional,
        ParameterKind.Before, ParameterKind.rank, hk, hl, hp, hq]

theorem binds_own_iff {own rest : List Parameter} (hown : ∀ p ∈ own, supplied p = false)
    (hrest : ∀ p ∈ rest, supplied p = true)
    (hshape : (∃ p, own = [p]) ∨ ∃ p q, own = [p, q] ∧ p.kind.Before q.kind) {n : Nat}
    (hn : n ≤ own.length) : binds supplied (own ++ rest) n = true ↔ Fills own n := by
  rw [binds_append own hrest]
  rcases hshape with hp | hpq
  · obtain ⟨p, rfl⟩ := hp
    exact binds_one_iff (hown p (by simp)) hn
  · obtain ⟨p, q, rfl, hbefore⟩ := hpq
    exact binds_two_iff (hown p (by simp)) (hown q (by simp)) hbefore hn

end Binding

section Calling
variable {check : ContainerCheck} {callable : Callable} {handler : Handler ω}

theorem parameters_ordered (callable : Callable) :
    callable.parameters.Pairwise fun p q => p.kind.Before q.kind := by
  rcases callable with signature | signature | call
  · exact signature.ordered
  · exact signature.ordered
  · cases call with
    | none => exact .nil
    | some call => exact call.signature.ordered.tail

theorem Callable.left?_le (callable : Callable) {n m : Nat}
    (h : callable.left? check n = some m) : m ≤ n := by
  rcases callable with signature | signature | call
  · exact Nat.le_of_eq (Option.some.inj h).symm
  · exact Nat.le_of_eq (Option.some.inj h).symm
  cases call with
  | none => simp [Callable.left?] at h
  | some call =>
    rcases hp : call.signature.parameters with _ | ⟨first, rest⟩
    · simp [Callable.left?, hp] at h
    · simp only [Callable.left?, hp] at h
      split_ifs at h
      · exact Nat.le_of_eq (Option.some.inj h).symm
      · cases hk : first.kind <;> simp only [hk, Option.some.injEq, reduceCtorEq] at h <;> omega

/-- What is left of the arguments goes to the parameters the check reads. -/
theorem Callable.bindsCall_left (callable : Callable) {n : Nat} (hn : 0 < n) :
    callable.bindsCall check n = true ↔ ∃ m, callable.left? check n = some m ∧
      binds (callable.supplied check) callable.parameters m = true := by
  rcases callable with signature | signature | call
  · simp [Callable.bindsCall, Callable.left?, Callable.parameters]
  · simp [Callable.bindsCall, Callable.left?, Callable.parameters]
  cases call with
  | none => simp [Callable.bindsCall, Callable.left?]
  | some call =>
    have hordered := call.signature.ordered
    rcases hp : call.signature.parameters with _ | ⟨first, rest⟩
    · simp [Callable.bindsCall, Callable.left?, hp]
    rw [hp] at hordered
    have hfirst := @binds_first ((Callable.type (some call)).supplied check) first rest hordered
    simp only [Callable.bindsCall, Callable.left?, Callable.parameters, hp, List.tail_cons]
    cases hk : first.kind <;> cases hs : call.static <;>
      cases hsup : (Callable.type (some call)).supplied check first <;>
      simp [hfirst, hk, hsup, hn, ParameterKind.positional]

namespace Accepted
variable {own rest : List Parameter}

theorem own_eq (h : Accepted check callable own rest) :
    own = callable.parameters.filter fun p => !callable.supplied check p :=
  (filter_own h.split h.unsupplied h.supplied).symm

/-- Binding what is left of the arguments to the parameters the check reads. -/
theorem binds_iff (h : Accepted check callable own rest) {n : Nat} (hn : n ≤ own.length) :
    binds (callable.supplied check) callable.parameters n = true ↔ Fills own n := by
  have hordered := parameters_ordered callable
  rw [h.split] at hordered ⊢
  refine binds_own_iff h.unsupplied h.supplied ?_ hn
  obtain ⟨p, rfl⟩ | ⟨p, q, rfl, -⟩ := h.shape
  · exact .inl ⟨p, rfl⟩
  · exact .inr ⟨p, q, rfl, (List.pairwise_cons.mp hordered).1 q (by simp)⟩

theorem bindsCall_iff (h : Accepted check callable own rest) :
    callable.bindsCall check own.length = true ↔
      ∃ m, callable.left? check own.length = some m ∧ Fills own m := by
  have hpos : 0 < own.length := by
    obtain ⟨p, rfl⟩ | ⟨p, q, rfl, -⟩ := h.shape <;> simp
  rw [callable.bindsCall_left hpos]
  exact exists_congr fun m => and_congr_right fun hm => h.binds_iff (callable.left?_le hm)

theorem of_eq (h : Accepted check handler.callable own rest) (name : Option String) :
    ∃ descriptor, HandlerDescriptor.of check handler name = .ok descriptor ∧
      descriptor.arguments = own.length := by
  refine ⟨⟨handler.id, handler.label name, own.length == 2, handler.run⟩, ?_, ?_⟩
  · unfold HandlerDescriptor.of
    dsimp only
    rw [h.wantsEnvelope]
    rfl
  · obtain ⟨p, rfl⟩ | ⟨p, q, rfl, -⟩ := h.shape <;> rfl

end Accepted
end Calling

/-- Declaring a handler: it is refused, or the call `invoke` makes binds. -/
def Handler.Checked (check : ContainerCheck) (handler : Handler ω) (name : Option String) : Prop :=
  match HandlerDescriptor.of check handler name with
  | .ok descriptor => handler.callable.bindsCall check descriptor.arguments = true
  | .error error => error = handlerSignatureError (handler.label name)
      (handler.callable.parameters.map Parameter.name)

/-- The parameters the check accepts are of kinds that its arguments, or what the parameters it does
not read leave of them, can fill. -/
def Callable.Fillable (check : ContainerCheck) (callable : Callable) : Prop :=
  ∀ own rest, Accepted check callable own rest →
    ∃ m, callable.left? check own.length = some m ∧ Fills own m

/-- A handler is called in a way that binds, or refused where it is declared, just where the kinds
of its parameters are ones a call by position fills. -/
theorem checked_iff (check : ContainerCheck) (handler : Handler ω) (name : Option String) :
    handler.Checked check name ↔ handler.callable.Fillable check := by
  by_cases hacc : ∃ own rest, Accepted check handler.callable own rest
  · obtain ⟨own, rest, h⟩ := hacc
    obtain ⟨descriptor, hof, harguments⟩ := h.of_eq name
    unfold Handler.Checked
    rw [hof]
    dsimp only
    rw [harguments, h.bindsCall_iff]
    constructor
    · intro hfills own' rest' h'
      obtain rfl : own' = own := h'.own_eq.trans h.own_eq.symm
      exact hfills
    · intro hfillable
      exact hfillable own rest h
  · have herror := (wantsEnvelope_cases (ω := ω) check handler.callable
      (handler.label name)).resolve_left hacc
    unfold Handler.Checked HandlerDescriptor.of
    dsimp only
    rw [herror]
    simp only [bind, Except.bind, true_iff]
    exact fun own rest h => absurd ⟨own, rest, h⟩ hacc

/-- A handler of one keyword-only parameter is accepted, and called with one argument. -/
theorem keyword_only_accepted :
    let handler : Handler Sample := ⟨4, some "handle", "function",
      .function ⟨[⟨"message", .keywordOnly, false⟩], [], by simp, by simp⟩, fun m _ => .ok m⟩
    let descriptor : HandlerDescriptor Sample := ⟨4, "handle", false, handler.run⟩
    HandlerDescriptor.of none handler = .ok descriptor ∧
      handler.callable.bindsCall none descriptor.arguments = false := ⟨rfl, by decide⟩

end XtrMessenger.Bus
