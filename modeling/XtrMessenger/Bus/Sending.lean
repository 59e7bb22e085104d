import XtrMessenger.Bus.Message
import XtrMessenger.Foundation.Surplus

/-! Routing a message and handing it to its transports: the routing table, and
`SendMessageMiddleware` over whatever resolves senders. -/
namespace XtrMessenger.Bus
open Foundation
variable {ω : Type}

/-- A key of the routing table: a class, or a string such as `"*"`. -/
inductive RouteKey
  | type (type : PyType)
  | name (name : String)
  deriving DecidableEq

/-- `str | Sequence[str]`. -/
inductive Route
  | one (name : String)
  | many (names : List String)

def Route.names : Route → List String
  | one name => [name]
  | many names => names

def wildcard : RouteKey := .name "*"

/-- The routing table and the senders it names. -/
structure SendersLocator (ω : Type) where
  routes : Dict RouteKey (List String)
  senders : Dict String (Sender ω)
  known : ∀ names ∈ routes.values, ∀ name ∈ names, name ∈ senders.keys

/-- What resolves where a message goes. A generator: it resolves one sender at a time, and an
error ends it. -/
structure SendersLocatorInterface (ω : Type) where
  sendersFor : Envelope ω → List (Except (Exc ω) (String × Sender ω))
  routedTypeNames : List String

namespace SendersLocator

/-- `__init__`: a route naming an unknown transport is refused. -/
def create (routing : Dict RouteKey Route) (senders : Dict String (Sender ω)) :
    Except (Exc ω) (SendersLocator ω) :=
  let routes := Dict.update .empty (routing.entries.map fun (key, route) => (key, route.names))
  match h : routes.values.flatten.find? fun name => name ∉ senders.keys with
  | some name => .error (unknownTransportError [name] senders.keys)
  | none => .ok ⟨routes, senders, fun names hn name hm => by
      simpa using List.find?_eq_none.mp h name (List.mem_flatten.mpr ⟨names, hn, hm⟩)⟩

/-- `transports_of`: what the class declares, or the first of its bases that declares any. -/
def transportsOf [Messages ω] (messages : MessageRegistry) (messageType : PyType) : List String :=
  ((mro ω messageType).findSome? fun base =>
    (messages.transportsByType.get? base).filter fun declared => !declared.isEmpty).getD []

/-- The names of the last `TransportNamesStamp`. -/
def overrideNames (envelope : Envelope ω) : Option (List String) :=
  match (envelope.last (.shipped .transportNames)).bind Stamp.asShipped with
  | some (.transportNames names) => some names
  | _ => none

def transportNames [Messages ω] (l : SendersLocator ω) (messages : MessageRegistry)
    (envelope : Envelope ω) : List String :=
  match overrideNames envelope with
  | some names => names
  | none =>
    let messageType := PyObject.typeOf envelope.message
    let matched := (mro ω messageType).flatMap fun base => (l.routes.get? (.type base)).getD []
    if !matched.isEmpty then matched
    else
      let caught := (l.routes.get? wildcard).getD []
      if !caught.isEmpty then caught else transportsOf (ω := ω) messages messageType

/-- One step of the generator. -/
def resolve (l : SendersLocator ω) (name : String) : Except (Exc ω) (String × Sender ω) :=
  match l.senders.get? name with
  | none => .error (unknownTransportError [name] l.senders.keys)
  | some sender => .ok (name, sender)

/-- `senders_for`: a name seen before is passed over. -/
def sendersFor [Messages ω] (l : SendersLocator ω) (messages : MessageRegistry)
    (envelope : Envelope ω) : List (Except (Exc ω) (String × Sender ω)) :=
  (l.transportNames messages envelope).eraseDups.map l.resolve

/-- The senders the named transports stand for, each once. -/
def routed (l : SendersLocator ω) (names : List String) :
    List (String × Sender ω) :=
  names.eraseDups.filterMap fun name => (l.senders.get? name).map fun sender => (name, sender)

theorem resolve_all {l : SendersLocator ω} {names : List String}
    (h : ∀ name ∈ names, name ∈ l.senders.keys) :
    names.eraseDups.map l.resolve = (l.routed names).map .ok := by
  have hall : ∀ name ∈ names.eraseDups, name ∈ l.senders.keys := fun name hm =>
    h name (List.mem_eraseDups.mp hm)
  unfold routed
  generalize names.eraseDups = distinct at hall
  induction distinct with
  | nil => rfl
  | cons name rest ih =>
    obtain ⟨sender, hs⟩ := l.senders.get?_of_mem_keys (hall name List.mem_cons_self)
    rw [List.map_cons, ih fun n hm => hall n (List.mem_cons_of_mem _ hm)]
    simp [resolve, hs]

theorem routed_names {l : SendersLocator ω} {names : List String}
    (h : ∀ name ∈ names, name ∈ l.senders.keys) : (l.routed names).map Prod.fst =
      names.eraseDups := by
  have hall : ∀ name ∈ names.eraseDups, name ∈ l.senders.keys := fun name hm =>
    h name (List.mem_eraseDups.mp hm)
  unfold routed
  generalize names.eraseDups = distinct at hall
  induction distinct with
  | nil => rfl
  | cons name rest ih =>
    obtain ⟨sender, hs⟩ := l.senders.get?_of_mem_keys (hall name List.mem_cons_self)
    have hrest := ih fun n hm => hall n (List.mem_cons_of_mem _ hm)
    simp [hs, hrest]

theorem routed_ne_nil {l : SendersLocator ω} {names : List String} (hne : names ≠ [])
    (h : ∀ name ∈ names, name ∈ l.senders.keys) : l.routed names ≠ [] := by
  intro hnil
  obtain ⟨name, hm⟩ := List.exists_mem_of_ne_nil _ hne
  have hd := List.mem_eraseDups.mpr hm
  rw [← routed_names h, hnil] at hd
  simp at hd

theorem mem_routed {l : SendersLocator ω} {names : List String} {s : String × Sender ω} :
    s ∈ l.routed names ↔ s.1 ∈ names ∧ l.senders.get? s.1 = some s.2 := by
  obtain ⟨name, sender⟩ := s
  simp [routed]

def routedTypeNames (l : SendersLocator ω) : List String :=
  sorted (l.routes.keys.map fun key => match key with
    | .type type => type.qualname
    | .name name => name)

def interface [Messages ω] (l : SendersLocator ω) (messages : MessageRegistry) :
    SendersLocatorInterface ω := ⟨l.sendersFor messages, l.routedTypeNames⟩

end SendersLocator

/-- Equality of stamps. That of dataclasses holds between instances of one class only. -/
class StampEquality (ω : Type) [BEq (Stamp ω)] : Prop extends EquivBEq (Stamp ω) where
  cls_eq {a b : Stamp ω} : (a == b) = true → a.cls = b.cls

instance [DecidableEq ω] : StampEquality ω where
  cls_eq h := by rw [eq_of_beq h]

section Middleware
variable [BEq (Stamp ω)]

/-- The loop of `_added_by`, where the shortcut is not taken. -/
def addedByLoop (returned before : List (Stamp ω)) : List (Stamp ω) :=
  let unmatched := before
  let added := []
  (returned.foldl matching (unmatched, added)).2

def addedBy (returned before : List (Stamp ω)) : List (Stamp ω) :=
  let count := before.length
  if returned.take count == before then returned.drop count else addedByLoop returned before

/-- What a sender is handed: the envelope as it was before any, with the sender's own stamp. -/
def handed (envelope : Envelope ω) (routed : String × Sender ω) : Envelope ω :=
  envelope.withStamps [.shipped (.sent routed.2.className routed.1)]

/-- What a sender answers. -/
def answer (envelope : Envelope ω) (routed : String × Sender ω) : Except (Exc ω) (Envelope ω) :=
  routed.2.send (handed envelope routed)

/-- The call of a sender. -/
def sending (envelope : Envelope ω) (routed : String × Sender ω) : BusCall ω :=
  .send routed.1 (handed envelope routed) (answer envelope routed)

/-- The loop over the senders: what they added, in turn. -/
def sendEach (envelope : Envelope ω) :
    List (Except (Exc ω) (String × Sender ω)) → Dispatching ω (List (Stamp ω))
  | [] => pure []
  | .error error :: _ => Traced.lift (.error error)
  | .ok routed :: rest => do
    let returned ← Traced.call (sending envelope routed) (answer envelope routed)
    let added ← sendEach envelope rest
    return addedBy returned.stamps envelope.stamps ++ added

/-- `SendMessageMiddleware.handle`. -/
def sendMessage [PyObject ω] (locator : SendersLocatorInterface ω)
    (requireSender handleUnrouted : Bool) : Middleware ω := fun envelope next =>
  if envelope.last (.shipped .received) ≠ none then next envelope
  else do
    let resolved := locator.sendersFor envelope
    let added ← sendEach envelope resolved
    if !resolved.isEmpty then
      let envelope := envelope.withStamps added
      if envelope.last (.shipped .received) = none then return envelope else next envelope
    else if requireSender then
      Traced.lift (.error (noSenderForMessageError (PyObject.typeOf envelope.message)
        locator.routedTypeNames))
    else if !handleUnrouted then return envelope
    else next envelope

end Middleware
section Spec
variable [BEq (Stamp ω)]

theorem sendEach_ok {envelope : Envelope ω} {routed : List (String × Sender ω)}
    {returned : List (Envelope ω)}
    (h : List.Forall₂ (fun s r => answer envelope s = .ok r) routed returned) :
    sendEach envelope (routed.map .ok) = ⟨routed.map (sending envelope),
      .ok (returned.map fun r => addedBy r.stamps envelope.stamps).flatten⟩ := by
  induction h with
  | nil => rfl
  | @cons s r routed returned ha _ ih =>
    rw [List.map_cons, sendEach, Traced.bind_of_ok (a := r) _ ha, ih]
    simp [Traced.bind_of_ok, sending]

theorem sendMessage_received [PyObject ω] (locator : SendersLocatorInterface ω)
    (requireSender handleUnrouted : Bool) (next : Envelope ω → Dispatching ω (Envelope ω))
    {envelope : Envelope ω} (hr : envelope.last (.shipped .received) ≠ none) :
    sendMessage locator requireSender handleUnrouted envelope next = next envelope := if_pos hr

/-- Nothing is sent of a message that is not routed. -/
theorem sendMessage_unrouted [PyObject ω] {locator : SendersLocatorInterface ω}
    (requireSender handleUnrouted : Bool) (next : Envelope ω → Dispatching ω (Envelope ω))
    {envelope : Envelope ω} (hr : envelope.last (.shipped .received) = none)
    (hl : locator.sendersFor envelope = []) :
    sendMessage locator requireSender handleUnrouted envelope next =
      if requireSender then Traced.lift (.error (noSenderForMessageError
        (PyObject.typeOf envelope.message) locator.routedTypeNames))
      else if handleUnrouted then next envelope else pure envelope := by
  unfold sendMessage
  rw [if_neg (by simp [hr])]
  simp only [hl, sendEach, Traced.pure_bind, List.isEmpty_nil, Bool.not_true]
  cases requireSender <;> cases handleUnrouted <;> rfl

theorem sendMessage_resolved [PyObject ω] {locator : SendersLocatorInterface ω}
    (requireSender handleUnrouted : Bool) (next : Envelope ω → Dispatching ω (Envelope ω))
    {envelope : Envelope ω} (hr : envelope.last (.shipped .received) = none)
    (hl : locator.sendersFor envelope ≠ []) :
    sendMessage locator requireSender handleUnrouted envelope next =
      sendEach envelope (locator.sendersFor envelope) >>= fun added =>
        let merged := envelope.withStamps added
        if merged.last (.shipped .received) = none then pure merged else next merged := by
  have hsome : (locator.sendersFor envelope).isEmpty = false := by simpa using hl
  unfold sendMessage
  rw [if_neg (by simp [hr])]
  simp only [hsome, Bool.not_false, if_true]

/-- Once every sender answered, the message is handled here only if one handed it back
received. -/
theorem sendMessage_routed [PyObject ω] {locator : SendersLocatorInterface ω}
    (requireSender handleUnrouted : Bool) (next : Envelope ω → Dispatching ω (Envelope ω))
    {envelope : Envelope ω} (hr : envelope.last (.shipped .received) = none)
    {routed : List (String × Sender ω)} (hl : locator.sendersFor envelope = routed.map .ok)
    (hne : routed ≠ []) {returned : List (Envelope ω)}
    (ha : List.Forall₂ (fun s r => answer envelope s = .ok r) routed returned) :
    let merged := envelope.withStamps
      (returned.map fun r => addedBy r.stamps envelope.stamps).flatten
    let rest := if merged.last (.shipped .received) = none then pure merged else next merged
    sendMessage locator requireSender handleUnrouted envelope next =
      ⟨routed.map (sending envelope) ++ rest.calls, rest.result⟩ := by
  rw [sendMessage_resolved requireSender handleUnrouted next hr (by simpa [hl] using hne), hl,
    Traced.bind_of_ok _ (by rw [sendEach_ok ha]), sendEach_ok ha]

theorem addedByLoop_eq_surplus (returned before : List (Stamp ω)) :
    addedByLoop returned before = surplus before returned := foldl_matching before [] returned

section Equivalence
variable [EquivBEq (Stamp ω)]

/-- The prefix shortcut leaves what matching stamp by stamp does. -/
theorem addedBy_eq_surplus (returned before : List (Stamp ω)) :
    addedBy returned before = surplus before returned := by
  unfold addedBy
  dsimp only
  split_ifs with h
  · have hs := surplus_append h (returned.drop before.length)
    rw [List.take_append_drop] at hs
    exact hs.symm
  · exact addedByLoop_eq_surplus returned before

/-- Where the shortcut is taken the loop would have answered the same; and the loop keeps, in
order, as many of equal stamps as were returned beyond those there were before. -/
theorem shortcut_agrees (returned before : List (Stamp ω)) :
    ((returned.take before.length == before) = true →
      addedBy returned before = returned.drop before.length ∧
        returned.drop before.length = addedByLoop returned before) ∧
    (addedByLoop returned before).Sublist returned ∧
    ∀ stamp, copies stamp (addedByLoop returned before) =
      copies stamp returned - copies stamp before := by
  have hloop := addedByLoop_eq_surplus returned before
  refine ⟨fun hstart => ?_, ?_, fun stamp => ?_⟩
  · have hshort : addedBy returned before = returned.drop before.length := if_pos hstart
    refine ⟨hshort, ?_⟩
    rw [hloop, ← addedBy_eq_surplus, hshort]
  · rw [hloop]
    exact surplus_sublist before returned
  · rw [hloop]
    exact copies_surplus stamp before returned

/-- A sender that adds a stamp equal to one there was. -/
theorem shortcut_agrees_repeated :
    ([.shipped (.delay 250), .shipped (.delay 9), .shipped (.delay 250)] :
        List (Stamp Int)).drop 2 =
      addedByLoop [.shipped (.delay 250), .shipped (.delay 9), .shipped (.delay 250)]
        [.shipped (.delay 250), .shipped (.delay 9)] ∧
    copies (.shipped (.delay 250)) (addedByLoop (ω := Int)
      [.shipped (.delay 250), .shipped (.delay 9), .shipped (.delay 250)]
      [.shipped (.delay 250), .shipped (.delay 9)]) = 1 := by
  obtain ⟨hshort, _, hcount⟩ := shortcut_agrees (ω := Int)
    [.shipped (.delay 250), .shipped (.delay 9), .shipped (.delay 250)]
    [.shipped (.delay 250), .shipped (.delay 9)]
  exact ⟨(hshort (by decide)).2, (hcount _).trans (by decide)⟩

/-- Each sender is handed the original envelope with its own stamp, and the envelope to go on
with gains, sender by sender, what each returned beyond the original. -/
theorem sends_apart [PyObject ω] (locator : SendersLocatorInterface ω)
    (requireSender handleUnrouted : Bool) (next : Envelope ω → Dispatching ω (Envelope ω))
    (envelope : Envelope ω) (hr : envelope.last (.shipped .received) = none)
    (routed : List (String × Sender ω)) (hl : locator.sendersFor envelope = routed.map .ok)
    (returned : List (Envelope ω))
    (ha : List.Forall₂ (fun s r => s.2.send (handed envelope s) = .ok r) routed returned) :
    ∃ added rest, List.Forall₂ (fun r a => a.Sublist r.stamps ∧
        ∀ stamp, copies stamp a = copies stamp r.stamps - copies stamp envelope.stamps)
        returned added ∧
      (rest = pure (envelope.withStamps added.flatten) ∨
        rest = next (envelope.withStamps added.flatten) ∨
        routed = [] ∧ ∃ error, rest = Traced.lift (.error error)) ∧
      sendMessage locator requireSender handleUnrouted envelope next =
        ⟨routed.map (fun s => .send s.1 (handed envelope s) (s.2.send (handed envelope s))) ++
          rest.calls, rest.result⟩ := by
  have hadded : List.Forall₂ (fun r a => a.Sublist r.stamps ∧
      ∀ stamp, copies stamp a = copies stamp r.stamps - copies stamp envelope.stamps) returned
      (returned.map fun r => addedBy r.stamps envelope.stamps) := by
    rw [List.forall₂_map_right_iff, List.forall₂_same]
    intro r _
    rw [addedBy_eq_surplus]
    exact ⟨surplus_sublist _ _, fun stamp => copies_surplus _ _ _⟩
  rcases eq_or_ne routed [] with rfl | hne
  · obtain rfl := List.forall₂_nil_left_iff.mp ha
    refine ⟨_, sendMessage locator requireSender handleUnrouted envelope next, hadded, ?_, rfl⟩
    rw [sendMessage_unrouted requireSender handleUnrouted next hr hl]
    split_ifs
    · exact .inr (.inr ⟨rfl, _, rfl⟩)
    · exact .inr (.inl (by simp))
    · exact .inl (by simp)
  · refine ⟨_, _, hadded, ?_, sendMessage_routed requireSender handleUnrouted next hr hl hne ha⟩
    split_ifs
    · exact .inl rfl
    · exact .inr (.inl rfl)

end Equivalence

/-- A sender adds a stamp of a class none of the original stamps is of exactly when what it
returns has one. -/
theorem exists_addedBy_iff [StampEquality ω] {returned before : List (Stamp ω)} {base : StampBase}
    (hb : ∀ s ∈ before, s.isInstance base = false) :
    (∃ s ∈ addedBy returned before, s.isInstance base = true) ↔
      ∃ s ∈ returned, s.isInstance base = true := by
  rw [addedBy_eq_surplus]
  constructor
  · rintro ⟨s, hs, hi⟩
    exact ⟨s, (surplus_sublist _ _).subset hs, hi⟩
  · rintro ⟨s, hs, hi⟩
    have hsame : ∀ {l : List (Stamp ω)}, 0 < copies s l → ∃ t ∈ l, t.isInstance base = true := by
      intro l hl
      obtain ⟨t, ht, he⟩ := List.countP_pos_iff.mp hl
      exact ⟨t, ht, (Stamp.isInstance_congr (StampEquality.cls_eq he) base).trans hi⟩
    have hnone : copies s before = 0 := by
      by_contra hne
      obtain ⟨t, ht, hti⟩ := hsame (Nat.pos_of_ne_zero hne)
      simp [hb t ht] at hti
    have hpos : 0 < copies s returned := List.countP_pos_iff.mpr ⟨s, hs, BEq.rfl⟩
    exact hsame (by rw [copies_surplus]; omega)

end Spec

/-- One transport, and no routes. -/
def oneSender : SendersLocator Sample :=
  ⟨.empty, (Dict.empty : Dict String (Sender Sample)).set "known" ⟨"SyncTransport", .ok⟩,
    by simp [Dict.values, Dict.empty]⟩

/-- A report to send to named transports. -/
def named (names : List String) : Envelope Sample :=
  ⟨.report, [.shipped (.transportNames names)]⟩

/-- A sender that appends, and one that rebuilds the envelope with a stamp repeated. -/
def appending : Sender Int :=
  ⟨"InMemoryTransport", fun e => .ok (e.withStamps [.shipped (.transportMessageId "1")])⟩

def rebuilding : Sender Int :=
  ⟨"Rebuilding", fun e => .ok ⟨e.message, (.shipped (.delay 250) :: e.stamps).reverse⟩⟩

theorem sends_apart_two : ∃ added rest, List.Forall₂ (fun r a => a.Sublist r.stamps ∧
        ∀ stamp, copies stamp a = copies stamp r.stamps - copies stamp [.shipped (.delay 250)])
      ([⟨5, [.shipped (.delay 250), .shipped (.sent "InMemoryTransport" "a"),
          .shipped (.transportMessageId "1")]⟩,
        ⟨5, [.shipped (.sent "Rebuilding" "b"), .shipped (.delay 250), .shipped (.delay 250)]⟩] :
          List (Envelope Int)) added ∧
    (rest = pure ((⟨5, [.shipped (.delay 250)]⟩ : Envelope Int).withStamps added.flatten) ∨
      rest = pure ((⟨5, [.shipped (.delay 250)]⟩ : Envelope Int).withStamps added.flatten) ∨
      [("a", appending), ("b", rebuilding)] = [] ∧ ∃ error, rest = Traced.lift (.error error)) ∧
    sendMessage ⟨fun _ => [.ok ("a", appending), .ok ("b", rebuilding)], []⟩ false false
        ⟨5, [.shipped (.delay 250)]⟩ pure =
      ⟨[("a", appending), ("b", rebuilding)].map (fun s => .send s.1
        (handed ⟨5, [.shipped (.delay 250)]⟩ s)
        (s.2.send (handed ⟨5, [.shipped (.delay 250)]⟩ s))) ++ rest.calls, rest.result⟩ :=
  sends_apart ⟨fun _ => [.ok ("a", appending), .ok ("b", rebuilding)], []⟩ false false pure
    ⟨5, [.shipped (.delay 250)]⟩ rfl [("a", appending), ("b", rebuilding)] rfl _
    (.cons rfl (.cons rfl .nil))

end XtrMessenger.Bus
