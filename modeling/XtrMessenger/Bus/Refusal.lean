import XtrMessenger.Bus.Sending

/-! A message that names an unknown transport: what was sent of it before that was found. -/
namespace XtrMessenger.Bus
open Foundation
variable {ω : Type}

section Refusal
variable [BEq (Stamp ω)]

/-- No sender was called. -/
def Unsent (run : Dispatching ω (Envelope ω)) : Prop := ∀ c ∈ run.calls, c.isSend = false

/-- `isinstance(error, UnknownTransportError)`. -/
def unknownTransport (error : Exc ω) : Prop := error.typeName = "UnknownTransportError"

/-- What comes after routing in a chain: it neither sends nor finds a transport unknown. -/
structure PastRouting (next : Envelope ω → Dispatching ω (Envelope ω)) : Prop where
  unsent : ∀ envelope, Unsent (next envelope)
  known : ∀ envelope error, (next envelope).result = .error error → ¬unknownTransport error

/-- An unknown transport is refused before anything is sent. -/
structure RefusesUnsent (run : Dispatching ω (Envelope ω)) (unknown : Prop) : Prop where
  raised : ∀ error, run.result = .error error → unknownTransport error → Unsent run
  named : unknown → Unsent run

omit [BEq (Stamp ω)] in
/-- Where nothing was sent there is nothing to refuse. -/
theorem RefusesUnsent.of_unsent {run : Dispatching ω (Envelope ω)} (h : Unsent run)
    (unknown : Prop) : RefusesUnsent run unknown := by
  constructor
  case raised => exact fun _ _ _ => h
  case named => exact fun _ => h

/-- The first sender to raise, if any does, raises something else. -/
def RaisesOther (envelope : Envelope ω) : List (String × Sender ω) → Prop
  | [] => True
  | routed :: rest =>
    match answer envelope routed with
    | .ok _ => RaisesOther envelope rest
    | .error error => ¬unknownTransport error

theorem raisesOther_iff (envelope : Envelope ω) (routed : List (String × Sender ω)) :
    RaisesOther envelope routed ↔ ∀ error,
      (sendEach envelope (routed.map .ok)).result = .error error → ¬unknownTransport error := by
  induction routed with
  | nil => simp [RaisesOther, sendEach]
  | cons s rest ih =>
    rw [List.map_cons, sendEach, RaisesOther]
    rcases ha : answer envelope s with error | returned
    · rw [Traced.bind_of_error (e := error) _ rfl]
      simp
    · rw [Traced.bind_of_ok (a := returned) _ rfl]
      dsimp only
      rw [ih]
      rcases hs : (sendEach envelope (rest.map .ok)).result with error | added
      · rw [Traced.bind_of_error _ hs]
      · rw [Traced.bind_of_ok _ hs]
        simp

section Stages
variable [PyObject ω] {locator : SendersLocatorInterface ω} (requireSender handleUnrouted : Bool)
  (next : Envelope ω → Dispatching ω (Envelope ω)) {envelope : Envelope ω}
  {rest : List (Except (Exc ω) (String × Sender ω))}

theorem unsent_of_error (hr : envelope.last (.shipped .received) = none) {error : Exc ω}
    (hl : locator.sendersFor envelope = .error error :: rest) :
    Unsent (sendMessage locator requireSender handleUnrouted envelope next) := by
  rw [sendMessage_resolved requireSender handleUnrouted next hr (by simp [hl]), hl, sendEach,
    Traced.bind_of_error (e := error) _ rfl]
  simp [Unsent]

theorem sent_of_ok (hr : envelope.last (.shipped .received) = none) {first : String × Sender ω}
    (hl : locator.sendersFor envelope = .ok first :: rest) :
    ¬Unsent (sendMessage locator requireSender handleUnrouted envelope next) := by
  intro h
  have hcall : sending envelope first ∈ (sendEach envelope (.ok first :: rest)).calls :=
    Traced.mem_bind_calls (List.mem_singleton_self _) _
  rw [sendMessage_resolved requireSender handleUnrouted next hr (by simp [hl]), hl] at h
  have := h _ (Traced.mem_bind_calls hcall _)
  simp [sending, BusCall.isSend] at this

theorem unsent_of_unrouted {next : Envelope ω → Dispatching ω (Envelope ω)} (hn : PastRouting next)
    (hr : envelope.last (.shipped .received) = none) (hl : locator.sendersFor envelope = []) :
    Unsent (sendMessage locator requireSender handleUnrouted envelope next) := by
  rw [sendMessage_unrouted _ _ next hr hl]
  split_ifs
  · simp [Unsent]
  · exact hn.unsent _
  · simp [Unsent]

/-- With every transport known, what the dispatch raises is what a sender raised. -/
theorem raises_iff {next : Envelope ω → Dispatching ω (Envelope ω)} (hn : PastRouting next)
    (hr : envelope.last (.shipped .received) = none)
    {routed : List (String × Sender ω)} (hl : locator.sendersFor envelope = routed.map .ok)
    (hne : routed ≠ []) :
    (∀ error, (sendMessage locator requireSender handleUnrouted envelope next).result =
      .error error → ¬unknownTransport error) ↔ RaisesOther envelope routed := by
  rw [raisesOther_iff, sendMessage_resolved requireSender handleUnrouted next hr
    (by simpa [hl] using hne), hl]
  rcases hs : (sendEach envelope (routed.map .ok)).result with error | added
  · rw [Traced.bind_of_error _ hs]
    simp only [Except.error.injEq]
  · rw [Traced.bind_of_ok _ hs]
    refine iff_of_true (fun error h => ?_) (by simp)
    dsimp only at h
    split_ifs at h
    · simp at h
    · exact hn.known _ error h

end Stages

/-- Of a message that was not received, either the first transport named is unknown, or all are
known and no sender raises `UnknownTransportError` itself. -/
def SendersLocator.Refusable [Messages ω] (l : SendersLocator ω) (messages : MessageRegistry)
    (envelope : Envelope ω) : Prop :=
  let names := l.transportNames messages envelope
  envelope.last (.shipped .received) ≠ none ∨ (∃ name ∈ names.head?, name ∉ l.senders.keys) ∨
    (∀ name ∈ names, name ∈ l.senders.keys) ∧ RaisesOther envelope (l.routed names)

/-- A message that names an unknown transport is refused unsent exactly when that is the first
one it names. -/
theorem refuses_unsent_iff [Messages ω] (l : SendersLocator ω) (messages : MessageRegistry)
    (requireSender handleUnrouted : Bool) (envelope : Envelope ω)
    (next : Envelope ω → Dispatching ω (Envelope ω)) (hn : PastRouting next) :
    RefusesUnsent (sendMessage (l.interface messages) requireSender handleUnrouted envelope next)
        (∃ name ∈ l.transportNames messages envelope, name ∉ l.senders.keys) ↔
      l.Refusable messages envelope := by
  by_cases hr : envelope.last (.shipped .received) = none
  swap
  · rw [sendMessage_received _ _ _ next hr]
    exact iff_of_true (.of_unsent (hn.unsent _) _) (.inl hr)
  have hl : (l.interface messages).sendersFor envelope =
      (l.transportNames messages envelope).eraseDups.map l.resolve := rfl
  unfold SendersLocator.Refusable
  dsimp only
  generalize l.transportNames messages envelope = names at hl ⊢
  rcases names with _ | ⟨name, names⟩
  · -- routed nowhere
    have hunsent := unsent_of_unrouted requireSender handleUnrouted hn hr hl
    exact iff_of_true (.of_unsent hunsent _) (.inr (.inr ⟨by simp, trivial⟩))
  have hcons : (name :: names).eraseDups.map l.resolve =
      l.resolve name :: (names.filter fun b => !b == name).eraseDups.map l.resolve := by
    rw [List.eraseDups_cons, List.map_cons]
  by_cases hk : name ∈ l.senders.keys
  swap
  · have hfirst : l.resolve name = .error (unknownTransportError [name] l.senders.keys) := by
      rw [SendersLocator.resolve, (Dict.get?_eq_none_iff _).mpr hk]
    have hunsent := unsent_of_error requireSender handleUnrouted next hr
      (hl.trans (hfirst ▸ hcons))
    exact iff_of_true (.of_unsent hunsent _) (.inr (.inl ⟨name, rfl, hk⟩))
  obtain ⟨sender, hs⟩ := l.senders.get?_of_mem_keys hk
  have hfirst : l.resolve name = .ok (name, sender) := by rw [SendersLocator.resolve, hs]
  have hsent := sent_of_ok requireSender handleUnrouted next hr
    (hl.trans (hfirst ▸ hcons))
  by_cases hall : ∀ n ∈ name :: names, n ∈ l.senders.keys
  · have hrouted := hl.trans (SendersLocator.resolve_all hall)
    have hne := SendersLocator.routed_ne_nil (List.cons_ne_nil _ _) hall
    have hraises := raises_iff requireSender handleUnrouted hn hr hrouted hne
    constructor
    · intro h
      exact .inr (.inr ⟨hall, hraises.mp fun e he hu => hsent (h.raised e he hu)⟩)
    · rintro (h | ⟨n, hm, hnk⟩ | ⟨-, h⟩)
      · exact absurd hr h
      · obtain rfl : name = n := by simpa using hm
        exact absurd hk hnk
      · refine ⟨fun e he hu => absurd hu (hraises.mpr h e he), ?_⟩
        rintro ⟨n, hm, hnk⟩
        exact absurd (hall n hm) hnk
  · have hunknown : ∃ n ∈ name :: names, n ∉ l.senders.keys := by
      by_contra h
      exact hall fun n hm => by_contra fun hnk => h ⟨n, hm, hnk⟩
    refine iff_of_false (fun h => hsent (h.named hunknown)) ?_
    rintro (h | ⟨n, hn, hnk⟩ | ⟨h, -⟩)
    · exact h hr
    · obtain rfl : name = n := by simpa using hn
      exact hnk hk
    · exact hall h

omit [BEq (Stamp ω)] in
theorem pastRouting_pure : PastRouting (pure : Envelope ω → Dispatching ω (Envelope ω)) :=
  ⟨fun _ => by simp [Unsent], fun _ _ h => by simp at h⟩

end Refusal

theorem refuses_unsent_iff_missingFirst :
    RefusesUnsent (sendMessage (oneSender.interface .empty) false false
        (named ["missing", "known"]) pure)
      (∃ name ∈ oneSender.transportNames .empty (named ["missing", "known"]),
        name ∉ oneSender.senders.keys) :=
  (refuses_unsent_iff oneSender .empty false false (named ["missing", "known"]) pure
    pastRouting_pure).mpr (.inr (.inl ⟨"missing", rfl, by decide⟩))

/-- Named after a known one, an unknown transport is found only once the message was sent. -/
theorem sent_before_unknown : ¬∀ (l : SendersLocator Sample) (messages : MessageRegistry)
    (requireSender handleUnrouted : Bool) (envelope : Envelope Sample)
    (next : Envelope Sample → Dispatching Sample (Envelope Sample)), PastRouting next →
      RefusesUnsent (sendMessage (l.interface messages) requireSender handleUnrouted envelope next)
        (∃ name ∈ l.transportNames messages envelope, name ∉ l.senders.keys) := by
  intro h
  have hunsent := (h oneSender .empty false false (named ["known", "missing"]) pure
    pastRouting_pure).named ⟨"missing", by decide, by decide⟩
  have hsent := hunsent (sending (named ["known", "missing"]) ("known", ⟨"SyncTransport", .ok⟩))
    (List.mem_cons_self ..)
  simp [sending, BusCall.isSend] at hsent

end XtrMessenger.Bus
