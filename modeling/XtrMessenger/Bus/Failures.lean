import XtrMessenger.Bus.Handlers
import XtrMessenger.Foundation.Search

/-! What `HandleMessageMiddleware` keeps of handlers that raise: one error a handler, each under
a key of its own. -/
namespace XtrMessenger.Bus
open Foundation
variable {ω : Type}

/-- The keys tried for a name: the name, then `name#2`, `name#3` and so on. -/
def numbered (name : String) : Nat → String
  | 0 => name
  | n + 1 => name ++ "#" ++ toString (n + 2)

theorem numbered_injective (name : String) : Function.Injective (numbered name) := by
  have hlonger : ∀ n, name ≠ numbered name (n + 1) := by
    intro n h
    have hlength := congrArg String.length h
    have hash : "#".length = 1 := rfl
    simp only [numbered, String.length_append] at hlength
    omega
  intro m n h
  cases m with
  | zero =>
    cases n with
    | zero => rfl
    | succ n => exact absurd h (hlonger n)
  | succ m =>
    cases n with
    | zero => exact absurd h.symm (hlonger m)
    | succ n =>
      have hlists := congrArg String.toList h
      simp only [numbered, String.toList_append, List.append_cancel_left_eq] at hlists
      have hvalues := Text.toString_injective (String.toList_injective hlists)
      omega

theorem unused_eq (errors : List (String × Exc ω)) (name : String) :
    unused errors name = firstFree (numbered name) (errors.map Prod.fst) := by
  unfold unused firstFree
  rw [List.length_map, List.range_succ_eq_map, List.map_cons, List.map_map]
  rfl

/-- `while key in errors`: the loop of `_unused` ends, with the key it returns. -/
theorem unused_search (errors : List (String × Exc ω)) (name : String) :
    Search (numbered name) (errors.map Prod.fst) 0 (unused errors name) :=
  unused_eq errors name ▸ search_firstFree (numbered_injective name) _

theorem unused_notMem (errors : List (String × Exc ω)) (name : String) :
    unused errors name ∉ errors.map Prod.fst := (unused_search errors name).notMem

/-- One handler's turn: the envelope it sees, and what running it comes to. -/
structure Turn (ω : Type) where
  found : Found ω
  envelope : Envelope ω
  run : Dispatching ω ω

namespace Turn

/-- The stamp of a handler that returned. -/
def stamps (t : Turn ω) : List (Stamp ω) :=
  match t.run.result with
  | .ok result => [.shipped (.handled t.found.name result)]
  | .error _ => []

/-- What a handler raised, by its name. -/
def failure? (t : Turn ω) : Option (String × Exc ω) :=
  match t.run.result with
  | .ok _ => none
  | .error error => some (t.found.name, error)

end Turn

/-- The turns of the handlers found: each sees the stamps of those before it. -/
def turns (invoke : Found ω → Envelope ω → Dispatching ω ω) :
    List (Found ω) → Envelope ω → List (Turn ω)
  | [], _ => []
  | found :: rest, envelope =>
    let turn : Turn ω := ⟨found, envelope, invoke found envelope⟩
    turn :: turns invoke rest (envelope.withStamps turn.stamps)

/-- `errors[_unused(errors, descriptor.name)] = error`, where a turn failed. -/
def keep (errors : Dict String (Exc ω)) (turn : Turn ω) : Dict String (Exc ω) :=
  match turn.failure? with
  | none => errors
  | some (name, error) => errors.set (unused errors.entries name) error

section Loop
variable (invoke : Found ω → Envelope ω → Dispatching ω ω)

theorem turns_found (found : List (Found ω)) (envelope : Envelope ω) :
    (turns invoke found envelope).map Turn.found = found := by
  induction found generalizing envelope with
  | nil => rfl
  | cons f rest ih => rw [turns, List.map_cons, ih]

/-- No failure is written over another: setting a key that is free adds an entry. -/
theorem handleEach_eq (found : List (Found ω)) (envelope : Envelope ω)
    (errors : Dict String (Exc ω)) : handleEach invoke found envelope errors.entries =
      ⟨(turns invoke found envelope).flatMap fun t => t.run.calls,
        .ok (envelope.withStamps ((turns invoke found envelope).flatMap Turn.stamps),
          ((turns invoke found envelope).foldl keep errors).entries)⟩ := by
  induction found generalizing envelope errors with
  | nil => simp [handleEach, turns, pure, Traced.pure]
  | cons f rest ih =>
    rw [handleEach, Traced.attempt_bind, turns]
    cases hr : (invoke f envelope).result with
    | error error =>
      have hset := errors.set_entries_of_notMem (unused_notMem errors.entries f.name) error
      simp [← hset, ih, hr, Turn.stamps, keep, Turn.failure?]
    | ok result => simp [ih, hr, Turn.stamps, keep, Turn.failure?, Envelope.withStamps]

end Loop

/-- An entry of the errors is a failure under its handler's name, or that name numbered. -/
def Files (failure entry : String × Exc ω) : Prop :=
  entry.2 = failure.2 ∧ ∃ n, entry.1 = numbered failure.1 n

theorem keep_files (ts : List (Turn ω)) (errors : Dict String (Exc ω)) :
    ∃ filed, (ts.foldl keep errors).entries = errors.entries ++ filed ∧
      List.Forall₂ Files (ts.filterMap Turn.failure?) filed := by
  induction ts generalizing errors with
  | nil => exact ⟨[], by simp, .nil⟩
  | cons t ts ih =>
    cases hf : t.failure? with
    | none =>
      have hkeep : keep errors t = errors := by simp [keep, hf]
      rw [List.foldl_cons, hkeep, List.filterMap_cons_none hf]
      exact ih errors
    | some failure =>
      obtain ⟨name, error⟩ := failure
      have hkeep : keep errors t = errors.set (unused errors.entries name) error := by
        simp [keep, hf]
      have hset := errors.set_entries_of_notMem (unused_notMem errors.entries name) error
      obtain ⟨filed, hentries, hall⟩ := ih (errors.set (unused errors.entries name) error)
      refine ⟨(unused errors.entries name, error) :: filed, ?_, ?_⟩
      · rw [List.foldl_cons, hkeep, hentries, hset, List.append_assoc, List.singleton_append]
      · rw [List.filterMap_cons_some hf]
        exact .cons ⟨rfl, (unused_search errors.entries name).exists_eq⟩ hall

/-- What handling does with the turns of a message's handlers, given what follows in the chain: the
failures are kept, each under a key of its own, or nothing failed and the chain goes on. -/
structure KeepsEach (requireHandler : Bool) (ts : List (Turn ω)) (envelope : Envelope ω)
    (next : Envelope ω → Dispatching ω (Envelope ω)) (run : Dispatching ω (Envelope ω)) : Prop where
  refused : ts = [] → requireHandler = true → ∃ error, run = ⟨[], .error error⟩
  handled : ts ≠ [] ∨ requireHandler = false → ts.filterMap Turn.failure? = [] →
    let handled := envelope.withStamps (ts.flatMap Turn.stamps)
    run = ⟨(ts.flatMap fun t => t.run.calls) ++ (next handled).calls, (next handled).result⟩
  failed : ts.filterMap Turn.failure? ≠ [] →
    ∃ (errors : Dict String (Exc ω)) (text : String),
      run = ⟨ts.flatMap fun t => t.run.calls, .error (.handlersFailed
        (envelope.withStamps (ts.flatMap Turn.stamps)) errors.entries text)⟩ ∧
      List.Forall₂ Files (ts.filterMap Turn.failure?) errors.entries

/-- What handling comes to once every handler had its turn. -/
def conclude [PyObject ω] (ts : List (Turn ω)) (envelope : Envelope ω)
    (next : Envelope ω → Dispatching ω (Envelope ω)) : Dispatching ω (Envelope ω) :=
  let handled := envelope.withStamps (ts.flatMap Turn.stamps)
  let errors := (ts.foldl keep .empty).entries
  let rest := if errors.isEmpty then next handled
    else Traced.lift (Exc.handlersFailedError handled errors >>= .error)
  ⟨(ts.flatMap fun t => t.run.calls) ++ rest.calls, rest.result⟩

section Handling
variable [PyObject ω] (registry : HandlersLocatorInterface ω) {requireHandler : Bool}
  (envelope : Envelope ω) (next : Envelope ω → Dispatching ω (Envelope ω))

theorem handleMessage_eq (h : registry.handlersFor (PyObject.typeOf envelope.message) ≠ [] ∨
      requireHandler = false) : handleMessage registry requireHandler envelope next =
    conclude (turns registry.invoke (registry.handlersFor (PyObject.typeOf envelope.message))
      envelope) envelope next := by
  have hguard : ((registry.handlersFor (PyObject.typeOf envelope.message)).isEmpty &&
      requireHandler) = false := by
    rcases h with h | h
    · simp [h]
    · simp [h]
  have heach := handleEach_eq registry.invoke
    (registry.handlersFor (PyObject.typeOf envelope.message)) envelope .empty
  change handleEach _ _ _ [] = _ at heach
  unfold handleMessage conclude
  dsimp only
  rw [hguard, if_neg Bool.false_ne_true, heach, Traced.bind_of_ok _ rfl]

theorem handleMessage_refused (h : registry.handlersFor (PyObject.typeOf envelope.message) = [])
    (hrequired : requireHandler = true) : handleMessage registry requireHandler envelope next =
      ⟨[], .error (noHandlerForMessageError (PyObject.typeOf envelope.message)
        (sorted (registry.messageTypes.map PyType.qualname)))⟩ := by
  unfold handleMessage
  dsimp only
  rw [h, hrequired]
  rfl

variable {ts : List (Turn ω)}

theorem conclude_of_handled (h : ts.filterMap Turn.failure? = []) :
    conclude ts envelope next = ⟨(ts.flatMap fun t => t.run.calls) ++
        (next (envelope.withStamps (ts.flatMap Turn.stamps))).calls,
      (next (envelope.withStamps (ts.flatMap Turn.stamps))).result⟩ := by
  obtain ⟨filed, hentries, hfiles⟩ := keep_files ts (Dict.empty : Dict String (Exc ω))
  rw [h] at hfiles
  obtain rfl := List.forall₂_nil_left_iff.mp hfiles
  unfold conclude
  rw [hentries]
  rfl

theorem conclude_of_failed (h : ts.filterMap Turn.failure? ≠ []) :
    ∃ errors : Dict String (Exc ω),
      List.Forall₂ Files (ts.filterMap Turn.failure?) errors.entries ∧
      conclude ts envelope next = ⟨ts.flatMap fun t => t.run.calls,
        Exc.handlersFailedError (envelope.withStamps (ts.flatMap Turn.stamps)) errors.entries >>=
          .error⟩ := by
  obtain ⟨filed, hentries, hfiles⟩ := keep_files ts (Dict.empty : Dict String (Exc ω))
  have hfiled : (ts.foldl keep Dict.empty).entries = filed := hentries
  have hsome : filed.isEmpty = false := by
    rcases filed with _ | ⟨entry, filed⟩
    · exact absurd (List.forall₂_nil_right_iff.mp hfiles) h
    · rfl
  refine ⟨ts.foldl keep .empty, hfiled ▸ hfiles, ?_⟩
  unfold conclude
  dsimp only
  rw [hfiled, hsome, if_neg Bool.false_ne_true]
  simp

end Handling

section Text
variable [PyObject ω] (envelope : Envelope ω) {errors : List (String × Exc ω)}

omit [PyObject ω] in
/-- What `handlersFailedError` writes of one handler's error. -/
theorem failure_read (entry : String × Exc ω) :
    (do return entry.1 ++ ": " ++ (← entry.2.str) : Except (Exc ω) String) =
      entry.2.str.map (entry.1 ++ ": " ++ ·) := by
  cases entry.2.str <;> rfl

theorem handlersFailedError_of_printable (h : ∀ entry ∈ errors, entry.2.Printable) :
    ∃ text, Exc.handlersFailedError envelope errors =
      .ok (.handlersFailed envelope errors text) := by
  have hread : ∃ failures, (errors.mapM fun entry => do
      return entry.1 ++ ": " ++ (← entry.2.str) : Except (Exc ω) (List String)) =
        .ok failures := by
    apply mapM_returns_iff.mpr
    intro entry he
    obtain ⟨text, ht⟩ := h entry he
    rw [failure_read, ht]
    exact ⟨_, rfl⟩
  obtain ⟨failures, hfailures⟩ := hread
  unfold Exc.handlersFailedError
  rw [hfailures]
  exact ⟨_, rfl⟩

/-- Composing the text raises what reading one of the errors raises. -/
theorem handlersFailedError_of_unprintable (h : ¬∀ entry ∈ errors, entry.2.Printable) :
    ∃ raises, Exc.handlersFailedError envelope errors = .error raises ∧
      ∃ entry ∈ errors, entry.2.str = .error raises := by
  cases hpass : (errors.mapM fun entry => do
      return entry.1 ++ ": " ++ (← entry.2.str) : Except (Exc ω) (List String)) with
  | ok failures =>
    refine absurd (fun entry he => ?_) h
    obtain ⟨failure, hfailure⟩ := mapM_returns_iff.mp ⟨failures, hpass⟩ entry he
    rw [failure_read] at hfailure
    obtain ⟨text, htext, -⟩ := map_eq_ok_iff.mp hfailure
    exact ⟨text, htext⟩
  | error raises =>
    obtain ⟨entry, he, hraised⟩ := exists_of_mapM_eq_error hpass
    rw [failure_read] at hraised
    refine ⟨raises, by rw [Exc.handlersFailedError, hpass]; rfl, entry, he, ?_⟩
    cases hstr : entry.2.str with
    | ok text => simp [hstr, Except.map] at hraised
    | error raised => simpa [hstr, Except.map] using hraised

omit [PyObject ω] in
/-- No error's text is raised as a failure that counts the error among its own. -/
theorem str_ne_handlersFailed {error : Exc ω} {text : String} (h : error ∈ errors.map Prod.snd) :
    error.str ≠ .error (.handlersFailed envelope errors text) := by
  intro hs
  cases error with
  | unprintable cls raises =>
    obtain rfl : raises = .handlersFailed envelope errors text := Except.error.inj hs
    obtain ⟨⟨key, error⟩, he, heq⟩ := List.mem_map.mp h
    have hlt := List.sizeOf_lt_of_mem he
    obtain rfl : error = _ := heq
    simp at hlt
    omega
  | exception cls text => simp [Exc.str] at hs
  | handlersFailed e es t => simp [Exc.str] at hs
  | delayedMessageHandling e es t => simp [Exc.str] at hs
  | messageEncodingFailed r n t => simp [Exc.str] at hs
  | messageDecodingFailed r n t => simp [Exc.str] at hs

end Text

theorem map_snd_of_files {failures filed : List (String × Exc ω)}
    (h : List.Forall₂ Files failures filed) : filed.map Prod.snd = failures.map Prod.snd := by
  induction h with
  | nil => rfl
  | cons hf _ ih => rw [List.map_cons, List.map_cons, hf.1, ih]

/-- Failures kept in any way leave the same exceptions. -/
theorem printable_of_files {failures filed : List (String × Exc ω)}
    (h : List.Forall₂ Files failures filed) :
    (∀ failure ∈ failures, failure.2.Printable) ↔ ∀ entry ∈ filed, entry.2.Printable := by
  have hmap : ∀ l : List (String × Exc ω), (∀ e ∈ l, e.2.Printable) ↔
      ∀ error ∈ l.map Prod.snd, error.Printable := fun l => List.forall_mem_map.symm
  rw [hmap, hmap, map_snd_of_files h]

theorem keepsEach_iff [PyObject ω] (requireHandler : Bool) (ts : List (Turn ω))
    (envelope : Envelope ω) (next : Envelope ω → Dispatching ω (Envelope ω))
    (h : ts ≠ [] ∨ requireHandler = false) :
    KeepsEach requireHandler ts envelope next (conclude ts envelope next) ↔
      ∀ failure ∈ ts.filterMap Turn.failure?, failure.2.Printable := by
  have hgo : ts = [] → requireHandler = true →
      ∃ error, conclude ts envelope next = ⟨[], .error error⟩ := by
    rintro rfl hrequired
    simp [hrequired] at h
  by_cases hnone : ts.filterMap Turn.failure? = []
  · refine iff_of_true ⟨hgo, fun _ _ => ?_, fun hsome => absurd hnone hsome⟩ (by simp [hnone])
    exact conclude_of_handled envelope next hnone
  obtain ⟨errors, hfiles, hrun⟩ := conclude_of_failed envelope next hnone
  rw [printable_of_files hfiles]
  constructor
  · intro hkeeps
    by_contra hnot
    obtain ⟨raises, hraised, entry, he, hstr⟩ := handlersFailedError_of_unprintable
      (envelope.withStamps (ts.flatMap Turn.stamps)) hnot
    obtain ⟨errors', text, hfailed, hfiles'⟩ := hkeeps.failed hnone
    -- what is raised instead cannot be the failure that counts the unprintable error
    have hmem : entry.2 ∈ errors'.entries.map Prod.snd := by
      rw [map_snd_of_files hfiles', ← map_snd_of_files hfiles]
      exact List.mem_map_of_mem he
    have hraises : raises = .handlersFailed (envelope.withStamps (ts.flatMap Turn.stamps))
        errors'.entries text := by
      have hresult := congrArg Traced.result (hrun.symm.trans hfailed)
      rw [hraised] at hresult
      exact Except.error.inj hresult
    exact str_ne_handlersFailed _ hmem (hraises ▸ hstr)
  · intro hall
    obtain ⟨text, htext⟩ := handlersFailedError_of_printable
      (envelope.withStamps (ts.flatMap Turn.stamps)) hall
    rw [htext] at hrun
    exact ⟨hgo, fun _ h => absurd h hnone, fun _ => ⟨errors, text, hrun, hfiles⟩⟩

/-- The search for a key ends, each handler found has its turn, and every failure is kept exactly
when the text of each can be read. -/
theorem keeps_each_iff [PyObject ω] (registry : HandlersLocatorInterface ω) (requireHandler : Bool)
    (envelope : Envelope ω) (next : Envelope ω → Dispatching ω (Envelope ω)) :
    let found := registry.handlersFor (PyObject.typeOf envelope.message)
    let ts := turns registry.invoke found envelope
    (∀ (errors : List (String × Exc ω)) (name : String),
        Search (numbered name) (errors.map Prod.fst) 0 (unused errors name)) ∧
      ts.map Turn.found = found ∧
      (KeepsEach requireHandler ts envelope next
          (handleMessage registry requireHandler envelope next) ↔
        ∀ failure ∈ ts.filterMap Turn.failure?, failure.2.Printable) := by
  dsimp only
  have hfound := turns_found registry.invoke
    (registry.handlersFor (PyObject.typeOf envelope.message)) envelope
  refine ⟨unused_search, hfound, ?_⟩
  by_cases hgo : registry.handlersFor (PyObject.typeOf envelope.message) ≠ [] ∨
      requireHandler = false
  · rw [handleMessage_eq registry envelope next hgo]
    refine keepsEach_iff requireHandler _ envelope next (hgo.imp_left fun hne hts => ?_)
    exact hne (by rw [← hfound, hts, List.map_nil])
  · -- nothing is bound, and something had to be
    rw [not_or, not_not, Bool.not_eq_false] at hgo
    obtain ⟨hnone, hrequired⟩ := hgo
    rw [handleMessage_refused registry envelope next hnone hrequired, hnone, turns]
    refine iff_of_true ⟨fun _ _ => ⟨_, rfl⟩, fun h => ?_, by simp⟩ (by simp)
    simp [hrequired] at h

/-- Two handlers of one name that raise; the second's exception has no text. -/
def bothFail : HandlersLocatorInterface Sample where
  handlersFor _ := [
    .registered ⟨0, "build", false, fun _ _ => .error (.exception "ValueError" "no")⟩,
    .registered ⟨1, "build", false, fun _ _ =>
      .error (.unprintable "OrderError" (.exception "AttributeError" "reason"))⟩]
  messageTypes := []
  invoke := RedispatchingHandlers.invoke (.error (.exception "LookupError" "bus"))

/-- A failure that cannot be put into words takes the others with it. -/
theorem failures_lost : ¬∀ (registry : HandlersLocatorInterface Sample) (requireHandler : Bool)
    (envelope : Envelope Sample) (next : Envelope Sample → Dispatching Sample (Envelope Sample)),
    KeepsEach requireHandler (turns registry.invoke
      (registry.handlersFor (PyObject.typeOf envelope.message)) envelope) envelope next
      (handleMessage registry requireHandler envelope next) := by
  intro h
  obtain ⟨errors, text, hrun, -⟩ := (h bothFail true ⟨.report, []⟩ pure).failed (by simp [bothFail,
    turns, Turn.failure?, RedispatchingHandlers.invoke, HandlerDescriptor.invoke])
  have hraised : (handleMessage bothFail true ⟨.report, []⟩ pure).result =
      .error (.exception "AttributeError" "reason") := rfl
  rw [hrun] at hraised
  simp at hraised

end XtrMessenger.Bus
