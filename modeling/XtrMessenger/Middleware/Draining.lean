import XtrMessenger.Middleware.Holding

/-! What is held back while a message is handled goes out once it succeeded, in the order it
was held, and not at all when it raised. Each hold has its own story in the history. -/
namespace XtrMessenger.DispatchAfterCurrentBus
open Foundation
variable {μ ω : Type}

/-- A message held back and what it is to go through: its number, the envelope and the
middleware left. -/
abbrev Rest (μ ω : Type) := Nat × Envelope ω × List (Middleware μ)

/-- Without the stamp, through all of its bus but the first middleware. -/
def Dispatch.rest (d : Dispatch μ ω) : Rest μ ω :=
  (d.id, d.envelope.withoutStamps (.shipped .dispatchAfterCurrentBus), d.bus.middlewares.tail)

def Waiting.rest (w : Waiting μ ω) : Rest μ ω := (w.id, w.envelope, w.stack.remaining)

namespace Event

/-- The hold an event opens, fills, drains or ends. -/
def hold? : Event μ ω → Option Nat
  | .dispatched _ _ (.held h _) => some h
  | .dispatched d _ .current => some d.id
  | .dispatched _ _ .nested => none
  | .drained h _ => some h
  | .finished .current id _ => some id
  | .finished (.drained h) _ _ => some h
  | .finished .nested _ _ => none
  | .ended h _ => some h

def heldRest? : Event μ ω → Option (Rest μ ω)
  | .dispatched d _ (.held _ _) => some d.rest
  | _ => none

def passedRest? : Event μ ω → Option (Rest μ ω)
  | .drained _ waiting => some waiting.rest
  | _ => none

def outcome? : Event μ ω → Option (Except (Exc ω) (Envelope ω))
  | .finished .current _ outcome => some outcome
  | _ => none

def failure? : Event μ ω → Option (Exc ω)
  | .finished (.drained _) _ (.error error) => some error
  | _ => none

def result? : Event μ ω → Option (Except (Exc ω) (Envelope ω))
  | .ended _ result => some result
  | _ => none

def id? : Event μ ω → Option Nat
  | .dispatched d _ _ => some d.id
  | _ => none

end Event

/-- What happened about one hold. -/
def story (h : Nat) (log : List (Event μ ω)) : List (Event μ ω) :=
  log.filter fun x => x.hold? = some h

section Stories
variable (story : List (Event μ ω))

/-- The messages held back, in order. -/
def heldIn : List (Rest μ ω) := story.filterMap Event.heldRest?
/-- The messages dispatched from the hold, in order. -/
def passedIn : List (Rest μ ω) := story.filterMap Event.passedRest?
/-- How the current message's own chain came out. -/
def outcomesIn : List (Except (Exc ω) (Envelope ω)) := story.filterMap Event.outcome?
/-- What the messages dispatched from the hold raised, in order. -/
def failuresIn : List (Exc ω) := story.filterMap Event.failure?
/-- How the dispatch of the current message came out. -/
def resultsIn : List (Except (Exc ω) (Envelope ω)) := story.filterMap Event.result?

end Stories

/-- The numbers of the messages dispatched. -/
def idsIn (log : List (Event μ ω)) : List Nat := log.filterMap Event.id?

/-- How the dispatch of a current message may come out. -/
def Concludes (pre : List (Event μ ω)) (result : Except (Exc ω) (Envelope ω)) : Prop :=
  (∀ error, .error error ∈ outcomesIn pre → result = .error error) ∧
    ∀ handled, .ok handled ∈ outcomesIn pre →
      (failuresIn pre = [] → result = .ok handled) ∧ (failuresIn pre ≠ [] →
        ∃ text, result = .error (.delayedMessageHandling handled (failuresIn pre) text))

/-- How an event of a story must follow what happened before it. -/
def Follows (concludes : List (Event μ ω) → Except (Exc ω) (Envelope ω) → Prop)
    (pre : List (Event μ ω)) : Event μ ω → Prop
  | .dispatched d _ (.held _ _) => stamped d.envelope = true ∧ resultsIn pre = []
  | .drained _ _ => (∃ handled, .ok handled ∈ outcomesIn pre) ∧ resultsIn pre = []
  | .ended _ result => concludes pre result
  | _ => True

/-- The story of a hold: what it held goes out after its message succeeded, in order, each
once, and nothing goes out when it raised; nothing joins it once it ended. -/
structure Settles (concludes : List (Event μ ω) → Except (Exc ω) (Envelope ω) → Prop)
    (story : List (Event μ ω)) : Prop where
  once : (outcomesIn story).length ≤ 1
  order : passedIn story <+: heldIn story
  dropped : ∀ error, .error error ∈ outcomesIn story → passedIn story = []
  complete : ∀ handled, .ok handled ∈ outcomesIn story → resultsIn story ≠ [] →
    passedIn story = heldIn story
  follows : Justified (Follows concludes) story

/-- Every message is dispatched once, held back only if it is stamped, and every hold
settles. -/
structure HoldsBack (log : List (Event μ ω)) : Prop where
  ids : (idsIn log).Nodup
  unstamped : ∀ d c, .dispatched d c .nested ∈ log → stamped d.envelope = false
  settles : ∀ h, Settles Concludes (story h log)

theorem story_concat (h : Nat) (log : List (Event μ ω)) (x : Event μ ω) :
    story h (log ++ [x]) = if x.hold? = some h then story h log ++ [x] else story h log := by
  unfold story
  split_ifs with hx <;> simp [List.filter_append, hx]

section Concat
variable (log : List (Event μ ω)) (x : Event μ ω)

theorem idsIn_concat : idsIn (log ++ [x]) = idsIn log ++ x.id?.toList := filterMap_concat _ _ _

theorem heldIn_concat : heldIn (log ++ [x]) = heldIn log ++ x.heldRest?.toList :=
  filterMap_concat _ _ _

theorem passedIn_concat : passedIn (log ++ [x]) = passedIn log ++ x.passedRest?.toList :=
  filterMap_concat _ _ _

theorem outcomesIn_concat : outcomesIn (log ++ [x]) = outcomesIn log ++ x.outcome?.toList :=
  filterMap_concat _ _ _

theorem failuresIn_concat : failuresIn (log ++ [x]) = failuresIn log ++ x.failure?.toList :=
  filterMap_concat _ _ _

theorem resultsIn_concat : resultsIn (log ++ [x]) = resultsIn log ++ x.result?.toList :=
  filterMap_concat _ _ _

end Concat

variable [PyObject ω]

/-- The dispatch comes out as `_current` computes it. -/
def Computes (pre : List (Event μ ω)) (result : Except (Exc ω) (Envelope ω)) : Prop :=
  (∀ error, .error error ∈ outcomesIn pre → result = .error error) ∧
    ∀ handled, .ok handled ∈ outcomesIn pre → result = State.settled handled (failuresIn pre)

/-- A hold that is open, and its story so far. -/
structure Open (story : List (Event μ ω)) (hold : Held μ ω) : Prop where
  follows : Justified (Follows Computes) story
  balance : heldIn story = passedIn story ++ hold.envelopes.map Waiting.rest
  unended : resultsIn story = []
  errors : failuresIn story = hold.errors
  outcome : outcomesIn story = (hold.handled.map Except.ok).toList
  undrained : hold.handled = none → passedIn story = []

/-- What the story of a hold is, by what has become of it. -/
structure Tells (story : List (Event μ ω)) (hold : Option (Held μ ω)) : Prop where
  unopened : hold = none → story = []
  opened : ∀ held, hold = some held → held.isOpen = true → Open story held
  closed : ∀ held, hold = some held → held.isOpen = false → Settles Computes story

section Stages
variable {story : List (Event μ ω)} {hold : Held μ ω}

theorem Open.settles (h : Open story hold) : Settles Computes story where
  once := by
    rw [h.outcome]
    cases hold.handled <;> simp
  order := by rw [h.balance]; exact List.prefix_append _ _
  dropped error he := by
    rw [h.outcome] at he
    cases hh : hold.handled with
    | none => exact h.undrained hh
    | some handled => simp [hh] at he
  complete _ _ hr := absurd h.unended hr
  follows := h.follows

theorem Settles.nil : Settles (μ := μ) (ω := ω) Computes [] :=
  ⟨by simp [outcomesIn], List.prefix_rfl, by simp [outcomesIn], by simp [outcomesIn], .nil⟩

theorem Tells.settles {hold : Option (Held μ ω)} (h : Tells story hold) :
    Settles Computes story := by
  cases hold with
  | none => exact h.unopened rfl ▸ .nil
  | some held =>
    cases ho : held.isOpen with
    | true => exact (h.opened held rfl ho).settles
    | false => exact h.closed held rfl ho

theorem Tells.of_open (h : Open story hold) (ho : hold.isOpen = true) :
    Tells story (some hold) where
  unopened hn := by simp at hn
  opened held he _ := Option.some.inj he ▸ h
  closed held he hc := by simp [← Option.some.inj he, ho] at hc

theorem Tells.of_closed (h : Settles Computes story) (ho : hold.isOpen = false) :
    Tells story (some hold) where
  unopened hn := by simp at hn
  opened held he hc := by simp [← Option.some.inj he, ho] at hc
  closed held he _ := h

section
attribute [local simp] heldIn_concat passedIn_concat outcomesIn_concat failuresIn_concat
  resultsIn_concat Event.heldRest? Event.passedRest? Event.outcome? Event.failure? Event.result?

theorem Open.begin (d : Dispatch μ ω) (context : Nat) (token : Option Nat) :
    Open [.dispatched d context .current]
      ({ context, token, handling := d.id } : Held μ ω) :=
  ⟨justified_concat.mpr ⟨.nil, trivial⟩, rfl, rfl, rfl, rfl, fun _ => rfl⟩

theorem Open.holdBack (h : Open story hold) {d : Dispatch μ ω} (hd : stamped d.envelope = true)
    (context n m : Nat) : Open (story ++ [.dispatched d context (.held n m)]) { hold with
      envelopes := hold.envelopes ++
        [⟨d.id, d.envelope.withoutStamps (.shipped .dispatchAfterCurrentBus), d.bus.stack⟩] } where
  follows := justified_concat.mpr ⟨h.follows, hd, h.unended⟩
  balance := by simp [h.balance, Dispatch.rest, Waiting.rest, MessageBus.stack_remaining]
  unended := by simpa using h.unended
  errors := by simpa using h.errors
  outcome := by simpa using h.outcome
  undrained hn := by simpa using h.undrained hn

theorem Open.returned (h : Open story hold) (hn : hold.handled = none) (id : Nat)
    (handled : Envelope ω) : Open (story ++ [.finished .current id (.ok handled)])
      { hold with handled := some handled } where
  follows := justified_concat.mpr ⟨h.follows, trivial⟩
  balance := by simpa using h.balance
  unended := by simpa using h.unended
  errors := by simpa using h.errors
  outcome := by simp [h.outcome, hn]
  undrained hs := by simp at hs

theorem Open.pop (h : Open story hold) {handled : Envelope ω} (hh : hold.handled = some handled)
    {w : Waiting μ ω} {ws : List (Waiting μ ω)} (hw : hold.envelopes = w :: ws) (n : Nat) :
    Open (story ++ [.drained n w]) { hold with envelopes := ws, handling := w.id } where
  follows := justified_concat.mpr ⟨h.follows, ⟨handled, by simp [h.outcome, hh]⟩, h.unended⟩
  balance := by simp [h.balance, hw]
  unended := by simpa using h.unended
  errors := by simpa using h.errors
  outcome := by simpa using h.outcome
  undrained hn := by simp [hh] at hn

theorem Open.tried (h : Open story hold) {handled : Envelope ω} (hh : hold.handled = some handled)
    (n id : Nat) (outcome : Except (Exc ω) (Envelope ω)) :
    Open (story ++ [.finished (.drained n) id outcome])
      { hold with errors := hold.errors ++ failureOf outcome } where
  follows := justified_concat.mpr ⟨h.follows, trivial⟩
  balance := by simpa using h.balance
  unended := by simpa using h.unended
  errors := by cases outcome <;> simp [failureOf, h.errors]
  outcome := by simpa using h.outcome
  undrained hn := by simp [hh] at hn

/-- Nothing is left to drain: the dispatch ends. -/
theorem Open.concluded (h : Open story hold) {handled : Envelope ω}
    (hh : hold.handled = some handled) (hw : hold.envelopes = []) (n : Nat) :
    Settles Computes (story ++ [.ended n (State.settled handled hold.errors)]) := by
  have hout : outcomesIn story = [.ok handled] := by simp [h.outcome, hh]
  have hall : passedIn story = heldIn story := by simp [h.balance, hw]
  exact {
    once := by simp [hout]
    order := by simp [hall]
    dropped := by simp [hout]
    complete := by simp [hall]
    follows := justified_concat.mpr ⟨h.follows, by simp [hout], by simp [hout, h.errors]⟩ }

theorem Open.raised (h : Open story hold) (hn : hold.handled = none) (id : Nat) (error : Exc ω) :
    Settles Computes (story ++ [.finished .current id (.error error)] ++
      [.ended id (.error error)]) := by
  have hfollows : Justified (Follows Computes) (story ++ [.finished .current id (.error error)]) :=
    justified_concat.mpr ⟨h.follows, trivial⟩
  have hout : outcomesIn (story ++ [.finished .current id (.error error)]) = [.error error] := by
    simp [h.outcome, hn]
  have hpassed : passedIn (story ++ [.finished .current id (.error error)]) = [] := by
    simp [h.undrained hn]
  generalize story ++ [.finished .current id (.error error)] = before at hfollows hout hpassed ⊢
  exact {
    once := by simp [hout]
    order := by simp [hpassed]
    dropped := by simp [hpassed]
    complete := by simp [hout]
    follows := justified_concat.mpr ⟨hfollows, by simp [hout], by simp [hout]⟩ }

end
end Stages

/-- The chain was entered for the hold. -/
def Role.IsFor (id h : Nat) : Role → Prop
  | .nested => False
  | .current => id = h
  | .drained h' => h' = h

/-- What a chain that is running says of the hold it was entered for. -/
def Runs (holds : Nat → Option (Held μ ω)) (id : Nat) : Role → Prop
  | .nested => True
  | .current => ∃ hold, holds id = some hold ∧ hold.isOpen = true ∧ hold.handled = none
  | .drained h => ∃ hold, holds h = some hold ∧ hold.isOpen = true ∧ hold.handled.isSome ∧
      hold.handling = id

/-- Dispatches are numbered in order, and holds by the dispatches they belong to. -/
structure Numbered (s : State μ ω) : Prop where
  ids : ∀ id ∈ idsIn s.log, id < s.dispatches
  nodup : (idsIn s.log).Nodup
  unstamped : ∀ d c, .dispatched d c .nested ∈ s.log → stamped d.envelope = false
  fresh : ∀ id, s.dispatches ≤ id → s.holds id = none

structure Inv (s : State μ ω) : Prop extends Numbered s where
  tells : ∀ h, Tells (story h s.log) (s.holds h)
  running : ∀ id role, s.running id = some role → Runs s.holds id role

/-- The invariant but for one hold, whose chain has just ended. -/
structure Around (h : Nat) (s : State μ ω) : Prop extends Numbered s where
  known : h < s.dispatches
  others : ∀ h', h' ≠ h → Tells (story h' s.log) (s.holds h')
  running : ∀ id role, s.running id = some role → ¬role.IsFor id h ∧ Runs s.holds id role

variable {s t : State μ ω} {h id : Nat} {hold : Held μ ω} {role : Role}

omit [PyObject ω] in
theorem Runs.update (hr : Runs s.holds id role) (hne : ¬role.IsFor id h) (x : Option (Held μ ω)) :
    Runs (Function.update s.holds h x) id role := by
  cases role with
  | nested => trivial
  | current => simpa [Runs, Function.update_of_ne (show id ≠ h from hne)] using hr
  | drained h' => simpa [Runs, Function.update_of_ne (show h' ≠ h from hne)] using hr

omit [PyObject ω] in
theorem Runs.fill (hr : Runs s.holds id role) (hs : s.holds h = some hold)
    (envelopes : List (Waiting μ ω)) :
    Runs (Function.update s.holds h (some { hold with envelopes })) id role := by
  cases role with
  | nested => trivial
  | current =>
    rcases eq_or_ne id h with rfl | hne
    · simpa [Runs, hs] using hr
    · have hother : ¬Role.current.IsFor id h := hne
      exact Runs.update hr hother _
  | drained h' =>
    rcases eq_or_ne h' h with rfl | hne
    · simpa [Runs, hs] using hr
    · have hother : ¬(Role.drained h').IsFor id h := hne
      exact Runs.update hr hother _

omit [PyObject ω] in
theorem Runs.unique {id' : Nat} {role' : Role} (hr : Runs s.holds id role)
    (hr' : Runs s.holds id' role') (hf : role.IsFor id h) (hf' : role'.IsFor id' h) : id = id' := by
  cases role with
  | nested => exact hf.elim
  | current =>
    obtain rfl : id = h := hf
    cases role' with
    | nested => exact hf'.elim
    | current => exact Eq.symm hf'
    | drained h' =>
      obtain rfl : h' = id := hf'
      obtain ⟨hold, hs, -, hn⟩ := hr
      obtain ⟨hold', hs', -, hh, -⟩ := hr'
      obtain rfl : hold = hold' := Option.some.inj (hs.symm.trans hs')
      simp [hn] at hh
  | drained h₁ =>
    obtain rfl : h₁ = h := hf
    obtain ⟨hold, hs, -, hh, rfl⟩ := hr
    cases role' with
    | nested => exact hf'.elim
    | current =>
      obtain rfl : id' = h₁ := hf'
      obtain ⟨hold', hs', -, hn⟩ := hr'
      obtain rfl : hold = hold' := Option.some.inj (hs.symm.trans hs')
      simp [hn] at hh
    | drained h' =>
      obtain rfl : h' = h₁ := hf'
      obtain ⟨hold', hs', -, -, rfl⟩ := hr'
      obtain rfl : hold = hold' := Option.some.inj (hs.symm.trans hs')
      rfl

omit [PyObject ω] in
theorem Numbered.log (hn : Numbered s) {x : Event μ ω} (hx : x.id? = none)
    (hl : t.log = s.log ++ [x]) (hd : t.dispatches = s.dispatches)
    (hf : ∀ id, s.dispatches ≤ id → t.holds id = none) : Numbered t where
  ids := by rw [hl, hd, idsIn_concat, hx]; simpa using hn.ids
  nodup := by rw [hl, idsIn_concat, hx]; simpa using hn.nodup
  unstamped d c hm := by
    rcases List.mem_append.mp (hl ▸ hm) with hm | hm
    · exact hn.unstamped d c hm
    · obtain rfl := List.mem_singleton.mp hm
      simp [Event.id?] at hx
  fresh := by rw [hd]; exact hf

omit [PyObject ω] in
theorem Numbered.dispatched (hn : Numbered s) {d : Dispatch μ ω} {context : Nat} {fate : Fate}
    (hid : d.id = s.dispatches) (hu : fate = .nested → stamped d.envelope = false)
    (hl : t.log = s.log ++ [.dispatched d context fate]) (hd : t.dispatches = d.id + 1)
    (hf : ∀ id, d.id + 1 ≤ id → t.holds id = none) : Numbered t where
  ids id hm := by
    rw [hl, idsIn_concat] at hm
    rw [hd, hid]
    rcases List.mem_append.mp hm with hm | hm
    · exact Nat.lt_succ_of_lt (hn.ids id hm)
    · obtain rfl : id = d.id := by simpa [Event.id?] using hm
      omega
  nodup := by
    rw [hl, idsIn_concat]
    refine List.nodup_append.mpr ⟨hn.nodup, by simp [Event.id?], fun a ha b hb => ?_⟩
    obtain rfl : b = d.id := by simpa [Event.id?] using hb
    exact fun he => absurd (hn.ids a ha) (by omega)
  unstamped d' c hm := by
    rcases List.mem_append.mp (hl ▸ hm) with hm | hm
    · exact hn.unstamped d' c hm
    · have heq := List.mem_singleton.mp hm
      simp only [Event.dispatched.injEq] at heq
      obtain ⟨rfl, -, rfl⟩ := heq
      exact hu rfl
  fresh := by rw [hd]; exact hf

theorem Inv.leave (hi : Inv s) (hr : s.running id = some role) (hf : role.IsFor id h)
    (hs : s.holds h = some hold) (outcome : Except (Exc ω) (Envelope ω)) :
    Around h (s.leave role id outcome) where
  toNumbered := hi.toNumbered.log rfl rfl rfl hi.fresh
  known := by
    by_contra hle
    simp [hi.fresh h (by simpa [State.leave] using hle)] at hs
  others h' hne := by
    have hx : (Event.finished role id outcome : Event μ ω).hold? ≠ some h' := by
      cases role with
      | nested => exact hf.elim
      | current => simpa [Event.hold?, show id = h from hf] using hne.symm
      | drained h₁ => simpa [Event.hold?, show h₁ = h from hf] using hne.symm
    simpa only [State.leave, story_concat, if_neg hx] using hi.tells h'
  running id' role' hr' := by
    rcases eq_or_ne id' id with rfl | hne
    · simp [State.leave] at hr'
    · have hruns : s.running id' = some role' := by simpa [State.leave, hne] using hr'
      refine ⟨fun hf' => hne ?_, hi.running id' role' hruns⟩
      exact (hi.running id' role' hruns).unique (hi.running id role hr) hf' hf

theorem Around.close (ha : Around h s) {result : Except (Exc ω) (Envelope ω)}
    (hc : Settles Computes (story h s.log ++ [.ended h result])) : Inv (s.close h hold result) where
  toNumbered := ha.toNumbered.log rfl rfl rfl fun id hle => by
    have hne : id ≠ h := fun he => absurd ha.known (by omega)
    simpa [State.close, hne] using ha.fresh id hle
  tells h' := by
    simp only [State.close, story_concat, Event.hold?, Option.some.injEq]
    rcases eq_or_ne h' h with rfl | hne
    · simpa using Tells.of_closed hc rfl
    · simpa [hne, hne.symm] using ha.others h' hne
  running id role hr := (ha.running id role hr).2.update (ha.running id role hr).1 _

theorem Around.drain (ha : Around h s) (ho : Open (story h s.log) hold) (hopen : hold.isOpen = true)
    {handled : Envelope ω} (hh : hold.handled = some handled) : Inv (s.drain h hold handled) := by
  unfold State.drain
  split
  · rename_i w ws hw
    refine ⟨ha.toNumbered.log rfl rfl rfl fun id hle => ?_, fun h' => ?_, fun id role hr => ?_⟩
    · have hne : id ≠ h := fun he => absurd ha.known (by omega)
      simpa [hne] using ha.fresh id hle
    · simp only [story_concat, Event.hold?, Option.some.injEq]
      rcases eq_or_ne h' h with rfl | hne
      · simpa using Tells.of_open (ho.pop hh hw h') hopen
      · simpa [hne, hne.symm] using ha.others h' hne
    · rcases eq_or_ne id w.id with rfl | hne
      · obtain rfl : Role.drained h = role := by simpa using hr
        exact ⟨_, Function.update_self .., hopen, by simp [hh], rfl⟩
      · have hr' : s.running id = some role := by simpa [hne] using hr
        exact (ha.running id role hr').2.update (ha.running id role hr').1 _
  · exact ha.close (ho.concluded hh ‹_› h)

theorem step_inv {a : Action μ ω} (hi : Inv s) (h : Steps s a t) : Inv t := by
  cases h with
  | context inherits held =>
    exact ⟨⟨hi.ids, hi.nodup, hi.unstamped, hi.fresh⟩, hi.tells, hi.running⟩
  | @held context bus envelope h hold hs ho he =>
    refine ⟨hi.toNumbered.dispatched rfl (by simp) rfl rfl fun id hle => ?_, fun h' => ?_,
      fun id role hr => (hi.running id role hr).fill hs _⟩
    · have hnone := hi.fresh id (Nat.le_of_succ_le hle)
      rcases eq_or_ne id h with rfl | hne
      · simp [hnone] at hs
      · simpa [State.holdBack, hne] using hnone
    · simp only [State.holdBack, story_concat, Event.hold?, Option.some.injEq]
      rcases eq_or_ne h' h with rfl | hne
      · simpa using Tells.of_open (((hi.tells h').opened hold hs ho).holdBack he context h' _) ho
      · simpa [hne, hne.symm] using hi.tells h'
  | nested context bus envelope he =>
    refine ⟨hi.toNumbered.dispatched rfl (fun _ => he) rfl rfl fun id hle =>
      hi.fresh id (Nat.le_of_succ_le hle), fun h' => ?_, fun id role hr => ?_⟩
    · simpa only [State.nest, story_concat, Event.hold?, reduceCtorEq, if_false] using hi.tells h'
    · rcases eq_or_ne id s.dispatches with rfl | hne
      · obtain rfl : Role.nested = role := by simpa [State.nest] using hr
        trivial
      · exact hi.running id role (by simpa [State.nest, hne] using hr)
  | current context bus envelope =>
    have hfresh := hi.fresh s.dispatches (Nat.le_refl _)
    refine ⟨hi.toNumbered.dispatched rfl (by simp) rfl rfl fun id hle => ?_, fun h' => ?_,
      fun id role hr => ?_⟩
    · have hne : id ≠ s.dispatches := fun he => Nat.not_succ_le_self id (he ▸ hle)
      simpa [State.becomeCurrent, hne] using hi.fresh id (Nat.le_of_succ_le hle)
    · simp only [State.becomeCurrent, story_concat, Event.hold?, Option.some.injEq]
      rcases eq_or_ne h' s.dispatches with rfl | hne
      · have hnil := (hi.tells s.dispatches).unopened hfresh
        simpa [hnil] using Tells.of_open (.begin ⟨s.dispatches, bus, envelope⟩ context _) rfl
      · simpa [hne, hne.symm] using hi.tells h'
    · rcases eq_or_ne id s.dispatches with rfl | hne
      · obtain rfl : Role.current = role := by simpa [State.becomeCurrent] using hr
        exact ⟨_, Function.update_self .., rfl, rfl⟩
      · have hruns := hi.running id role (by simpa [State.becomeCurrent, hne] using hr)
        refine hruns.update (fun hf => ?_) _
        -- no chain runs for a hold whose dispatch is still to come
        cases role with
        | nested => exact hf
        | current => exact hne hf
        | drained h' =>
          obtain ⟨hold, hs, -⟩ := hruns
          obtain rfl : h' = s.dispatches := hf
          simp [hfresh] at hs
  | nestedFinished id outcome =>
    refine ⟨hi.toNumbered.log rfl rfl rfl hi.fresh, fun h' => ?_, fun id' role hr => ?_⟩
    · simpa only [State.leave, story_concat, Event.hold?, reduceCtorEq, if_false] using hi.tells h'
    · rcases eq_or_ne id' id with rfl | hne
      · simp [State.leave] at hr
      · exact hi.running id' role (by simpa [State.leave, hne] using hr)
  | @currentRaised id error hold hr hs =>
    obtain ⟨hold', hs', ho, hn⟩ := hi.running id .current hr
    obtain rfl : hold' = hold := Option.some.inj (hs'.symm.trans hs)
    refine (hi.leave hr rfl hs (.error error)).close ?_
    have hopen := (hi.tells id).opened hold' hs ho
    simpa [State.leave, story_concat, Event.hold?] using hopen.raised hn id error
  | @currentReturned id handled hold hr hs =>
    obtain ⟨hold', hs', ho, hn⟩ := hi.running id .current hr
    obtain rfl : hold' = hold := Option.some.inj (hs'.symm.trans hs)
    have hopen := (hi.tells id).opened hold' hs ho
    refine (hi.leave hr rfl hs (.ok handled)).drain ?_ ?_ rfl
    · simpa [State.leave, story_concat, Event.hold?] using hopen.returned hn id handled
    · exact ho
  | @drainedFinished id outcome h hold handled hr hs hh =>
    obtain ⟨hold', hs', ho, -, -⟩ := hi.running id (.drained h) hr
    obtain rfl : hold' = hold := Option.some.inj (hs'.symm.trans hs)
    have hopen := (hi.tells h).opened hold' hs ho
    refine (hi.leave hr rfl hs outcome).drain ?_ ?_ hh
    · simpa [State.leave, story_concat, Event.hold?] using hopen.tried hh h id outcome
    · exact ho

theorem reachable_inv (h : (machine μ ω).Reachable s) : Inv s := by
  refine h.invariant ?_ fun s a t _ hi _ hs => step_inv hi (steps_of_step hs)
  rintro s rfl
  exact ⟨⟨by simp [idsIn], by simp [idsIn], by simp, by simp⟩, fun h => ⟨fun _ => rfl, by simp,
    by simp⟩, by simp⟩

/-- What the chain of a message dispatched from a hold raises has a text. -/
def Reporting (s : State μ ω) : Action μ ω → Prop
  | .finish id (.error error) => ∀ h, s.running id = some (.drained h) → error.Printable
  | _ => True

omit [PyObject ω] in
theorem failuresIn_story (h : Nat) (log : List (Event μ ω)) :
    ∀ e ∈ failuresIn (story h log), e ∈ failuresIn log := by
  have hsub : (story h log).Sublist log := List.filter_sublist
  exact fun e he => (hsub.filterMap Event.failure?).subset he

omit [PyObject ω] in
theorem failuresIn_close (hold : Held μ ω) (result : Except (Exc ω) (Envelope ω)) :
    failuresIn (s.close h hold result).log = failuresIn s.log := by
  simp [State.close, failuresIn_concat, Event.failure?]

theorem failuresIn_drain (hold : Held μ ω) (handled : Envelope ω) :
    failuresIn (s.drain h hold handled).log = failuresIn s.log := by
  unfold State.drain
  split
  · simp [failuresIn_concat, Event.failure?]
  · exact failuresIn_close _ _

theorem failures_printable (h : (machine μ ω).Reach Reporting s) :
    ∀ e ∈ failuresIn s.log, e.Printable := by
  refine h.invariant (P := fun s => ∀ e ∈ failuresIn s.log, e.Printable) ?_ ?_
  · rintro s rfl
    simp [failuresIn]
  · intro s a t _ hi hok hs
    cases steps_of_step hs with
    | context inherits held => exact hi
    | held => simpa [State.holdBack, failuresIn_concat, Event.failure?] using hi
    | nested => simpa [State.nest, failuresIn_concat, Event.failure?] using hi
    | current => simpa [State.becomeCurrent, failuresIn_concat, Event.failure?] using hi
    | nestedFinished id outcome => simpa [State.leave, failuresIn_concat, Event.failure?] using hi
    | currentRaised id error hr hs =>
      simpa [failuresIn_close, State.leave, failuresIn_concat, Event.failure?] using hi
    | currentReturned id handled hr hs =>
      simpa [failuresIn_drain, State.leave, failuresIn_concat, Event.failure?] using hi
    | @drainedFinished id outcome h hold handled hr hs hh =>
      rw [failuresIn_drain]
      cases outcome with
      | ok e => simpa [State.leave, failuresIn_concat, Event.failure?] using hi
      | error e =>
        intro e' he'
        simp only [State.leave, failuresIn_concat, Event.failure?, Option.toList_some,
          List.mem_append, List.mem_singleton] at he'
        rcases he' with he' | rfl
        · exact hi e' he'
        · exact hok h hr

/-- When every failure has a text, the dispatch comes out as it should. -/
theorem Computes.concludes {pre : List (Event μ ω)} {result : Except (Exc ω) (Envelope ω)}
    (hc : Computes pre result) (hp : ∀ e ∈ failuresIn pre, e.Printable) : Concludes pre result := by
  refine ⟨hc.1, fun handled hm => ?_⟩
  rw [hc.2 handled hm]
  refine ⟨fun hn => by simp [State.settled, hn], fun hne => ?_⟩
  obtain ⟨text, ht⟩ := Exc.delayedMessageHandlingError_of_printable handled hp
  exact ⟨text, by simp [State.settled, hne, ht]⟩

/-- A bus with one middleware after the first. -/
def oneMore : MessageBus Unit := ⟨[.dispatchAfterCurrentBus, .other ()], rfl⟩

/-- A message dispatched with the stamp. -/
def later (n : Int) : Envelope Int := ⟨n, [.shipped .dispatchAfterCurrentBus]⟩

/-- A message holds back two; it succeeds, and the first of the two raises `error`. -/
def twoHeldBack (error : Exc Int) : List (Action Unit Int) :=
  [.context none, .dispatch 0 oneMore ⟨10, []⟩, .dispatch 0 oneMore (later 11),
    .dispatch 0 oneMore (later 12), .finish 0 (.ok ⟨10, []⟩), .finish 1 (.error error),
    .finish 2 (.ok ⟨12, []⟩)]

end XtrMessenger.DispatchAfterCurrentBus
