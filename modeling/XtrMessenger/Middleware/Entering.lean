import XtrMessenger.Middleware.FollowUps

/-! Which message's chain a step enters, and for what: each message enters its chain once. -/
namespace XtrMessenger.DispatchAfterCurrentBus
open Foundation
variable {μ ω : Type}

/-- A message that enters the rest of its chain: its number, what for, and the envelope. -/
abbrev Entrance (ω : Type) := Nat × Role × Envelope ω

/-- What an event says of a chain that is entered. -/
def Event.entrance? : Event μ ω → Option (Entrance ω)
  | .dispatched _ _ (.held _ _) => none
  | .dispatched d _ .nested =>
    some (d.id, .nested, d.envelope.withoutStamps (.shipped .dispatchAfterCurrentBus))
  | .dispatched d _ .current =>
    some (d.id, .current, d.envelope.withoutStamps (.shipped .dispatchAfterCurrentBus))
  | .drained h waiting => some (waiting.id, .drained h, waiting.envelope)
  | .finished _ _ _ => none
  | .ended _ _ => none

/-- What the last event says was entered. -/
def lastEntrance (log : List (Event μ ω)) : Option (Entrance ω) := log.getLast?.bind Event.entrance?

/-- The message entered its chain for this. -/
def Entered (log : List (Event μ ω)) (id : Nat) (role : Role) : Prop :=
  ∃ envelope, (id, role, envelope) ∈ log.filterMap Event.entrance?

@[simp] theorem lastEntrance_concat (log : List (Event μ ω)) (x : Event μ ω) :
    lastEntrance (log ++ [x]) = x.entrance? := by simp [lastEntrance]

theorem entered_concat {log : List (Event μ ω)} {x : Event μ ω} {id : Nat} {role : Role} :
    Entered (log ++ [x]) id role ↔
      Entered log id role ∨ ∃ envelope, x.entrance? = some (id, role, envelope) := by
  simp [Entered, exists_or, eq_comm]

/-- A message that enters its chain from a hold was held back there. -/
theorem held_of_passed [PyObject ω] {s : State μ ω} (hi : Inv s) {h : Nat} {rest : Rest μ ω}
    (hp : rest ∈ passedIn (story h s.log)) : rest ∈ heldIn (story h s.log) :=
  (hi.tells h).settles.order.subset hp

theorem mem_heldIn {log : List (Event μ ω)} {h : Nat} {rest : Rest μ ω}
    (hm : rest ∈ heldIn (story h log)) :
    ∃ d c n, .dispatched d c (.held h n) ∈ log ∧ d.id = rest.1 := by
  obtain ⟨x, hx, hrest⟩ := List.mem_filterMap.mp hm
  obtain ⟨hlog, hhold⟩ := List.mem_filter.mp hx
  cases x with
  | dispatched d c fate =>
    cases fate with
    | held h' n =>
      obtain rfl : h' = h := by simpa [Event.hold?] using hhold
      obtain rfl : d.rest = rest := Option.some.inj hrest
      exact ⟨d, c, n, hlog, rfl⟩
    | nested => cases hrest
    | current => cases hrest
  | drained n w => cases hrest
  | finished role id outcome => cases hrest
  | ended n result => cases hrest

theorem mem_passedIn {log : List (Event μ ω)} {h : Nat} {w : Waiting μ ω}
    (hm : .drained h w ∈ log) : w.rest ∈ passedIn (story h log) :=
  List.mem_filterMap.mpr ⟨_, List.mem_filter.mpr ⟨hm, by simp [Event.hold?]⟩, rfl⟩

/-- How a message that entered its chain was dispatched. -/
theorem Entered.dispatched [PyObject ω] {s : State μ ω} (hi : Inv s) {id : Nat} {role : Role}
    (h : Entered s.log id role) : ∃ d c fate, .dispatched d c fate ∈ s.log ∧ d.id = id ∧
      ∀ n m, fate = .held n m → role = .drained n := by
  obtain ⟨envelope, hm⟩ := h
  obtain ⟨x, hx, hent⟩ := List.mem_filterMap.mp hm
  cases x with
  | dispatched d c fate =>
    have hid : fate ≠ .nested → fate ≠ .current → False := by
      intro hn hc
      cases fate with
      | held n m => cases hent
      | nested => exact hn rfl
      | current => exact hc rfl
    refine ⟨d, c, fate, hx, ?_, fun n m hf => (hid (by simp [hf]) (by simp [hf])).elim⟩
    cases fate with
    | held n m => cases hent
    | nested => simp_all [Event.entrance?]
    | current => simp_all [Event.entrance?]
  | drained n w =>
    obtain ⟨d, c, m, hd, hid⟩ := mem_heldIn (held_of_passed hi (mem_passedIn hx))
    have hrole : w.id = id ∧ Role.drained n = role := by simp_all [Event.entrance?]
    exact ⟨d, c, _, hd, hid.trans hrole.1, fun n' m' hf => by simp_all⟩
  | finished role id outcome => cases hent
  | ended n result => cases hent

/-- What maps to each value no more than once maps to one by one element. -/
theorem eq_of_nodup_filterMap {α β : Type} {f : α → Option β} {l : List α}
    (hn : (l.filterMap f).Nodup) {x y : α} {b : β} (hx : x ∈ l) (hy : y ∈ l) (hfx : f x = some b)
    (hfy : f y = some b) : x = y := by
  induction l with
  | nil => cases hx
  | cons a l ih =>
    have hfirst : ∀ z ∈ l, f z = some b → f a ≠ some b := by
      intro z hz hfz hfa
      rw [List.filterMap_cons_some hfa, List.nodup_cons] at hn
      exact hn.1 (List.mem_filterMap.mpr ⟨z, hz, hfz⟩)
    have hrest : (l.filterMap f).Nodup :=
      ((List.sublist_cons_self a l).filterMap f).nodup hn
    rcases List.mem_cons.mp hx with rfl | hxl
    · rcases List.mem_cons.mp hy with rfl | hyl
      · rfl
      · exact absurd hfx (hfirst y hyl hfy)
    · rcases List.mem_cons.mp hy with rfl | hyl
      · exact absurd hfy (hfirst x hxl hfx)
      · exact ih hrest hxl hyl

section Steps
variable [PyObject ω] {s t : State μ ω}

/-- A message that waits has not entered its chain. -/
theorem not_entered_of_waiting (hi : Inv s) {h : Nat} {hold : Held μ ω}
    (ho : Open (story h s.log) hold) {w : Waiting μ ω} {ws : List (Waiting μ ω)}
    (hw : hold.envelopes = w :: ws) (role : Role) : ¬Entered s.log w.id role := by
  rintro hentered
  have hheld : w.rest ∈ heldIn (story h s.log) := by
    rw [ho.balance, hw]
    simp
  obtain ⟨d, c, n, hd, hid⟩ := mem_heldIn hheld
  obtain ⟨d', c', fate, hd', hid', hrole⟩ := hentered.dispatched hi
  have hsame : (Event.dispatched d c (.held h n) : Event μ ω) = .dispatched d' c' fate :=
    eq_of_nodup_filterMap hi.nodup hd hd' (congrArg some hid) (congrArg some hid')
  obtain ⟨rfl, rfl, rfl⟩ : d = d' ∧ c = c' ∧ .held h n = fate := by simpa using hsame
  obtain rfl := hrole h n rfl
  -- it was dispatched from this hold, where it still waits
  obtain ⟨envelope, hm⟩ := hentered
  obtain ⟨x, hx, hent⟩ := List.mem_filterMap.mp hm
  cases x with
  | dispatched d c fate => cases fate <;> simp [Event.entrance?] at hent
  | drained n' w' =>
    obtain ⟨hid'', rfl⟩ : w'.id = w.id ∧ n' = h := by simp_all [Event.entrance?]
    refine ho.notMem_passedIds (nodup_heldIn hi.nodup n') hw ?_
    exact hid'' ▸ List.mem_map_of_mem (mem_passedIn hx)
  | finished role id outcome => cases hent
  | ended n result => cases hent

/-- What a step leaves running, and what it enters: a message that has not entered before. -/
inductive Enters (s t : State μ ω) (left : Nat → Option Role) : Option (Entrance ω) → Prop
  | none (running : t.running = left)
    (entered : ∀ id role, Entered t.log id role ↔ Entered s.log id role) : Enters s t left none
  | some (id : Nat) (role : Role) (envelope : Envelope ω)
    (running : t.running = Function.update left id (some role))
    (entered : ∀ id' role', Entered t.log id' role' ↔
      Entered s.log id' role' ∨ id' = id ∧ role' = role)
    (new : ∀ role', ¬Entered s.log id role') : Enters s t left (some (id, role, envelope))

omit [PyObject ω] in
/-- A step that logs an event that enters nothing. -/
theorem Enters.quiet {left : Nat → Option Role} {x : Event μ ω} (hx : x.entrance? = Option.none)
    (hl : t.log = s.log ++ [x]) (hr : t.running = left) : Enters s t left (lastEntrance t.log) := by
  rw [hl, lastEntrance_concat, hx]
  exact .none hr fun id role => by simp [hl, entered_concat, hx]

omit [PyObject ω] in
theorem Enters.last {u : State μ ω} {left : Nat → Option Role} {x : Event μ ω} {id : Nat}
    {role : Role} {envelope : Envelope ω} (hx : x.entrance? = Option.some (id, role, envelope))
    (hu : ∀ id role, Entered u.log id role ↔ Entered s.log id role) (hl : t.log = u.log ++ [x])
    (hr : t.running = Function.update left id (Option.some role))
    (hnew : ∀ role', ¬Entered s.log id role') : Enters s t left (lastEntrance t.log) := by
  rw [hl, lastEntrance_concat, hx]
  refine .some id role envelope hr (fun id' role' => ?_) hnew
  rw [hl, entered_concat, hu, hx]
  simp [eq_comm]

/-- A message that is dispatched is held back, or enters its chain. -/
theorem dispatch_enters (hi : Inv s) {context : Nat} {bus : MessageBus μ} {envelope : Envelope ω}
    (h : Steps s (.dispatch context bus envelope) t) :
    Enters s t s.running (lastEntrance t.log) ∧ ∀ id role e,
      lastEntrance t.log = Option.some (id, role, e) → role = .nested ∨ role = .current ∧
        id = s.dispatches := by
  have hnew : ∀ role, ¬Entered s.log s.dispatches role := by
    intro role hentered
    obtain ⟨d, c, fate, hd, hid, -⟩ := hentered.dispatched hi
    have hlt := hi.ids d.id (List.mem_filterMap.mpr ⟨_, hd, rfl⟩)
    omega
  cases h with
  | held _ _ _ hs ho he =>
    refine ⟨Enters.quiet rfl rfl rfl, fun id role e hlast => ?_⟩
    simp [State.holdBack, Event.entrance?] at hlast
  | nested _ _ _ he =>
    refine ⟨Enters.last rfl (fun _ _ => Iff.rfl) rfl rfl hnew, fun id role e hlast => ?_⟩
    simp only [State.nest, lastEntrance_concat, Event.entrance?, Option.some.injEq,
      Prod.mk.injEq] at hlast
    exact .inl hlast.2.1.symm
  | current =>
    refine ⟨Enters.last rfl (fun _ _ => Iff.rfl) rfl rfl hnew, fun id role e hlast => ?_⟩
    simp only [State.becomeCurrent, lastEntrance_concat, Event.entrance?, Option.some.injEq,
      Prod.mk.injEq] at hlast
    exact .inr ⟨hlast.2.1.symm, hlast.1.symm⟩

omit [PyObject ω] in
theorem entered_leave (s : State μ ω) (role : Role) (id : Nat)
    (outcome : Except (Exc ω) (Envelope ω)) (id' : Nat) (role' : Role) :
    Entered (s.leave role id outcome).log id' role' ↔ Entered s.log id' role' := by
  rw [State.leave, entered_concat]
  simp [Event.entrance?]

omit [PyObject ω] in
theorem entered_close (s : State μ ω) (h : Nat) (hold : Held μ ω)
    (result : Except (Exc ω) (Envelope ω)) (id : Nat) (role : Role) :
    Entered (s.close h hold result).log id role ↔ Entered s.log id role := by
  rw [State.close, entered_concat]
  simp [Event.entrance?]

/-- What is said of the chain that a hold enters next. -/
def NextOf (h : Nat) (entrance : Option (Entrance ω)) : Prop :=
  ∀ id role e, entrance = some (id, role, e) → role = .drained h

theorem drain_enters (hi : Inv s) {h id : Nat} {role : Role} {hold hold' : Held μ ω}
    {outcome : Except (Exc ω) (Envelope ω)} {handled : Envelope ω}
    (ho : Open (story h s.log) hold) (ht : t = (s.leave role id outcome).drain h hold' handled)
    (he : hold'.envelopes = hold.envelopes) :
    Enters s t (Function.update s.running id Option.none) (lastEntrance t.log) ∧
      NextOf h (lastEntrance t.log) := by
  have hleft := entered_leave s role id outcome
  unfold State.drain at ht
  cases hw : hold'.envelopes with
  | nil =>
    rw [hw] at ht
    subst ht
    have hnone : lastEntrance ((s.leave role id outcome).close h hold'
        (State.settled handled hold'.errors)).log = none := lastEntrance_concat _ _
    refine ⟨?_, fun id role e hlast => ?_⟩
    · rw [hnone]
      exact .none rfl fun id' role' => (entered_close _ h hold' _ id' role').trans (hleft id' role')
    · cases hnone.symm.trans hlast
  | cons w ws =>
    rw [hw] at ht
    subst ht
    refine ⟨Enters.last rfl hleft rfl rfl (not_entered_of_waiting hi ho (he ▸ hw)), ?_⟩
    intro id' role' e hlast
    simp only [lastEntrance_concat, Event.entrance?, Option.some.injEq, Prod.mk.injEq] at hlast
    exact hlast.2.1.symm

/-- When a chain ends, it is left; the next of the hold it was entered for enters its own. -/
theorem finish_enters (hi : Inv s) {id : Nat} {outcome : Except (Exc ω) (Envelope ω)}
    (hs : step s (.finish id outcome) = some t) : ∃ role, s.running id = some role ∧
      Enters s t (Function.update s.running id Option.none) (lastEntrance t.log) ∧
      ∀ id' role' e, lastEntrance t.log = Option.some (id', role', e) →
        ∃ h, role' = .drained h ∧ role.IsFor id h := by
  simp only [step] at hs
  cases hr : s.running id with
  | none => simp [hr] at hs
  | some role =>
    refine ⟨role, rfl, ?_⟩
    rw [hr] at hs
    cases role with
    | nested =>
      obtain rfl := Option.some.inj hs
      refine ⟨Enters.quiet rfl rfl rfl, fun id' role' e hlast => ?_⟩
      simp [State.leave, Event.entrance?] at hlast
    | current =>
      obtain ⟨hold, hopen, hn, -⟩ := hi.running id .current hr
      have hstory := (hi.tells id).opened hold hopen hn
      obtain ⟨hold', hs', ht⟩ := Option.map_eq_some_iff.mp hs
      obtain rfl : hold = hold' := Option.some.inj (hopen.symm.trans hs')
      cases outcome with
      | error error =>
        subst ht
        have hnone : lastEntrance ((s.leave .current id (.error error)).close id hold
            (.error error)).log = none := lastEntrance_concat _ _
        refine ⟨?_, fun id' role' e hlast => ?_⟩
        · rw [hnone]
          exact .none rfl fun id' role' =>
            (entered_close _ id hold _ id' role').trans (entered_leave s _ _ _ id' role')
        · cases hnone.symm.trans hlast
      | ok handled =>
        have hdrain : t = (s.leave .current id (.ok handled)).drain id
          { hold with handled := some handled } handled := ht.symm
        obtain ⟨henters, hnext⟩ := drain_enters hi hstory hdrain rfl
        exact ⟨henters, fun id' role' e hlast => ⟨id, hnext id' role' e hlast, rfl⟩⟩
    | drained h =>
      obtain ⟨hold, hopen, hn, -⟩ := hi.running id (.drained h) hr
      have hstory := (hi.tells h).opened hold hopen hn
      obtain ⟨hold', hs', ht⟩ := Option.bind_eq_some_iff.mp hs
      obtain rfl : hold = hold' := Option.some.inj (hopen.symm.trans hs')
      obtain ⟨handled, -, ht⟩ := Option.map_eq_some_iff.mp ht
      obtain ⟨henters, hnext⟩ := drain_enters hi hstory ht.symm rfl
      exact ⟨henters, fun id' role' e hlast => ⟨h, hnext id' role' e hlast, rfl⟩⟩

omit [PyObject ω] in
@[simp] theorem contexts_leave (s : State μ ω) (role : Role) (id : Nat)
    (outcome : Except (Exc ω) (Envelope ω)) : (s.leave role id outcome).contexts = s.contexts := rfl

omit [PyObject ω] in
@[simp] theorem contexts_close (s : State μ ω) (h : Nat) (hold : Held μ ω)
    (result : Except (Exc ω) (Envelope ω)) : (s.close h hold result).contexts = s.contexts := rfl

@[simp] theorem contexts_drain (s : State μ ω) (h : Nat) (hold : Held μ ω) (handled : Envelope ω) :
    (s.drain h hold handled).contexts = s.contexts := by
  unfold State.drain
  split <;> rfl

theorem contexts_of_steps {a : Action μ ω} (h : Steps s a t)
    (ha : ∀ inherits, a ≠ .context inherits) : t.contexts = s.contexts := by
  cases h with
  | context inherits held => exact absurd rfl (ha inherits)
  | held => rfl
  | nested => rfl
  | current => rfl
  | nestedFinished => rfl
  | currentRaised => simp
  | currentReturned => simp
  | drainedFinished => simp

end Steps

end XtrMessenger.DispatchAfterCurrentBus
