import XtrMessenger.Middleware.Draining

/-! What was held back while a message was handled, and whether that message's own handling
raised. A current message that raises takes its follow-ups with it; one that is itself
dispatched from a hold does not. -/
namespace XtrMessenger.DispatchAfterCurrentBus
open Foundation
variable {μ ω : Type}

/-- The current message, or one dispatched from the hold, whose own handling raised. -/
def Event.failed? : Event μ ω → Option Nat
  | .finished .nested _ _ => none
  | .finished _ id (.error _) => some id
  | _ => none

/-- The messages whose own handling raised. -/
def failedIn (story : List (Event μ ω)) : List Nat := story.filterMap Event.failed?

/-- A message goes out from a hold only if the one it was held back by did not raise. -/
def AfterSuccess (pre : List (Event μ ω)) : Event μ ω → Prop
  | .drained _ waiting => ∀ d c n m, .dispatched d c (.held n m) ∈ pre → d.id = waiting.id →
      m ∉ failedIn pre
  | _ => True

/-- No follow-up of a message that raised is dispatched. -/
def DropsFollowUps (log : List (Event μ ω)) : Prop := ∀ h, Justified AfterSuccess (story h log)

/-- A message dispatched from a hold raises only when nothing was held back while it was
handled. -/
def Alone (s : State μ ω) : Action μ ω → Prop
  | .finish id (.error _) => ∀ h, s.running id = some (.drained h) →
      ∀ d c n, .dispatched d c (.held n id) ∉ story h s.log
  | _ => True

theorem failedIn_concat (log : List (Event μ ω)) (x : Event μ ω) :
    failedIn (log ++ [x]) = failedIn log ++ x.failed?.toList := filterMap_concat _ _ _

/-- The numbers of the messages dispatched from the hold. -/
def passedIds (story : List (Event μ ω)) : List Nat := (passedIn story).map fun rest => rest.1

/-- No message that held something back has raised, nor has any that is still to go out. -/
structure Clean (story : List (Event μ ω)) : Prop where
  follows : Justified AfterSuccess story
  held : ∀ d c n m, .dispatched d c (.held n m) ∈ story → m ∉ failedIn story
  failed : ∀ m ∈ failedIn story, m ∈ passedIds story

/-- The message in hand has not raised; it went out from the hold unless it is the current. -/
structure InHand (story : List (Event μ ω)) (hold : Held μ ω) : Prop where
  unfailed : hold.handling ∉ failedIn story
  passed : hold.handled.isSome → hold.handling ∈ passedIds story

/-- What the story of a hold is, by what has become of it. -/
structure Kept (story : List (Event μ ω)) (hold : Option (Held μ ω)) : Prop where
  follows : Justified AfterSuccess story
  clean : ∀ held, hold = some held → held.isOpen = true → Clean story ∧ InHand story held

section Stages
variable {story : List (Event μ ω)} {hold : Held μ ω} {x : Event μ ω}

/-- An event that holds nothing back, dispatches nothing and fails nothing. -/
def Event.Still (x : Event μ ω) : Prop :=
  x.heldRest? = none ∧ x.passedRest? = none ∧ x.failed? = none

theorem Event.Still.after (hx : x.Still) (pre : List (Event μ ω)) : AfterSuccess pre x := by
  cases x with
  | drained n w => simp [Event.Still, Event.passedRest?] at hx
  | _ => trivial

theorem Event.Still.ne_held (hx : x.Still) (d : Dispatch μ ω) (c n m : Nat) :
    .dispatched d c (.held n m) ≠ x := by
  rintro rfl
  simp [Event.Still, Event.heldRest?] at hx

theorem passedIds_concat_of_none (hx : x.passedRest? = none) :
    passedIds (story ++ [x]) = passedIds story := by
  simp [passedIds, passedIn_concat, hx]

theorem failedIn_concat_of_none (hx : x.failed? = none) :
    failedIn (story ++ [x]) = failedIn story := by
  simp [failedIn_concat, hx]

theorem Clean.still (h : Clean story) (hx : x.Still) : Clean (story ++ [x]) where
  follows := justified_concat.mpr ⟨h.follows, hx.after _⟩
  held d c n m hm := by
    rw [failedIn_concat_of_none hx.2.2]
    rcases List.mem_append.mp hm with hm | hm
    · exact h.held d c n m hm
    · exact absurd (List.mem_singleton.mp hm) (hx.ne_held d c n m)
  failed := by
    rw [failedIn_concat_of_none hx.2.2, passedIds_concat_of_none hx.2.1]
    exact h.failed

/-- One more message is held back, by the one in hand. -/
theorem Clean.holdBack (h : Clean story) (hh : InHand story hold) (d : Dispatch μ ω) (c n : Nat) :
    Clean (story ++ [.dispatched d c (.held n hold.handling)]) where
  follows := justified_concat.mpr ⟨h.follows, trivial⟩
  held d' c' n' m hm := by
    rw [failedIn_concat_of_none rfl]
    rcases List.mem_append.mp hm with hm | hm
    · exact h.held d' c' n' m hm
    · have heq := List.mem_singleton.mp hm
      simp only [Event.dispatched.injEq, Fate.held.injEq] at heq
      exact heq.2.2.2 ▸ hh.unfailed
  failed := by
    rw [failedIn_concat_of_none rfl, passedIds_concat_of_none rfl]
    exact h.failed

theorem InHand.holdBack (h : InHand story hold) (d : Dispatch μ ω) (c n m : Nat)
    (envelopes : List (Waiting μ ω)) :
    InHand (story ++ [.dispatched d c (.held n m)]) { hold with envelopes } where
  unfailed := by
    rw [failedIn_concat_of_none rfl]
    exact h.unfailed
  passed hs := by
    rw [passedIds_concat_of_none rfl]
    exact h.passed hs

theorem Clean.pop (h : Clean story) {w : Waiting μ ω} (hw : w.id ∉ passedIds story) (n : Nat)
    (envelopes : List (Waiting μ ω)) : Clean (story ++ [.drained n w]) ∧
      InHand (story ++ [.drained n w]) { hold with envelopes, handling := w.id } := by
  have hids : passedIds (story ++ [.drained n w]) = passedIds story ++ [w.id] := by
    simp [passedIds, passedIn_concat, Event.passedRest?, Waiting.rest]
  refine ⟨⟨justified_concat.mpr ⟨h.follows, fun d c n' m hm _ => h.held d c n' m hm⟩, ?_, ?_⟩,
    ⟨?_, ?_⟩⟩
  · intro d c n' m hm
    rw [failedIn_concat_of_none rfl]
    exact h.held d c n' m (by simpa using hm)
  · intro m hm
    rw [failedIn_concat_of_none rfl] at hm
    exact hids ▸ List.mem_append_left _ (h.failed m hm)
  · rw [failedIn_concat_of_none rfl]
    exact fun hm => hw (h.failed _ hm)
  · exact fun _ => hids ▸ List.mem_append_right _ (List.mem_singleton.mpr rfl)

/-- The message in hand comes out, failing only when it held nothing back. -/
theorem Clean.tried (h : Clean story) {n id : Nat} {outcome : Except (Exc ω) (Envelope ω)}
    (hid : id ∈ passedIds story) (halone : ∀ e, outcome = .error e →
      ∀ d c n, .dispatched d c (.held n id) ∉ story) :
    Clean (story ++ [.finished (.drained n) id outcome]) := by
  cases outcome with
  | ok e => exact h.still ⟨rfl, rfl, rfl⟩
  | error e =>
    have hf : failedIn (story ++ [.finished (.drained n) id (.error e)]) = failedIn story ++ [id] :=
      failedIn_concat _ _
    refine ⟨justified_concat.mpr ⟨h.follows, trivial⟩, fun d c n' m hm => ?_, fun m hm => ?_⟩
    · have hm' : .dispatched d c (.held n' m) ∈ story := by simpa using hm
      rw [hf, List.mem_append, List.mem_singleton]
      rintro (hm | rfl)
      · exact h.held d c n' m hm' hm
      · exact halone e rfl d c n' hm'
    · rw [passedIds_concat_of_none rfl]
      rw [hf, List.mem_append, List.mem_singleton] at hm
      rcases hm with hm | rfl
      · exact h.failed m hm
      · exact hid

theorem Kept.closed (h : Justified AfterSuccess story) (hc : hold.isOpen = false) :
    Kept story (some hold) where
  follows := h
  clean _ he ho := by simp [← Option.some.inj he, hc] at ho

theorem Kept.opened (hc : Clean story) (hh : InHand story hold) : Kept story (some hold) where
  follows := hc.follows
  clean _ he _ := Option.some.inj he ▸ ⟨hc, hh⟩

theorem nodup_heldIn {log : List (Event μ ω)} (hn : (idsIn log).Nodup) (h : Nat) :
    ((heldIn (DispatchAfterCurrentBus.story h log)).map fun rest => rest.1).Nodup := by
  have hsub : (DispatchAfterCurrentBus.story h log).Sublist log := List.filter_sublist
  have hheld : (heldIn log).map (fun rest => rest.1) =
      log.filterMap fun x => x.heldRest?.map fun rest => rest.1 := List.map_filterMap
  refine (((hsub.filterMap Event.heldRest?).map _).trans ?_).nodup hn
  rw [show log.filterMap Event.heldRest? = heldIn log from rfl, hheld]
  refine filterMap_sublist (fun x b hx => ?_) log
  cases x with
  | dispatched d c fate => cases fate <;> simp_all [Event.heldRest?, Event.id?, Dispatch.rest]
  | _ => simp [Event.heldRest?] at hx

end Stages

variable [PyObject ω] {s t : State μ ω} {h : Nat} {hold : Held μ ω}

theorem Open.notMem_passedIds {story : List (Event μ ω)} (ho : Open story hold)
    (hn : ((heldIn story).map fun rest => rest.1).Nodup) {w : Waiting μ ω}
    {ws : List (Waiting μ ω)} (hw : hold.envelopes = w :: ws) : w.id ∉ passedIds story := by
  rw [ho.balance, hw, List.map_append, List.nodup_append] at hn
  exact fun hm => hn.2.2 _ hm w.id (by simp [Waiting.rest]) rfl

omit [PyObject ω] in
theorem kept_close (hothers : ∀ h', h' ≠ h → Kept (story h' s.log) (s.holds h'))
    (hf : Justified AfterSuccess (story h s.log)) (result : Except (Exc ω) (Envelope ω)) :
    ∀ h', Kept (story h' (s.close h hold result).log) ((s.close h hold result).holds h') := by
  intro h'
  simp only [State.close, story_concat, Event.hold?, Option.some.injEq]
  rcases eq_or_ne h' h with rfl | hne
  · have hended : Justified AfterSuccess (story h' s.log ++ [.ended h' result]) :=
      justified_concat.mpr ⟨hf, trivial⟩
    have hkept : Kept (story h' s.log ++ [.ended h' result])
        (some { hold with envelopes := [], isOpen := false }) := Kept.closed hended rfl
    simpa using hkept
  · simpa [hne, hne.symm] using hothers h' hne

theorem kept_drain (hothers : ∀ h', h' ≠ h → Kept (story h' s.log) (s.holds h'))
    (hc : Clean (story h s.log)) (ho : Open (story h s.log) hold) (hn : (idsIn s.log).Nodup)
    (handled : Envelope ω) : ∀ h', Kept (story h' (s.drain h hold handled).log)
      ((s.drain h hold handled).holds h') := by
  unfold State.drain
  split
  · rename_i w ws hw
    intro h'
    simp only [story_concat, Event.hold?, Option.some.injEq]
    rcases eq_or_ne h' h with rfl | hne
    · have hnew : w.id ∉ passedIds (story h' s.log) :=
        ho.notMem_passedIds (nodup_heldIn hn h') hw
      have hpop : Clean (story h' s.log ++ [.drained h' w]) ∧
          InHand (story h' s.log ++ [.drained h' w])
            { hold with envelopes := ws, handling := w.id } := hc.pop hnew h' ws
      simpa using Kept.opened hpop.1 hpop.2
    · simpa [hne, hne.symm] using hothers h' hne
  · exact kept_close hothers hc.follows _

theorem step_kept {a : Action μ ω} (hi : Inv s)
    (hk : ∀ h, Kept (story h s.log) (s.holds h)) (ha : Alone s a) (hs : Steps s a t) :
    ∀ h, Kept (story h t.log) (t.holds h) := by
  -- what a chain that ends leaves of the other holds
  have hleave : ∀ h role id outcome, role.IsFor id h → ∀ h', h' ≠ h →
      Kept (story h' (s.leave role id outcome).log) ((s.leave role id outcome).holds h') := by
    intro h role id outcome hf h' hne
    have hx : (Event.finished role id outcome : Event μ ω).hold? ≠ some h' := by
      cases role with
      | nested => exact hf.elim
      | current => simpa [Event.hold?, show id = h from hf] using hne.symm
      | drained h₁ => simpa [Event.hold?, show h₁ = h from hf] using hne.symm
    simpa only [State.leave, story_concat, if_neg hx] using hk h'
  cases hs with
  | context inherits held => exact hk
  | @held context bus envelope h hold hs ho he =>
    intro h'
    simp only [State.holdBack, story_concat, Event.hold?, Option.some.injEq]
    rcases eq_or_ne h' h with rfl | hne
    · obtain ⟨hc, hh⟩ := (hk h').clean hold hs ho
      simpa using Kept.opened (hc.holdBack hh ⟨s.dispatches, bus, envelope⟩ context h')
        (hh.holdBack ⟨s.dispatches, bus, envelope⟩ context h' hold.handling _)
    · simpa [hne, hne.symm] using hk h'
  | nested context bus envelope he =>
    intro h'
    simpa only [State.nest, story_concat, Event.hold?, reduceCtorEq, if_false] using hk h'
  | current context bus envelope =>
    intro h'
    simp only [State.becomeCurrent, story_concat, Event.hold?, Option.some.injEq]
    rcases eq_or_ne h' s.dispatches with rfl | hne
    · have hnil := (hi.tells s.dispatches).unopened (hi.fresh s.dispatches (Nat.le_refl _))
      have hclean : Clean ([.dispatched ⟨s.dispatches, bus, envelope⟩ context .current] :
          List (Event μ ω)) := ⟨justified_concat.mpr ⟨.nil, trivial⟩, by simp, by simp [failedIn,
            Event.failed?]⟩
      simpa [hnil] using Kept.opened hclean ⟨by simp [failedIn, Event.failed?], by simp⟩
    · simpa [hne, hne.symm] using hk h'
  | nestedFinished id outcome =>
    intro h'
    simpa only [State.leave, story_concat, Event.hold?, reduceCtorEq, if_false] using hk h'
  | @currentRaised id error hold hr hs =>
    obtain ⟨hold', hs', ho, -⟩ := hi.running id .current hr
    obtain rfl : hold' = hold := Option.some.inj (hs'.symm.trans hs)
    refine kept_close (hleave id .current id _ rfl) ?_ _
    have hraised : Justified AfterSuccess
        (story id s.log ++ [.finished .current id (.error error)]) :=
      justified_concat.mpr ⟨(hk id).follows, trivial⟩
    simpa [State.leave, story_concat, Event.hold?] using hraised
  | @currentReturned id handled hold hr hs =>
    obtain ⟨hold', hs', ho, hn⟩ := hi.running id .current hr
    obtain rfl : hold' = hold := Option.some.inj (hs'.symm.trans hs)
    have hopen := (hi.tells id).opened hold' hs ho
    refine kept_drain (hleave id .current id _ rfl) ?_ ?_ (hi.leave hr rfl hs _).nodup handled
    · have hclean := ((hk id).clean hold' hs ho).1
      have hstill := hclean.still (x := .finished .current id (.ok handled)) ⟨rfl, rfl, rfl⟩
      simpa [State.leave, story_concat, Event.hold?] using hstill
    · simpa [State.leave, story_concat, Event.hold?] using hopen.returned hn id handled
  | @drainedFinished id outcome h hold handled hr hs hh =>
    obtain ⟨hold', hs', ho, -, hid⟩ := hi.running id (.drained h) hr
    obtain rfl : hold' = hold := Option.some.inj (hs'.symm.trans hs)
    have hopen := (hi.tells h).opened hold' hs ho
    obtain ⟨hc, hhand⟩ := (hk h).clean hold' hs ho
    have hnodup := (hi.leave hr rfl hs outcome).nodup
    refine kept_drain (hleave h (.drained h) id outcome rfl) ?_ ?_ hnodup handled
    · have hpassed : id ∈ passedIds (story h s.log) := hid ▸ hhand.passed (by simp [hh])
      have halone : ∀ e, outcome = .error e →
          ∀ d c n, .dispatched d c (.held n id) ∉ story h s.log := by
        rintro e rfl
        exact ha h hr
      simpa [State.leave, story_concat, Event.hold?] using hc.tried hpassed halone
    · simpa [State.leave, story_concat, Event.hold?] using hopen.tried hh h id outcome

/-- A current message holds back one, which holds back another, and then ends as `outcome`
says. -/
def heldBackInTurn (outcome : Except (Exc Int) (Envelope Int)) : List (Action Unit Int) :=
  [.context none, .dispatch 0 oneMore ⟨10, []⟩, .dispatch 0 oneMore (later 11),
    .finish 0 (.ok ⟨10, []⟩), .dispatch 0 oneMore (later 12), .finish 1 outcome]

end XtrMessenger.DispatchAfterCurrentBus
