import XtrMessenger.Receiver.Correlation

/-! The generator a session of `get` is: what running it on to its next `yield` comes to, and what
may happen to it besides. -/
namespace XtrMessenger.ChainedReceiver
open Foundation
variable {n : Nat} {ω : Type}

/-- A generator suspended at a `yield`. -/
def Phase.AtYield : Phase n ω → Prop
  | .draining => True
  | .yielding _ => True
  | _ => False

instance (phase : Phase n ω) : Decidable phase.AtYield := by
  unfold Phase.AtYield
  split <;> infer_instance

def Event.handed? : Event n ω → Option (Envelope ω)
  | .yielded _ _ _ envelope => some envelope
  | _ => none

/-- The envelopes the sessions handed out, in order. -/
def handedOut (log : List (Event n ω)) : List (Envelope ω) := log.filterMap Event.handed?

def Event.settlement? : Event n ω → Option (Settlement × Envelope ω)
  | .settled k envelope _ => some (k, envelope)
  | _ => none

/-- The settlements asked for, in order. -/
def settlementsAsked (log : List (Event n ω)) : List (Settlement × Envelope ω) :=
  log.filterMap Event.settlement?

def Event.ending? : Event n ω → Option (Ending ω)
  | .ended ending => some ending
  | _ => none

variable {chained : ChainedReceiver n} {s t : State n ω}

/-- Events that neither hand a message out nor settle one. -/
def Event.Aside : Event n ω → Prop
  | .yielded _ _ _ _ => False
  | .settled _ _ _ => False
  | _ => True

def Quiet (s t : State n ω) : Prop :=
  ∃ xs, t.log = s.log ++ xs ∧ ∀ x ∈ xs, x.Aside

/-- What running the generator on comes to: a message, or a wait. -/
inductive Turned (s t : State n ω) : Prop
  | yielded (u : State n ω) (hu : Quiet s u) (p : Fin n) (ticket : Int)
    (collected e : Envelope ω) (hlog : t.log = u.log ++ [.yielded p ticket collected e])
    (hph : t.phase.AtYield)
  | waits (h : Quiet s t) (hph : ¬t.phase.AtYield)

theorem Quiet.of_log (h : t.log = s.log) : Quiet s t := ⟨[], by simp [h], by simp⟩

theorem Quiet.trans_log (h : Quiet s t) {u : State n ω} (hu : u.log = t.log) :
    Quiet s u := by
  obtain ⟨xs, ht, hxs⟩ := h
  exact ⟨xs, hu.trans ht, hxs⟩

theorem Quiet.trans (h : Quiet s t) {u : State n ω} (hu : Quiet t u) : Quiet s u := by
  obtain ⟨xs, ht, hxs⟩ := h
  obtain ⟨ys, hu, hys⟩ := hu
  exact ⟨xs ++ ys, by rw [hu, ht, List.append_assoc], List.forall_mem_append.mpr ⟨hxs, hys⟩⟩

theorem quiet_note {x : Event n ω} (hx : x.Aside) : Quiet s (s.note x) :=
  ⟨[x], rfl, by simpa using hx⟩

theorem Event.Aside.idle {x : Event n ω} (hx : x.Aside) : x.Idle := by
  cases x with
  | yielded p t c e => exact hx.elim
  | settled k e f => exact hx.elim
  | _ => exact ⟨rfl, fun _ => rfl, fun _ _ => trivial⟩

theorem Quiet.owes_iff (h : Quiet s t) {ticket : Int} {p : Fin n} {c : Envelope ω} :
    Owes t.log ticket p c ↔ Owes s.log ticket p c := by
  obtain ⟨xs, ht, hxs⟩ := h
  rw [ht]
  clear ht
  induction xs using List.reverseRecOn with
  | nil => rw [List.append_nil]
  | append_singleton xs x ih =>
    rw [← List.append_assoc, (hxs x (by simp)).idle.owes_iff]
    exact ih fun y hy => hxs y (by simp [hy])

theorem Quiet.filterMap_eq {β : Type} {f : Event n ω → Option β} (h : Quiet s t)
    (hf : ∀ x, x.Aside → f x = none) : t.log.filterMap f = s.log.filterMap f := by
  obtain ⟨xs, ht, hxs⟩ := h
  have hnone : xs.filterMap f = [] := List.filterMap_eq_nil_iff.mpr fun x hx => hf x (hxs x hx)
  rw [ht, List.filterMap_append, hnone, List.append_nil]

theorem Quiet.handedOut (h : Quiet s t) : handedOut t.log = handedOut s.log := by
  refine h.filterMap_eq fun x hx => ?_
  cases x <;> first | rfl | exact hx.elim

theorem Quiet.settlementsAsked (h : Quiet s t) :
    settlementsAsked t.log = settlementsAsked s.log := by
  refine h.filterMap_eq fun x hx => ?_
  cases x <;> first | rfl | exact hx.elim

theorem Quiet.mem_log (h : Quiet s t) {x : Event n ω} (hx : ¬x.Aside) : x ∈ t.log ↔ x ∈ s.log := by
  obtain ⟨xs, ht, hxs⟩ := h
  rw [ht, List.mem_append]
  exact or_iff_left fun hm => hx (hxs x hm)

theorem wait_away (s : State n ω) : ¬s.wait.phase.AtYield := by
  unfold State.wait State.enter
  dsimp only
  split_ifs <;> exact id

theorem drain_turned (chained : ChainedReceiver n) (s : State n ω) :
    Turned s (s.drain chained) := by
  unfold State.drain
  split
  · exact .yielded s (.of_log rfl) _ _ _ _ rfl trivial
  · exact .waits (.of_log rfl) (wait_away _)

theorem serve_turned (s : State n ω) (batch : List (Fin n)) :
    Turned s (s.serve chained batch) := by
  induction batch generalizing s with
  | nil => exact .waits (.of_log rfl) (wait_away _)
  | cons p batch ih =>
    have hpop : ∀ {u}, Turned (s.pop p) u → Turned s u := by
      intro u hu
      cases hu with
      | yielded v hv q ticket collected e hlog hph =>
        exact .yielded v hv q ticket collected e hlog hph
      | waits hv hph => exact .waits hv hph
    unfold State.serve
    split
    · exact .yielded s (.of_log rfl) _ _ _ _ rfl trivial
    · exact hpop (ih _)
    · exact .waits (.of_log rfl) id
    · exact .waits (.of_log rfl) id
    · exact ih s

/-- Begun or gone on with, the generator hands out a message or waits. -/
theorem turned_of_steps {a : Action n ω} (h : Steps chained s a t)
    (ha : a = .get ∨ a = .resume ∨ a = .wake) : Turned s t := by
  cases h with
  | got hph =>
    have hgot : Quiet s (s.note .got) := quiet_note (x := .got) trivial
    cases drain_turned chained (s.note .got) with
    | yielded u hu p ticket collected e hlog hph =>
      exact .yielded u (hgot.trans hu) p ticket collected e hlog hph
    | waits hu hph => exact .waits (hgot.trans hu) hph
  | drain hph => exact drain_turned chained s
  | woken hph => exact serve_turned s _
  | serve batch hph => exact serve_turned s batch
  | _ => simp at ha

/-- Everything else but a settlement happens while no message is handed out. -/
theorem quiet_of_steps {a : Action n ω} (h : Steps chained s a t)
    (ha : ∀ k e, a ≠ .settle k e) (hget : a ≠ .get) (hresume : a ≠ .resume) (hwake : a ≠ .wake) :
    Quiet s t := by
  cases h with
  | settle k e => exact absurd rfl (ha k e)
  | got hph => exact absurd rfl hget
  | drain hph => exact absurd rfl hresume
  | serve batch hph => exact absurd rfl hresume
  | woken hph => exact absurd rfl hwake
  | fetched p fetch hm =>
    refine ⟨_, rfl, fun x hx => ?_⟩
    obtain ⟨e, -, rfl⟩ := List.mem_map.mp hx
    exact trivial
  | drainClosed hph => exact (quiet_note (x := .ended _) trivial).trans_log rfl
  | cancelled hph => exact .of_log rfl
  | serveClosed batch hph => exact .of_log rfl
  | gathered ending hph hd => exact .of_log rfl
  | ended ending hph raised => exact (quiet_note (x := .ended _) trivial).trans_log rfl

end XtrMessenger.ChainedReceiver
