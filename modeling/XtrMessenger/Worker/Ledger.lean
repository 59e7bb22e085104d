import XtrMessenger.Worker.Delivery
import XtrMessenger.Receiver.Chained
import Mathlib.Data.List.Induction

/-! What a worker's history says of each message it was delivered: the calls made about it, and
the one that settled it. -/
namespace XtrMessenger
open Foundation ChainedReceiver
variable {ω : Type}

/-- The settlement a call asks the receiver for. -/
def Call.settlement? : Call ω → Option (Settlement × Envelope ω)
  | .ack e _ => some (.ack, e)
  | .reject e _ => some (.reject, e)
  | _ => none

theorem settlement?_isSome (c : Call ω) : c.settlement?.isSome = c.isSettlement := by
  cases c <;> rfl

namespace Worker

/-- A delivery opens an entry, the calls that follow are made about it. -/
def Event.file (entries : List (Envelope ω × List (Call ω))) :
    Event ω → List (Envelope ω × List (Call ω))
  | .delivered e => (e, []) :: entries
  | .call c =>
    match entries with
    | (e, calls) :: entries => (e, calls ++ [c]) :: entries
    | [] => []
  | _ => entries

/-- The envelopes a worker was delivered, the latest first, each with the calls made about it. -/
def filed (log : List (Event ω)) : List (Envelope ω × List (Call ω)) := log.foldl Event.file []

def Event.delivered? : Event ω → Option (Envelope ω)
  | .delivered e => some e
  | _ => none

def deliveredOf (log : List (Event ω)) : List (Envelope ω) := log.filterMap Event.delivered?

def Event.settlement? : Event ω → Option (Settlement × Envelope ω)
  | .call c => c.settlement?
  | _ => none

/-- The settlements a worker asked for, in order. -/
def settlementsOf (log : List (Event ω)) : List (Settlement × Envelope ω) :=
  log.filterMap Event.settlement?

variable {worker : Worker} {log : List (Event ω)} {x : Event ω}

theorem filed_concat : filed (log ++ [x]) = x.file (filed log) := by
  simp [filed]

theorem deliveredOf_concat : deliveredOf (log ++ [x]) = deliveredOf log ++ x.delivered?.toList :=
  filterMap_concat _ log x

theorem settlementsOf_concat :
    settlementsOf (log ++ [x]) = settlementsOf log ++ x.settlement?.toList :=
  filterMap_concat _ log x

/-- Every envelope delivered has its entry. -/
theorem filed_envelopes : (filed log).map Prod.fst = (deliveredOf log).reverse := by
  induction log using List.reverseRecOn with
  | nil => rfl
  | append_singleton log x ih =>
    rw [filed_concat, deliveredOf_concat, List.reverse_append, ← ih]
    cases x with
    | delivered e => rfl
    | call c => cases hf : filed log <;> simp [Event.file, Event.delivered?]
    | _ => rfl

/-- What was dealt with before is filed below what is in hand. -/
theorem filed_eq (h : Justified (Follows worker) log) : ∃ dealt,
    filed log = (inHand log).toList ++ dealt ∧ ∀ d ∈ dealt, Dealt worker d.1 d.2 := by
  induction log using List.reverseRecOn with
  | nil => exact ⟨[], rfl, by simp⟩
  | append_singleton log x ih =>
    obtain ⟨hlog, hcloses, hcall⟩ := justified_concat.mp h
    obtain ⟨dealt, hfiled, hdealt⟩ := ih hlog
    have hclosed : x.closes = true →
        ∀ d ∈ (inHand log).toList ++ dealt, Dealt worker d.1 d.2 := by
      intro hx d hd
      rcases List.mem_append.mp hd with hd | hd
      · exact hcloses hx d.1 d.2 (Option.mem_toList.mp hd)
      · exact hdealt d hd
    rw [filed_concat, inHand_concat, hfiled]
    cases x with
    | delivered e => exact ⟨_, rfl, hclosed rfl⟩
    | requested => exact ⟨_, rfl, hclosed rfl⟩
    | ended raised => exact ⟨_, rfl, hclosed rfl⟩
    | call c =>
      obtain ⟨⟨e, calls⟩, hhand⟩ := Option.isSome_iff_exists.mp (hcall c rfl)
      exact ⟨dealt, by simp [hhand, Event.file, Event.advance], hdealt⟩
    | runs => exact ⟨dealt, rfl, hdealt⟩
    | stop => exact ⟨dealt, rfl, hdealt⟩
    | announced event raised => exact ⟨dealt, rfl, hdealt⟩
    | opened raised => exact ⟨dealt, rfl, hdealt⟩
    | closed raised => exact ⟨dealt, rfl, hdealt⟩

/-- No settlement is about a message that was not delivered. -/
theorem settlementsOf_eq (h : Justified (Follows worker) log) :
    settlementsOf log = (filed log).reverse.flatMap fun d => d.2.filterMap Call.settlement? := by
  induction log using List.reverseRecOn with
  | nil => rfl
  | append_singleton log x ih =>
    obtain ⟨hlog, -, hcall⟩ := justified_concat.mp h
    obtain ⟨dealt, hfiled, -⟩ := filed_eq hlog
    rw [settlementsOf_concat, filed_concat, ih hlog]
    cases x with
    | delivered e => simp [Event.file, Event.settlement?]
    | call c =>
      obtain ⟨⟨e, calls⟩, hhand⟩ := Option.isSome_iff_exists.mp (hcall c rfl)
      rw [hhand] at hfiled
      rw [hfiled]
      cases hs : c.settlement? <;> simp [Event.file, Event.settlement?, hs]
    | _ => simp [Event.file, Event.settlement?]

/-- A message that was dealt with was settled by one call. -/
theorem Dealt.one {e : Envelope ω} {calls : List (Call ω)} (h : Dealt worker e calls) :
    (calls.filterMap Call.settlement?).length = 1 := by
  have honce := h.1.once
  rw [List.length_filterMap_eq_countP]
  simpa [settlement?_isSome] using honce

/-- With nothing in hand, as many messages were settled as were delivered. -/
theorem settlements_length (h : Justified (Follows worker) log)
    (hdealt : ∀ e calls, inHand log = some (e, calls) → Dealt worker e calls) :
    (settlementsOf log).length = (deliveredOf log).length := by
  obtain ⟨dealt, hfiled, hall⟩ := filed_eq h
  have hone : ∀ d ∈ filed log, (d.2.filterMap Call.settlement?).length = 1 := by
    intro d hd
    rw [hfiled] at hd
    rcases List.mem_append.mp hd with hd | hd
    · exact (hdealt d.1 d.2 (Option.mem_toList.mp hd)).one
    · exact (hall d hd).one
  have hlength : (filed log).length = (deliveredOf log).length := by
    have henvelopes : (filed log).map Prod.fst = (deliveredOf log).reverse := filed_envelopes
    simpa using congrArg List.length henvelopes
  rw [settlementsOf_eq h, List.length_flatMap, ← hlength]
  calc ((filed log).reverse.map fun d => (d.2.filterMap Call.settlement?).length).sum
      = ((filed log).reverse.map fun _ => 1).sum := by
        congr 1
        exact List.map_congr_left fun d hd => hone d (List.mem_reverse.mp hd)
    _ = (filed log).length := by simp

/-- What an action makes a worker receive. -/
def Action.delivers : Action ω → List (Envelope ω)
  | .fetched (.delivered e) => [e]
  | _ => []

/-- What an action makes a worker ask the receiver for. -/
def settles (s : State ω) : Action ω → List (Settlement × Envelope ω)
  | .perform =>
    match s.phase with
    | .settling (c :: _) _ => c.settlement?.toList
    | _ => []
  | _ => []

variable {s t : State ω}

/-- An event that is neither a delivery nor a settlement. -/
def Event.Moot (x : Event ω) : Prop := x.delivered? = none ∧ x.settlement? = none

/-- The log grew, by these deliveries and settlements. -/
def Grew (s t : State ω) (delivered : List (Envelope ω))
    (settled : List (Settlement × Envelope ω)) : Prop :=
  ∃ xs, t.log = s.log ++ xs ∧ xs.filterMap Event.delivered? = delivered ∧
    xs.filterMap Event.settlement? = settled

section Growing
variable {delivered : List (Envelope ω)} {settled : List (Settlement × Envelope ω)}

theorem Grew.refl (h : t.log = s.log) : Grew s t [] [] := ⟨[], by simp [h], rfl, rfl⟩

theorem Grew.of_log {u : State ω} (h : Grew s t delivered settled) (hu : u.log = t.log) :
    Grew s u delivered settled := by
  obtain ⟨xs, ht, hxs⟩ := h
  exact ⟨xs, hu.trans ht, hxs⟩

theorem Grew.note (h : Grew s t delivered settled) {x : Event ω} (hx : x.Moot) :
    Grew s (t.note x) delivered settled := by
  obtain ⟨xs, ht, hd, hs⟩ := h
  refine ⟨xs ++ [x], by simp [State.note, ht], ?_, ?_⟩
  · rw [filterMap_concat, hd, hx.1, Option.toList_none, List.append_nil]
  · rw [filterMap_concat, hs, hx.2, Option.toList_none, List.append_nil]

theorem Grew.collect (h : Grew s t delivered settled) : Grew s t.collect delivered settled := by
  unfold State.collect
  split_ifs
  · exact h.of_log rfl
  · exact (h.note (x := .requested) ⟨rfl, rfl⟩).of_log rfl

theorem Grew.take (h : Grew s t delivered settled) (fetch : Fetched ω) :
    Grew s (t.take fetch) delivered settled := by
  cases fetch <;> exact h.of_log rfl

theorem Grew.finish (h : Grew s t delivered settled) (raised : Option (Exc ω)) :
    Grew s (t.finish raised) delivered settled :=
  (h.note (x := .ended raised) ⟨rfl, rfl⟩).of_log rfl

theorem Grew.deliveredOf (h : Grew s t delivered settled) :
    deliveredOf t.log = deliveredOf s.log ++ delivered := by
  obtain ⟨xs, ht, hd, -⟩ := h
  rw [ht, Worker.deliveredOf, List.filterMap_append, hd]
  rfl

theorem Grew.settlementsOf (h : Grew s t delivered settled) :
    settlementsOf t.log = settlementsOf s.log ++ settled := by
  obtain ⟨xs, ht, -, hs⟩ := h
  rw [ht, Worker.settlementsOf, List.filterMap_append, hs]
  rfl

theorem arrive_grew (fetch : Fetched ω) :
    Grew s (s.arrive fetch) (Action.fetched fetch).delivers [] := by
  cases fetch with
  | delivered e => exact ⟨[.delivered e], rfl, rfl, rfl⟩
  | _ => exact .refl rfl

end Growing

theorem settles_nil {result : Except (Exc ω) Unit} (h : s.phase = .settling [] result) :
    settles s .perform = [] := by
  unfold settles
  rw [h]

/-- What a step enters in the log. -/
theorem step_grew {a : Action ω} (h : Steps worker s a t) :
    Grew s t a.delivers (settles s a) := by
  have hstay : Grew s s [] [] := .refl rfl
  have hnote : ∀ x : Event ω, x.Moot → Grew s (s.note x) [] [] := fun x hx => hstay.note hx
  cases h with
  | stop => exact (hnote .stop ⟨rfl, rfl⟩).of_log (State.log_stop _)
  | run hph => exact (hnote .runs ⟨rfl, rfl⟩).of_log rfl
  | started hph => exact (hnote (.announced _ _) ⟨rfl, rfl⟩).of_log rfl
  | startFailed hph e => exact (hnote (.announced _ _) ⟨rfl, rfl⟩).finish _
  | opened hph => exact (hnote (.opened _) ⟨rfl, rfl⟩).collect
  | openFailed hph e => exact (hnote (.opened _) ⟨rfl, rfl⟩).finish _
  | fetched hph fetch => exact (arrive_grew fetch).of_log rfl
  | woken fetch hph => exact hstay.take fetch
  | halted hph hs => exact hstay.of_log rfl
  | gathered hph fetch => exact (arrive_grew fetch).take fetch
  | settle e hph world => exact hstay.of_log rfl
  | perform c todo result hph =>
    have hs : settles s .perform = c.settlement?.toList := by
      unfold settles
      rw [hph]
    exact hs ▸ ⟨[.call c], rfl, rfl, filterMap_concat _ [] _⟩
  | settled hph hd => exact settles_nil hph ▸ (hstay.of_log rfl)
  | settledUnheard hph hd => exact settles_nil hph ▸ hstay.collect
  | settleFailed e hph => exact settles_nil hph ▸ (hstay.of_log rfl)
  | ran hph => exact (hnote (.announced _ _) ⟨rfl, rfl⟩).collect
  | runFailed hph e => exact (hnote (.announced _ _) ⟨rfl, rfl⟩).of_log rfl
  | closed raised hph hd => exact (hnote (.closed _) ⟨rfl, rfl⟩).of_log rfl
  | closedUnheard raised hph hd => exact (hnote (.closed _) ⟨rfl, rfl⟩).finish _
  | closeFailed raised hph e => exact (hnote (.closed _) ⟨rfl, rfl⟩).finish _
  | stopped raised hph raised' => exact (hnote (.announced _ _) ⟨rfl, rfl⟩).finish _

end Worker
end XtrMessenger
