import XtrMessenger.Foundation.Machine
import Mathlib.Data.List.Perm.Basic

/-! The runs of `TaskiqWorker`s over one broker, and the flag each saves, sets and gives back. -/
namespace XtrMessenger.Taskiq
open Foundation

/-- How what a run awaits comes to its end. -/
inductive Ending
  | returned | stopped | raised
  deriving DecidableEq, Repr

/-- A `TaskiqWorker.run`, until it has given the flag back. -/
structure Execution where
  claimed : Bool
  /-- It is done consuming, and awaits `broker.shutdown()`. -/
  shuttingDown : Bool
  deriving DecidableEq, Repr

/-- The broker's flag, and the runs over it, in the order they started. -/
structure FlagState where
  isWorkerProcess : Bool
  runs : List Execution := []
  deriving DecidableEq, Repr

/-- A step of a run, from one `await` to the next. -/
inductive RunStep
  /-- Up to where its start is announced; `constructed` is false where constructing the receiver
  raises, which nothing catches. -/
  | starts (constructed : Bool)
  /-- Announcing the start or listening ends, and the broker is shut down. -/
  | finishes (place : Nat) (ending : Ending)
  /-- The shutdown ends, in whichever way: the flag is what the run found. -/
  | restores (place : Nat) (ending : Ending)
  deriving DecidableEq, Repr

namespace FlagState

def step (s : FlagState) : RunStep → Option FlagState
  | .starts constructed =>
    some { isWorkerProcess := true
           runs := if constructed then s.runs ++ [⟨s.isWorkerProcess, false⟩] else s.runs }
  | .finishes place _ =>
    match s.runs[place]? with
    | some run =>
      if run.shuttingDown then none
      else some { s with runs := s.runs.set place { run with shuttingDown := true } }
    | none => none
  | .restores place _ =>
    match s.runs[place]? with
    | some run =>
      if run.shuttingDown then
        some { isWorkerProcess := run.claimed, runs := s.runs.eraseIdx place }
      else none
    | none => none

/-- `before` is the flag before the first run. -/
def machine (before : Bool) : Machine FlagState RunStep where
  init s := s = { isWorkerProcess := before }
  step := step

/-- The flag is set while a run is in progress, and what it was when none is. -/
structure Right (before : Bool) (s : FlagState) : Prop where
  running : s.runs ≠ [] → s.isWorkerProcess = true
  idle : s.runs = [] → s.isWorkerProcess = before

/-- A run that found the flag clear gives it back as the last one, and a receiver fails to be
constructed only while the flag is set. -/
def Nested (s : FlagState) : RunStep → Prop
  | .starts constructed => constructed = true ∨ s.isWorkerProcess = true
  | .finishes _ _ => True
  | .restores place _ =>
    ∀ run, s.runs[place]? = some run → run.claimed = true ∨ s.runs.length = 1

instance (s : FlagState) : (a : RunStep) → Decidable (Nested s a)
  | .starts _ => inferInstanceAs (Decidable (_ ∨ _))
  | .finishes _ _ => isTrue trivial
  | .restores place _ =>
    match h : s.runs[place]? with
    | none => isTrue fun run hr => by simp [h] at hr
    | some found =>
      decidable_of_iff (found.claimed = true ∨ s.runs.length = 1)
        ⟨fun hf run hr => by rw [h] at hr; exact Option.some.inj hr ▸ hf, fun hn => hn found h⟩

/-- The runs in progress that found the flag clear. -/
def foundClear (runs : List Execution) : Nat := runs.countP fun run => !run.claimed

/-- Of the runs in progress, one found the flag as it was before them all; the rest found it set. -/
structure Held (before : Bool) (s : FlagState) : Prop extends Right before s where
  finders : foundClear s.runs = if before = true ∨ s.runs = [] then 0 else 1

section Runs
variable {runs : List Execution} {place : Nat} {run : Execution}

theorem foundClear_finish (h : runs[place]? = some run) :
    foundClear (runs.set place { run with shuttingDown := true }) = foundClear runs := by
  obtain ⟨hlt, rfl⟩ := List.getElem?_eq_some_iff.mp h
  have hle : (if !runs[place].claimed then 1 else 0) ≤ foundClear runs := by
    split_ifs with hc
    · exact List.countP_pos_iff.mpr ⟨_, List.getElem_mem hlt, hc⟩
    · exact Nat.zero_le _
  unfold foundClear at hle ⊢
  rw [List.countP_set hlt]
  dsimp only
  omega

theorem foundClear_erase (h : runs[place]? = some run) :
    foundClear runs = foundClear (runs.eraseIdx place) + if run.claimed then 0 else 1 := by
  obtain ⟨hlt, rfl⟩ := List.getElem?_eq_some_iff.mp h
  unfold foundClear
  rw [← (List.getElem_cons_eraseIdx_perm hlt).countP_eq, List.countP_cons]
  cases runs[place].claimed <;> rfl

end Runs

section Steps
variable {before : Bool} {s t : FlagState}

theorem Held.start (h : Held before s) :
    Held before ⟨true, s.runs ++ [⟨s.isWorkerProcess, false⟩]⟩ := by
  refine ⟨⟨fun _ => rfl, fun hnil => by simp at hnil⟩, ?_⟩
  have hfinders := h.finders
  unfold foundClear at hfinders ⊢
  rw [List.countP_append, hfinders]
  by_cases hruns : s.runs = []
  · rw [h.idle hruns]
    cases before <;> simp [hruns]
  · rw [h.running hruns]
    simp [hruns]

theorem Held.finish (h : Held before s) {place : Nat} {run : Execution}
    (hrun : s.runs[place]? = some run) :
    Held before { s with runs := s.runs.set place { run with shuttingDown := true } } := by
  have hempty : s.runs.set place { run with shuttingDown := true } = [] ↔ s.runs = [] := by simp
  refine ⟨⟨fun hne => h.running (mt hempty.mpr hne), fun hnil => h.idle (hempty.mp hnil)⟩, ?_⟩
  have hfinders := h.finders
  simp only [foundClear_finish hrun, hempty]
  exact hfinders

theorem eraseIdx_eq_nil_iff {runs : List Execution} {place : Nat} {run : Execution}
    (h : runs[place]? = some run) : runs.eraseIdx place = [] ↔ runs.length = 1 := by
  obtain ⟨hlt, -⟩ := List.getElem?_eq_some_iff.mp h
  rw [← List.length_eq_zero_iff, List.length_eraseIdx_of_lt hlt]
  omega

theorem Held.restore (h : Held before s) {place : Nat} {run : Execution}
    (hrun : s.runs[place]? = some run) (hnested : run.claimed = true ∨ s.runs.length = 1) :
    Held before ⟨run.claimed, s.runs.eraseIdx place⟩ := by
  have hlast := eraseIdx_eq_nil_iff hrun
  have herase := foundClear_erase hrun
  have hne : s.runs ≠ [] := fun hnil => by simp [hnil] at hrun
  rw [h.finders] at herase
  simp only [hne, or_false] at herase
  by_cases hone : s.runs.length = 1
  · -- the last one out is the one that found the flag as it was
    have hnil := hlast.mpr hone
    have hclaimed : run.claimed = before := by
      simp only [hnil, foundClear, List.countP_nil] at herase
      cases hc : run.claimed <;> cases hb : before <;> simp [hc, hb] at herase ⊢
    refine ⟨⟨fun hruns => absurd hnil hruns, fun _ => hclaimed⟩, ?_⟩
    simp [hnil, foundClear]
  · have hclaimed := hnested.resolve_right hone
    have hleft : s.runs.eraseIdx place ≠ [] := mt hlast.mp hone
    refine ⟨⟨fun _ => hclaimed, fun hnil => absurd hnil hleft⟩, ?_⟩
    simpa [hclaimed, hleft, eq_comm] using herase

theorem Held.step (h : Held before s) {a : RunStep} (hnested : Nested s a)
    (ht : s.step a = some t) : Held before t := by
  cases a with
  | starts constructed =>
    obtain rfl := Option.some.inj ht
    cases constructed with
    | true => exact h.start
    | false =>
      have hflag : s.isWorkerProcess = true := hnested.resolve_left (by simp)
      have hsame : (⟨true, s.runs⟩ : FlagState) = s := by rw [← hflag]
      simpa [hsame] using h
  | finishes place ending =>
    cases hrun : s.runs[place]? with
    | none => simp [FlagState.step, hrun] at ht
    | some run =>
      simp only [FlagState.step, hrun] at ht
      split_ifs at ht
      exact Option.some.inj ht ▸ h.finish hrun
  | restores place ending =>
    cases hrun : s.runs[place]? with
    | none => simp [FlagState.step, hrun] at ht
    | some run =>
      simp only [FlagState.step, hrun] at ht
      split_ifs at ht
      exact Option.some.inj ht ▸ h.restore hrun (hnested run hrun)

/-- A step that is not nested leaves the flag wrong. -/
theorem Held.not_right (h : Held before s) {a : RunStep} (hnested : ¬ Nested s a)
    (ht : s.step a = some t) : ¬ Right before t := by
  intro hright
  cases a with
  | starts constructed =>
    obtain rfl := Option.some.inj ht
    simp only [Nested, not_or, Bool.not_eq_true] at hnested
    obtain ⟨rfl, hflag⟩ := hnested
    have hnone : s.runs = [] := by
      by_contra hruns
      simp [h.running hruns] at hflag
    have hidle : true = before := hright.idle (by simp [hnone])
    rw [h.idle hnone, ← hidle] at hflag
    simp at hflag
  | finishes place ending => exact hnested trivial
  | restores place ending =>
    simp only [Nested, not_forall, not_or] at hnested
    obtain ⟨run, hrun, hclaimed, hone⟩ := hnested
    simp only [FlagState.step, hrun] at ht
    split_ifs at ht
    obtain rfl := Option.some.inj ht
    exact hclaimed (hright.running (mt (eraseIdx_eq_nil_iff hrun).mp hone))

end Steps

/-- In every run all of whose steps are nested the flag is right in every state reached, and the
first step that is not leaves it wrong. -/
theorem flag_right (before : Bool) {s : FlagState} (h : (machine before).Reach Nested s) :
    Right before s ∧ ∀ a t, ¬ Nested s a → s.step a = some t → ¬ Right before t := by
  have hheld : Held before s := by
    refine h.invariant (fun s hs => ?_) fun s a t _ hs hnested ht => hs.step hnested ht
    obtain rfl : s = ⟨before, []⟩ := hs
    exact ⟨⟨fun hruns => absurd rfl hruns, fun _ => rfl⟩, by simp [foundClear]⟩
  exact ⟨hheld.toRight, fun a t hnested ht => hheld.not_right hnested ht⟩

/-- A second run starts and ends within the first. -/
def nestedRuns : List RunStep :=
  [.starts true, .starts true, .finishes 1 .raised, .restores 1 .returned, .finishes 0 .stopped]

theorem flag_right_nestedRuns : ∃ s,
    (machine false).runWhen Nested ⟨false, []⟩ nestedRuns = some s ∧
    s.runs = [⟨false, true⟩] ∧ Right false s := by
  have hrun : (machine false).runWhen Nested ⟨false, []⟩ nestedRuns =
      some ⟨true, [⟨false, true⟩]⟩ := by decide
  exact ⟨_, hrun, rfl, (flag_right false (Machine.Reach.runWhen (.start rfl) nestedRuns hrun)).1⟩

/-- Two runs overlap: the first clears the flag under the second, which leaves it set. -/
theorem flag_cleared_and_left_set : ∃ s t,
    (machine false).run ⟨false, []⟩ [.starts true, .starts true, .finishes 0 .stopped,
      .restores 0 .returned] = some s ∧
    (machine false).run s [.finishes 0 .stopped, .restores 0 .returned] = some t ∧
    (s.runs.length = 1 ∧ s.isWorkerProcess = false) ∧
      t.runs = [] ∧ t.isWorkerProcess = true := by
  refine ⟨⟨false, [⟨true, false⟩]⟩, ⟨true, []⟩, by decide, by decide, by decide, by decide⟩

end FlagState
end XtrMessenger.Taskiq
