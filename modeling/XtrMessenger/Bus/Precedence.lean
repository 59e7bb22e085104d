import XtrMessenger.Bus.Sending

/-! The order in which a `SendersLocator` asks where a message goes: its stamp, the table, the
catch-all, and what the message declares. -/
namespace XtrMessenger.Bus
open Foundation
variable {ω : Type} [Messages ω]

namespace SendersLocator

/-- The entries the table has for a class and its bases, most specific first. -/
def entriesFor (l : SendersLocator ω) (messageType : PyType) : List (List String) :=
  (mro ω messageType).filterMap fun base => l.routes.get? (.type base)

/-- The class itself declares transports. -/
def Declares (messages : MessageRegistry) (messageType : PyType) (names : List String) : Prop :=
  messages.transportsByType.get? messageType = some names ∧ names ≠ []

/-- What names a message's transports, one rule a source: a source that says anything is the last
one asked. -/
inductive Precedence (l : SendersLocator ω) (messages : MessageRegistry) (envelope : Envelope ω) :
    List String → Prop
  | stamped {names : List String} : overrideNames envelope = some names →
      Precedence l messages envelope names
  | routed : overrideNames envelope = none →
      l.entriesFor (PyObject.typeOf envelope.message) ≠ [] →
      Precedence l messages envelope (l.entriesFor (PyObject.typeOf envelope.message)).flatten
  | caught {names : List String} : overrideNames envelope = none →
      l.entriesFor (PyObject.typeOf envelope.message) = [] → l.routes.get? wildcard = some names →
      Precedence l messages envelope names
  | declared {names : List String} {before after : List PyType} {base : PyType} :
      overrideNames envelope = none → l.entriesFor (PyObject.typeOf envelope.message) = [] →
      l.routes.get? wildcard = none →
      mro ω (PyObject.typeOf envelope.message) = before ++ base :: after →
      (∀ b ∈ before, ∀ names, ¬Declares messages b names) → Declares messages base names →
      Precedence l messages envelope names
  | nowhere : overrideNames envelope = none →
      l.entriesFor (PyObject.typeOf envelope.message) = [] → l.routes.get? wildcard = none →
      (∀ b ∈ mro ω (PyObject.typeOf envelope.message), ∀ names, ¬Declares messages b names) →
      Precedence l messages envelope []

/-- Each distinct name is looked up once, where it first occurs. -/
def Yields (l : SendersLocator ω) (messages : MessageRegistry) (envelope : Envelope ω)
    (names : List String) : Prop :=
  l.sendersFor messages envelope = names.eraseDups.map l.resolve

/-- What is asked first lists a transport, or nothing that is asked after it does. -/
def Listed (l : SendersLocator ω) (messages : MessageRegistry) (envelope : Envelope ω) : Prop :=
  let messageType := PyObject.typeOf envelope.message
  overrideNames envelope ≠ none ∨
  (∃ entry ∈ l.entriesFor messageType, entry ≠ []) ∨
  (l.entriesFor messageType = [] ∧ l.routes.get? wildcard ≠ some []) ∨
  ((l.routes.get? wildcard).getD [] = [] ∧
    ∀ base ∈ mro ω messageType, ∀ names, ¬Declares messages base names)

variable {l : SendersLocator ω} {messages : MessageRegistry} {envelope : Envelope ω}

theorem matched_eq (l : SendersLocator ω) (messageType : PyType) :
    ((mro ω messageType).flatMap fun base => (l.routes.get? (.type base)).getD []) =
      (l.entriesFor messageType).flatten := by
  unfold entriesFor
  induction mro ω messageType with
  | nil => rfl
  | cons base bases ih =>
    rw [List.flatMap_cons, ih]
    cases hb : l.routes.get? (.type base) with
    | none => simp [hb]
    | some names => simp [hb]

theorem filter_declares {names : List String} {messageType : PyType} :
    ((messages.transportsByType.get? messageType).filter fun d => !d.isEmpty) = some names ↔
      Declares messages messageType names := by
  simp [Declares, Option.filter_eq_some_iff]

theorem filter_eq_none_iff {messageType : PyType} :
    ((messages.transportsByType.get? messageType).filter fun d => !d.isEmpty) = none ↔
      ∀ names, ¬Declares messages messageType names := by
  rw [Option.eq_none_iff_forall_ne_some]
  exact forall_congr' fun names => not_congr filter_declares

/-- The nearest class that declares any. -/
theorem transportsOf_eq {messageType base : PyType} {before after : List PyType}
    {names : List String} (hm : mro ω messageType = before ++ base :: after)
    (hb : ∀ b ∈ before, ∀ names, ¬Declares messages b names)
    (hn : Declares messages base names) : transportsOf (ω := ω) messages messageType = names := by
  have hfound : ((mro ω messageType).findSome? fun base =>
      (messages.transportsByType.get? base).filter fun d => !d.isEmpty) = some names :=
    List.findSome?_eq_some_iff.mpr
      ⟨before, base, after, hm, filter_declares.mpr hn, fun b h => filter_eq_none_iff.mpr (hb b h)⟩
  rw [transportsOf, hfound, Option.getD_some]

theorem transportsOf_eq_nil_iff {messageType : PyType} :
    transportsOf (ω := ω) messages messageType = [] ↔
      ∀ base ∈ mro ω messageType, ∀ names, ¬Declares messages base names := by
  unfold transportsOf
  cases h : (mro ω messageType).findSome? fun base =>
      (messages.transportsByType.get? base).filter fun d => !d.isEmpty with
  | none =>
    refine iff_of_true rfl fun base hb => filter_eq_none_iff.mp ?_
    exact List.findSome?_eq_none_iff.mp h base hb
  | some names =>
    obtain ⟨before, base, after, hm, hbase, -⟩ := List.findSome?_eq_some_iff.mp h
    have hdeclares := filter_declares.mp hbase
    refine iff_of_false hdeclares.2 fun hnone => ?_
    exact hnone base (hm ▸ List.mem_append_right before List.mem_cons_self) names hdeclares

/-- Some rule applies to every message. -/
theorem exists_precedence (l : SendersLocator ω) (messages : MessageRegistry)
    (envelope : Envelope ω) : ∃ names, Precedence l messages envelope names := by
  cases ho : overrideNames envelope with
  | some names => exact ⟨names, .stamped ho⟩
  | none =>
    by_cases he : l.entriesFor (PyObject.typeOf envelope.message) = []
    swap
    · exact ⟨_, .routed ho he⟩
    cases hw : l.routes.get? wildcard with
    | some names => exact ⟨names, .caught ho he hw⟩
    | none =>
      by_cases hd : transportsOf (ω := ω) messages (PyObject.typeOf envelope.message) = []
      · exact ⟨[], .nowhere ho he hw (transportsOf_eq_nil_iff.mp hd)⟩
      · cases hf : (mro ω (PyObject.typeOf envelope.message)).findSome? fun base =>
            (messages.transportsByType.get? base).filter fun d => !d.isEmpty with
        | none => simp [transportsOf, hf] at hd
        | some names =>
          obtain ⟨before, base, after, hm, hbase, hbefore⟩ := List.findSome?_eq_some_iff.mp hf
          exact ⟨names, .declared ho he hw hm (fun b h => filter_eq_none_iff.mp (hbefore b h))
            (filter_declares.mp hbase)⟩

theorem transportNames_of_unstamped (ho : overrideNames envelope = none) :
    l.transportNames messages envelope =
      if !(l.entriesFor (PyObject.typeOf envelope.message)).flatten.isEmpty then
        (l.entriesFor (PyObject.typeOf envelope.message)).flatten
      else if !((l.routes.get? wildcard).getD []).isEmpty then (l.routes.get? wildcard).getD []
      else transportsOf (ω := ω) messages (PyObject.typeOf envelope.message) := by
  unfold transportNames
  rw [ho]
  dsimp only
  rw [matched_eq]

theorem transportNames_of_precedence {names : List String}
    (h : Precedence l messages envelope names) (hl : Listed l messages envelope) :
    l.transportNames messages envelope = names := by
  cases h with
  | stamped ho => simp [transportNames, ho]
  | routed ho he =>
    rw [transportNames_of_unstamped ho]
    by_cases hm : (l.entriesFor (PyObject.typeOf envelope.message)).flatten = []
    · -- no entry lists any, so nothing that is asked after them does
      rcases hl with hs | ⟨entry, hentry, hne⟩ | ⟨hnone, -⟩ | ⟨hcaught, hdeclared⟩
      · exact absurd ho hs
      · exact absurd (List.flatten_eq_nil_iff.mp hm entry hentry) hne
      · exact absurd hnone he
      · simp [hm, hcaught, transportsOf_eq_nil_iff.mpr hdeclared]
    · simp [hm]
  | @caught names ho he hw =>
    rw [transportNames_of_unstamped ho, he, hw]
    by_cases hn : names = []
    · subst hn
      rcases hl with hs | ⟨entry, hentry, -⟩ | ⟨-, hne⟩ | ⟨-, hdeclared⟩
      · exact absurd ho hs
      · simp [he] at hentry
      · exact absurd hw hne
      · simp [transportsOf_eq_nil_iff.mpr hdeclared]
    · simp [hn]
  | declared ho he hw hm hb hd =>
    rw [transportNames_of_unstamped ho, he, hw]
    simp [transportsOf_eq hm hb hd]
  | nowhere ho he hw hd =>
    rw [transportNames_of_unstamped ho, he, hw]
    simp [transportsOf_eq_nil_iff.mpr hd]

theorem transportNames_of_yields_nil (h : Yields l messages envelope []) :
    l.transportNames messages envelope = [] := by
  have hnone : (l.transportNames messages envelope).eraseDups = [] := by
    simpa [Yields, sendersFor] using h
  rw [List.eq_nil_iff_forall_not_mem] at hnone ⊢
  exact fun name hm => hnone name (List.mem_eraseDups.mpr hm)

/-- Past a table that lists nothing, the catch-all and the declaration are asked. -/
theorem unlisted_of_transportNames (ho : overrideNames envelope = none)
    (he : (l.entriesFor (PyObject.typeOf envelope.message)).flatten = [])
    (h : l.transportNames messages envelope = []) :
    (l.routes.get? wildcard).getD [] = [] ∧
      ∀ base ∈ mro ω (PyObject.typeOf envelope.message), ∀ names,
        ¬Declares messages base names := by
  rw [transportNames_of_unstamped ho, he] at h
  by_cases hw : (l.routes.get? wildcard).getD [] = []
  · refine ⟨hw, transportsOf_eq_nil_iff.mp ?_⟩
    simpa [hw] using h
  · simp [hw] at h

/-- A message goes where the first source that says anything about it sends it, exactly when that
source lists a transport or none asked after it does. -/
theorem yields_by_precedence_iff (l : SendersLocator ω) (messages : MessageRegistry)
    (envelope : Envelope ω) :
    (∃ names, Precedence l messages envelope names ∧ Yields l messages envelope names) ↔
      Listed l messages envelope := by
  constructor
  · intro h
    obtain ⟨names, h, hy⟩ := h
    cases h with
    | stamped ho => exact .inl (by simp [ho])
    | routed ho he =>
      by_cases hm : (l.entriesFor (PyObject.typeOf envelope.message)).flatten = []
      · rw [hm] at hy
        have hnowhere := transportNames_of_yields_nil hy
        exact .inr (.inr (.inr (unlisted_of_transportNames ho hm hnowhere)))
      · simp only [List.flatten_eq_nil_iff, not_forall] at hm
        obtain ⟨entry, hentry, hne⟩ := hm
        exact .inr (.inl ⟨entry, hentry, hne⟩)
    | @caught names ho he hw =>
      by_cases hn : names = []
      · subst hn
        have hm : (l.entriesFor (PyObject.typeOf envelope.message)).flatten = [] := by simp [he]
        have hnowhere := transportNames_of_yields_nil hy
        exact .inr (.inr (.inr (unlisted_of_transportNames ho hm hnowhere)))
      · exact .inr (.inr (.inl ⟨he, by simp [hw, hn]⟩))
    | declared ho he hw hm hb hd => exact .inr (.inr (.inl ⟨he, by simp [hw]⟩))
    | nowhere ho he hw hd => exact .inr (.inr (.inl ⟨he, by simp [hw]⟩))
  · intro hl
    obtain ⟨names, h⟩ := exists_precedence l messages envelope
    refine ⟨names, h, ?_⟩
    rw [Yields, sendersFor, transportNames_of_precedence h hl]

end SendersLocator

/-- A table whose entry for a report lists no transport, beside a catch-all. -/
def unlistedReport : SendersLocator Sample :=
  ⟨((Dict.empty : Dict RouteKey (List String)).set (.type ⟨2, "app.messages", "BuildReport"⟩)
      []).set wildcard ["known"], oneSender.senders, by decide⟩

/-- The table has an entry for the message, but the message goes where the catch-all says. -/
theorem empty_entry_passed_over : ¬∀ (l : SendersLocator Sample) (messages : MessageRegistry)
    (envelope : Envelope Sample), ∃ names, l.Precedence messages envelope names ∧
      l.Yields messages envelope names := by
  intro h
  obtain ⟨names, hp, hy⟩ := h unlistedReport .empty ⟨.report, []⟩
  have hentries : unlistedReport.entriesFor (PyObject.typeOf Sample.report) = [[]] := by decide
  cases hp with
  | stamped ho => simp [SendersLocator.overrideNames, Envelope.last, Envelope.all] at ho
  | routed ho he =>
    rw [hentries] at hy
    have hlength := congrArg List.length hy
    exact absurd hlength (by decide)
  | caught ho he => simp [hentries] at he
  | declared ho he => simp [hentries] at he
  | nowhere ho he => simp [hentries] at he

end XtrMessenger.Bus
