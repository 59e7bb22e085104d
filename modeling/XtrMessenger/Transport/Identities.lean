import XtrMessenger.Transport.Seeing

/-! Composites with the identity of what they discover, beside those without. -/
namespace XtrMessenger.Transport.Sharing
open Foundation Dsn
variable {ω ρ υ : Type} [Unicode] [Installed ω ρ υ] {dsn : Dsn}

/-- What serves where identities are not told apart: what is given, or what discovery makes. -/
inductive Chosen (name : String) (dsn : Dsn) :
    Except (Exc ω) (Option (Leaf ω ρ υ)) → Except (Exc ω) (Factory ω ρ υ) → Prop
  | error (e : Exc ω) : Chosen name dsn (.error e) (.error e)
  | none : Chosen name dsn (.ok none) (.error (unsupportedDsnError name dsn.raw))
  | given (a : Adapter ω ρ υ) : Chosen name dsn (.ok (some (.given a))) (.ok (.adapter a))
  | found {t : Discovering} {made : Factory ω ρ υ} :
      Transport.factoryFor t dsn = (.ok (some made) : Except (Exc ω) _) →
      Chosen name dsn (.ok (some (.found t))) (.ok made)

mutual

theorem supports_answers (hs : SchemeOnly ω ρ υ) (dsn : Dsn) : ∀ factory : Factory ω ρ υ,
    Stateful.Answers Kept (Factory.supports dsn factory)
      ((seek dsn (leaves factory)).map Option.isSome)
  | .adapter a => by
    rw [leaves, seek_singleton]
    exact fun d hd => ⟨rfl, hd⟩
  | .delegating _ factories => anySupports_answers hs dsn factories
  | .discovering t => by
    rw [Factory.supports, leaves, seek_singleton, asked_found]
    refine (discover_answers hs t dsn).bind (fun e he => ?_) fun found hfound => ?_
    · exact map_eq_error_iff.mpr he
    · rw [hfound]
      exact fun d hd => ⟨rfl, hd⟩

theorem anySupports_answers (hs : SchemeOnly ω ρ υ) (dsn : Dsn) :
    ∀ factories : List (Factory ω ρ υ), Stateful.Answers Kept (Factory.anySupports dsn factories)
      ((seek dsn (leavesAmong factories)).map Option.isSome)
  | [] => fun d hd => ⟨rfl, hd⟩
  | factory :: factories => by
    rw [Factory.anySupports, leavesAmong]
    refine (supports_answers hs dsn factory).bind (fun e he => ?_) fun supported h => ?_
    · have hseek := map_eq_error_iff.mp he
      rw [seek_append_of_ne (by simp [hseek]), hseek]
      rfl
    · obtain ⟨found, hseek, rfl⟩ := map_eq_ok_iff.mp h
      cases found with
      | none =>
        rw [seek_append_of_none hseek]
        exact anySupports_answers hs dsn factories
      | some leaf =>
        rw [seek_append_of_ne (by simp [hseek]), hseek]
        exact fun d hd => ⟨rfl, hd⟩

end

mutual

theorem servingDsn_answers (hs : SchemeOnly ω ρ υ) (name : String) (dsn : Dsn) :
    ∀ factory : Factory ω ρ υ, isTransportFactory factory = true →
      ∃ r, Stateful.Answers Kept (Factory.servingDsn name dsn factory) r ∧
        Chosen name dsn (seek dsn (leaves factory)) r
  | .adapter a => fun h => absurd h Bool.false_ne_true
  | .delegating _ factories => fun _ => servingAmong_answers hs name dsn factories
  | .discovering t => fun _ => by
    rw [Factory.servingDsn, leaves]
    have hasked := asked_found (ω := ω) (ρ := ρ) (υ := υ) t dsn
    cases hfound : (Transport.factoryFor t dsn : Except (Exc ω) (Option (Factory ω ρ υ))) with
    | error e =>
      rw [hfound] at hasked
      rw [seek_of_error hasked]
      refine ⟨.error e, (discover_answers hs t dsn).bind (fun e' he => ?_) fun found h => ?_,
        .error e⟩
      · exact congrArg _ (Except.error.inj (hfound.symm.trans he))
      · cases hfound.symm.trans h
    | ok found =>
      rw [hfound] at hasked
      cases found with
      | none =>
        rw [seek_of_false hasked]
        refine ⟨_, (discover_answers hs t dsn).bind (fun e he => ?_) fun found h => ?_, .none⟩
        · cases hfound.symm.trans he
        · obtain rfl := Except.ok.inj (hfound.symm.trans h)
          exact fun d hd => ⟨rfl, hd⟩
      | some made =>
        rw [seek_of_true hasked]
        refine ⟨.ok made, (discover_answers hs t dsn).bind (fun e he => ?_) fun found h => ?_,
          .found hfound⟩
        · cases hfound.symm.trans he
        · obtain rfl := Except.ok.inj (hfound.symm.trans h)
          exact fun d hd => ⟨rfl, hd⟩

theorem servingAmong_answers (hs : SchemeOnly ω ρ υ) (name : String) (dsn : Dsn) :
    ∀ factories : List (Factory ω ρ υ),
      ∃ r, Stateful.Answers Kept (Factory.servingAmong name dsn factories) r ∧
        Chosen name dsn (seek dsn (leavesAmong factories)) r
  | [] => ⟨_, fun d hd => ⟨rfl, hd⟩, .none⟩
  | factory :: factories => by
    rw [Factory.servingAmong, leavesAmong]
    have hsupports := supports_answers hs dsn factory
    cases hseek : seek dsn (leaves factory) with
    | error e =>
      rw [seek_append_of_ne (by simp [hseek]), hseek]
      rw [hseek] at hsupports
      exact ⟨.error e, hsupports.bind (fun e' he => congrArg _ (Except.error.inj he))
        (fun _ h => by cases h), .error e⟩
    | ok found =>
      rw [hseek] at hsupports
      cases found with
      | none =>
        rw [seek_append_of_none hseek]
        obtain ⟨r, hr, hchosen⟩ := servingAmong_answers hs name dsn factories
        refine ⟨r, hsupports.bind (fun _ he => by cases he) fun supported h => ?_, hchosen⟩
        obtain rfl := Except.ok.inj h
        exact hr
      | some leaf =>
        rw [seek_append_of_ne (by simp [hseek])]
        have hbound : ∀ {r}, Stateful.Answers Kept (Factory.servingDsn name dsn factory) r →
            Stateful.Answers Kept (do
              if ← Factory.supports dsn factory then Factory.servingDsn name dsn factory
              else Factory.servingAmong name dsn factories) r := by
          intro r hr
          refine hsupports.bind (fun _ he => by cases he) fun supported h => ?_
          obtain rfl := Except.ok.inj h
          exact hr
        cases hc : isTransportFactory factory with
        | true =>
          obtain ⟨r, hr, hchosen⟩ := servingDsn_answers hs name dsn factory hc
          exact ⟨r, hbound hr, hchosen⟩
        | false =>
          cases factory with
          | delegating id factories => cases hc
          | discovering t => cases hc
          | adapter a =>
            obtain ⟨_, rfl⟩ := seek_given hseek
            rw [hseek]
            exact ⟨.ok (.adapter a), hbound fun d hd => ⟨rfl, hd⟩, .given a⟩

end

/-- Where identities are not told apart, the same is raised, and what serves is alike. -/
theorem serving_alike (hs : SchemeOnly ω ρ υ) {factory : Factory ω ρ υ}
    (hc : isTransportFactory factory = true) {part : Factory.Part}
    (hp : Factory.parsed part.1.2 = (.ok dsn : Except (Exc ω) Dsn)) {d : Discovered ω ρ υ}
    (hd : Kept d) {s : Discoveries ω ρ υ} (h : Sound s) :
    (∃ e, (Factory.serving factory part d).1 = .error e ∧ (serving part factory s).1 = .error e) ∨
      ∃ a made, (Factory.serving factory part d).1 = .ok made ∧
        (serving part factory s).1 = .ok a ∧ Alike a made := by
  have hserving : Factory.serving factory part = Factory.servingDsn part.1.1 dsn factory := by
    rw [Factory.serving, hp]
    rfl
  obtain ⟨r, hr, hchosen⟩ := servingDsn_answers hs part.1.1 dsn factory hc
  obtain ⟨hsound, _, hserved⟩ := serving_asks hs hp factory hc s h
  rw [hserving, (hr d hd).1]
  rcases hanswer : serving part factory s with ⟨answer, u⟩
  rw [hanswer] at hsound hserved
  cases hseek : seek dsn (leaves factory) with
  | error e =>
    rw [hseek] at hchosen hserved
    cases hchosen
    cases hserved
    exact .inl ⟨e, rfl, rfl⟩
  | ok found =>
    rw [hseek] at hchosen hserved
    cases hchosen with
    | none =>
      cases hserved
      exact .inl ⟨_, rfl, rfl⟩
    | given made =>
      cases hserved with
      | some _ hobject =>
        obtain rfl := Option.some.inj hobject
        exact .inr ⟨_, _, rfl, rfl, alike_refl _⟩
    | found hfound =>
      cases hserved with
      | some _ hobject =>
        obtain ⟨made', hmade', halike⟩ := hsound _ _ _ hobject dsn rfl
        obtain rfl := Option.some.inj (Except.ok.inj (hfound.symm.trans hmade'))
        exact .inr ⟨_, _, rfl, rfl, halike⟩

end XtrMessenger.Transport.Sharing
