import XtrMessenger.Transport.Sharing

/-! What is seen through a tree of composites: its leaves, and the first of them that recognises a
DSN. -/
namespace XtrMessenger.Transport.Sharing
open Foundation Dsn
variable {ω ρ υ : Type}

/-- A factory that is no composite, by where it stands in a tree: given in a list, or found by a
composite that discovers. -/
inductive Leaf (ω ρ υ : Type)
  | given (factory : Adapter ω ρ υ)
  | found (composite : Discovering)

mutual

/-- The leaves of a tree, depth first. -/
def leaves : Factory ω ρ υ → List (Leaf ω ρ υ)
  | .adapter a => [.given a]
  | .delegating _ factories => leavesAmong factories
  | .discovering t => [.found t]

def leavesAmong : List (Factory ω ρ υ) → List (Leaf ω ρ υ)
  | [] => []
  | factory :: factories => leaves factory ++ leavesAmong factories

end

/-- The object that stands at a leaf, for the DSNs of a scheme. -/
def Leaf.object (s : Discoveries ω ρ υ) (scheme : List Char) : Leaf ω ρ υ → Option (Factory ω ρ υ)
  | given factory => some (.adapter factory)
  | found t => (s.discovered t).get? scheme

theorem Extends.object {s s' : Discoveries ω ρ υ} {scheme : List Char} {leaf : Leaf ω ρ υ}
    {a : Factory ω ρ υ} (h : Extends s s') (ha : leaf.object s scheme = some a) :
    leaf.object s' scheme = some a := by
  cases leaf with
  | given factory => exact ha
  | found t => exact h t scheme a ha

/-- A factory that discovery builds answers whether it recognises a DSN, unless a serializer is
missing behind it. -/
def Answering (ω ρ υ : Type) [Unicode] [Installed ω ρ υ] : Prop :=
  ∀ scheme, ∀ entry ∈ (Installed.entryPoints scheme : List (EntryPoint (Factory ω ρ υ))),
    ∀ serializer made, entry.made serializer = some made → ∀ (dsn : Dsn) (e : Exc ω),
      made.asked dsn = .error e → ∃ name, e = missingSerializerError name

section Seeking
variable [Unicode] [Installed ω ρ υ]

/-- Whether the factory at a leaf recognises the DSN: if it is to be discovered, whether discovery
comes up with one. -/
def Leaf.supports (dsn : Dsn) : Leaf ω ρ υ → Bool
  | given factory => factory.supports dsn
  | found t =>
    match (Transport.factoryFor t dsn : Except (Exc ω) (Option (Factory ω ρ υ))) with
    | .ok (some _) => true
    | _ => false

/-- What a leaf answers when it is asked: one that is to be discovered may lack a serializer. -/
def Leaf.asked (dsn : Dsn) : Leaf ω ρ υ → Except (Exc ω) Bool
  | given factory => .ok (factory.supports dsn)
  | found t => (Transport.factoryFor t dsn : Except (Exc ω) (Option (Factory ω ρ υ))).map
      Option.isSome

/-- The first leaf that recognises the DSN. -/
def seek (dsn : Dsn) : List (Leaf ω ρ υ) → Except (Exc ω) (Option (Leaf ω ρ υ))
  | [] => .ok none
  | leaf :: rest =>
    match leaf.asked dsn with
    | .error e => .error e
    | .ok true => .ok (some leaf)
    | .ok false => seek dsn rest

section Walking
variable {dsn : Dsn} {l l' : List (Leaf ω ρ υ)} {leaf : Leaf ω ρ υ} {e : Exc ω}

theorem asked_found (t : Discovering) (dsn : Dsn) : (Leaf.found t : Leaf ω ρ υ).asked dsn =
    (Transport.factoryFor t dsn : Except (Exc ω) (Option (Factory ω ρ υ))).map Option.isSome := rfl

theorem seek_of_error (h : leaf.asked dsn = .error e) : seek dsn (leaf :: l) = .error e := by
  rw [seek, h]

theorem seek_of_true (h : leaf.asked dsn = .ok true) : seek dsn (leaf :: l) = .ok (some leaf) := by
  rw [seek, h]

theorem seek_of_false (h : leaf.asked dsn = .ok false) : seek dsn (leaf :: l) = seek dsn l := by
  rw [seek, h]

theorem seek_append_of_none (h : seek dsn l = .ok none) : seek dsn (l ++ l') = seek dsn l' := by
  induction l with
  | nil => rfl
  | cons leaf l ih =>
    rcases hasked : leaf.asked dsn with e | _ | _
    · cases (seek_of_error hasked).symm.trans h
    · rw [seek_of_false hasked] at h
      rw [List.cons_append, seek_of_false hasked]
      exact ih h
    · cases (seek_of_true hasked).symm.trans h

theorem seek_append_of_ne (h : seek dsn l ≠ .ok none) : seek dsn (l ++ l') = seek dsn l := by
  induction l with
  | nil => exact absurd rfl h
  | cons leaf l ih =>
    rw [List.cons_append]
    rcases hasked : leaf.asked dsn with e | _ | _
    · rw [seek_of_error hasked, seek_of_error hasked]
    · rw [seek_of_false hasked] at h ⊢
      rw [seek_of_false hasked]
      exact ih h
    · rw [seek_of_true hasked, seek_of_true hasked]

theorem supports_eq_asked (leaf : Leaf ω ρ υ) (dsn : Dsn) {answer : Bool}
    (h : leaf.asked dsn = .ok answer) : leaf.supports dsn = answer := by
  cases leaf with
  | given factory => exact Except.ok.inj h
  | found t =>
    rw [asked_found] at h
    obtain ⟨found, hfound, rfl⟩ := map_eq_ok_iff.mp h
    rw [Leaf.supports, hfound]
    cases found <;> rfl

/-- Seeking comes to the first leaf that recognises the DSN. -/
theorem find?_of_seek {answer : Option (Leaf ω ρ υ)} (h : seek dsn l = .ok answer) :
    l.find? (Leaf.supports dsn) = answer := by
  induction l with
  | nil => exact Except.ok.inj h
  | cons leaf l ih =>
    rcases hasked : leaf.asked dsn with e | _ | _
    · cases (seek_of_error hasked).symm.trans h
    · rw [seek_of_false hasked] at h
      have hno : leaf.supports dsn = false := supports_eq_asked leaf dsn hasked
      rw [List.find?_cons_of_neg (by simp [hno])]
      exact ih h
    · rw [seek_of_true hasked] at h
      obtain rfl := Except.ok.inj h
      exact List.find?_cons_of_pos (supports_eq_asked leaf dsn hasked)

/-- Asking raises nothing but that a serializer is missing, where what discovery builds answers. -/
theorem missing_of_seek (ha : Answering ω ρ υ) (h : seek dsn l = .error e) :
    ∃ scheme, e = missingSerializerError scheme := by
  induction l with
  | nil => cases h
  | cons leaf l ih =>
    rcases hasked : leaf.asked dsn with e' | _ | _
    · rw [seek_of_error hasked] at h
      obtain rfl := Except.error.inj h
      cases leaf with
      | given factory => cases hasked
      | found t =>
        rw [asked_found] at hasked
        have hends := firstMade_ends (ω := ω) (ρ := ρ) (υ := υ) t dsn
          (Installed.entryPoints dsn.scheme)
        have hraised : firstMade t dsn (Installed.entryPoints dsn.scheme) = .error e' :=
          map_eq_error_iff.mp hasked
        rw [hraised] at hends
        cases hends with
        | missing scheme => exact ⟨scheme, rfl⟩
        | raised hm hmade hasked => exact ha _ _ hm _ _ hmade _ _ hasked
    · rw [seek_of_false hasked] at h
      exact ih h
    · cases (seek_of_true hasked).symm.trans h

/-- A leaf on its own answers what it is asked. -/
theorem seek_singleton (leaf : Leaf ω ρ υ) (dsn : Dsn) :
    (seek dsn [leaf]).map Option.isSome = leaf.asked dsn := by
  rcases hasked : leaf.asked dsn with e | _ | _
  · rw [seek_of_error hasked]
    rfl
  · rw [seek_of_false hasked]
    rfl
  · rw [seek_of_true hasked]
    rfl

/-- An adapter that is asked by itself is its leaf. -/
theorem seek_given {a : Adapter ω ρ υ} {leaf : Leaf ω ρ υ}
    (h : seek dsn [.given a] = .ok (some leaf)) : a.supports dsn = true ∧ leaf = .given a := by
  have hasked := seek_singleton (.given a) dsn
  rw [h] at hasked
  have hsupports : a.supports dsn = true := (Except.ok.inj hasked).symm
  have hleaf : seek dsn [.given a] = .ok (some (.given a)) := seek_of_true (congrArg _ hsupports)
  exact ⟨hsupports, Option.some.inj (Except.ok.inj (h.symm.trans hleaf))⟩

theorem asked_of_found {t : Discovering} {s : Discoveries ω ρ υ}
    {answer : Except (Exc ω) (Option (Factory ω ρ υ))} (h : Found t dsn answer s) :
    (Leaf.found t : Leaf ω ρ υ).asked dsn = answer.map Option.isSome := by
  rw [asked_found]
  cases h with
  | error hfound => rw [hfound]
  | none hfound => rw [hfound]
  | some hfound _ _ =>
    rw [hfound]
    rfl

mutual

/-- `supports` asks as far as seeking goes. -/
theorem supports_asks (hs : SchemeOnly ω ρ υ) (dsn : Dsn) : ∀ factory : Factory ω ρ υ,
    Asks (supports dsn factory) fun answer _ =>
      answer = (seek dsn (leaves factory)).map Option.isSome
  | .adapter a => asks_lift fun _ => (seek_singleton (.given a) dsn).symm
  | .delegating _ factories => anySupports_asks hs dsn factories
  | .discovering t => by
    rw [supports, leaves, seek_singleton]
    refine (discover_asks hs t dsn).bind (fun e s h => ?_) fun found s h hsound => ?_
    · exact (asked_of_found h).symm
    · exact ⟨hsound, .refl s, (asked_of_found h).symm⟩

theorem anySupports_asks (hs : SchemeOnly ω ρ υ) (dsn : Dsn) : ∀ factories : List (Factory ω ρ υ),
    Asks (anySupports dsn factories) fun answer _ =>
      answer = (seek dsn (leavesAmong factories)).map Option.isSome
  | [] => asks_lift fun _ => rfl
  | factory :: factories => by
    rw [anySupports, leavesAmong]
    refine (supports_asks hs dsn factory).bind (fun e s h => ?_) fun supported s h hsound => ?_
    · have hseek := map_eq_error_iff.mp h.symm
      rw [seek_append_of_ne (by simp [hseek]), hseek]
      rfl
    · obtain ⟨found, hseek, rfl⟩ := map_eq_ok_iff.mp h.symm
      cases found with
      | none =>
        rw [seek_append_of_none hseek]
        exact anySupports_asks hs dsn factories s hsound
      | some leaf =>
        rw [seek_append_of_ne (by simp [hseek]), hseek]
        exact ⟨hsound, .refl s, rfl⟩

end

/-- What serves is the object at the leaf that was sought. -/
inductive Served (part : Factory.Part) (dsn : Dsn) : Except (Exc ω) (Option (Leaf ω ρ υ)) →
    Except (Exc ω) (Factory ω ρ υ) → Discoveries ω ρ υ → Prop
  | error (e : Exc ω) (s : Discoveries ω ρ υ) : Served part dsn (.error e) (.error e) s
  | none (s : Discoveries ω ρ υ) :
      Served part dsn (.ok none) (.error (unsupportedDsnError part.1.1 dsn.raw)) s
  | some {leaf : Leaf ω ρ υ} {a : Factory ω ρ υ} {s : Discoveries ω ρ υ} :
      a.asked dsn = (.ok true : Except (Exc ω) Bool) → leaf.object s dsn.scheme = some a →
      Served part dsn (.ok (some leaf)) (.ok a) s

omit [Installed ω ρ υ] in
theorem lift_parsed {α : Type} {config : TransportConfig} (f : Dsn → Seeking ω ρ υ α)
    (h : Factory.parsed config = (.ok dsn : Except (Exc ω) Dsn)) :
    (Stateful.lift (Factory.parsed config) >>= f) = f dsn := by
  rw [h]
  rfl

mutual

theorem serving_asks (hs : SchemeOnly ω ρ υ) {part : Factory.Part}
    (hp : Factory.parsed part.1.2 = (.ok dsn : Except (Exc ω) Dsn)) :
    ∀ factory : Factory ω ρ υ, isTransportFactory factory = true →
      Asks (serving part factory) (Served part dsn (seek dsn (leaves factory)))
  | .adapter a => fun h => absurd h Bool.false_ne_true
  | .delegating _ factories => fun _ => by
    rw [serving, lift_parsed _ hp, leaves]
    exact servingAmong_asks hs hp factories
  | .discovering t => fun _ => by
    rw [serving, lift_parsed _ hp, leaves]
    refine (discover_asks hs t dsn).bind (fun e s h => ?_) fun found s h hsound => ?_
    · have hasked := asked_of_found h
      rw [seek_of_error hasked]
      exact .error e s
    · have hasked := asked_of_found h
      cases h with
      | none _ =>
        rw [seek_of_false hasked]
        exact ⟨hsound, .refl s, .none s⟩
      | some hfound halike hkept =>
        rw [seek_of_true hasked]
        exact ⟨hsound, .refl s, .some ((halike.asked dsn).trans (asked_of_made hfound)) hkept⟩

theorem servingAmong_asks (hs : SchemeOnly ω ρ υ) {part : Factory.Part}
    (hp : Factory.parsed part.1.2 = (.ok dsn : Except (Exc ω) Dsn)) :
    ∀ factories : List (Factory ω ρ υ), Asks (servingAmong part dsn factories)
      (Served part dsn (seek dsn (leavesAmong factories)))
  | [] => asks_lift fun s => .none s
  | factory :: factories => by
    rw [servingAmong, leavesAmong]
    refine (supports_asks hs dsn factory).bind (fun e s h => ?_) fun supported s h hsound => ?_
    · have hseek := map_eq_error_iff.mp h.symm
      rw [seek_append_of_ne (by simp [hseek]), hseek]
      exact .error _ s
    · obtain ⟨found, hseek, rfl⟩ := map_eq_ok_iff.mp h.symm
      cases found with
      | none =>
        rw [seek_append_of_none hseek]
        exact servingAmong_asks hs hp factories s hsound
      | some leaf =>
        rw [seek_append_of_ne (by simp [hseek]), Option.isSome_some, if_pos rfl]
        cases hc : isTransportFactory factory with
        | true =>
          rw [if_pos rfl]
          exact serving_asks hs hp factory hc s hsound
        | false =>
          -- an adapter that recognised the DSN is the leaf itself
          cases factory with
          | delegating id factories => cases hc
          | discovering t => cases hc
          | adapter a =>
            obtain ⟨hsupports, rfl⟩ := seek_given hseek
            rw [if_neg Bool.false_ne_true, hseek]
            exact ⟨hsound, .refl s, .some (congrArg Except.ok hsupports) rfl⟩

end

end Walking

section Life
variable {s s' : Discoveries ω ρ υ} {dsn : Dsn}

/-- However it is called, a composite keeps what was discovered. -/
theorem step_sound (hs : SchemeOnly ω ρ υ) (call : Call ω ρ υ) (h : Sound s)
    (hstep : life.step s call = some s') : Sound s' ∧ Extends s s' := by
  cases call with
  | supports factory dsn =>
    obtain rfl := Option.some.inj hstep
    obtain ⟨hsound, hextends, _⟩ := supports_asks hs dsn factory s h
    exact ⟨hsound, hextends⟩
  | serving factory part =>
    obtain rfl := Option.some.inj hstep
    cases hp : (Factory.parsed part.1.2 : Except (Exc ω) Dsn) with
    | error e =>
      have hsame : (serving part factory s).2 = s := by
        cases factory with
        | adapter a => rfl
        | delegating id factories =>
          rw [serving, hp]
          rfl
        | discovering t =>
          rw [serving, hp]
          rfl
      rw [hsame]
      exact ⟨h, .refl s⟩
    | ok dsn =>
      cases hc : isTransportFactory factory with
      | true =>
        obtain ⟨hsound, hextends, _⟩ := serving_asks hs hp factory hc s h
        exact ⟨hsound, hextends⟩
      | false =>
        cases factory with
        | adapter a => exact ⟨h, .refl s⟩
        | delegating id factories => cases hc
        | discovering t => cases hc

theorem reachable_sound (hs : SchemeOnly ω ρ υ) (h : life.Reachable s) : Sound s := by
  refine h.invariant ?_ fun s call s' _ hi _ hstep => (step_sound hs call hi hstep).1
  intro s hs t scheme known hknown
  rw [show s.discovered = undiscovered from hs] at hknown
  simp [undiscovered, Dict.get?, Dict.empty] at hknown

theorem run_sound (hs : SchemeOnly ω ρ υ) (calls : List (Call ω ρ υ)) (h : Sound s)
    (hrun : life.run s calls = some s') : Sound s' ∧ Extends s s' := by
  induction calls generalizing s with
  | nil =>
    obtain rfl := Option.some.inj hrun
    exact ⟨h, .refl s⟩
  | cons call calls ih =>
    obtain ⟨t, hstep, hrest⟩ := Option.bind_eq_some_iff.mp hrun
    obtain ⟨hsound, hextends⟩ := step_sound hs call h hstep
    obtain ⟨hsound', hextends'⟩ := ih hsound hrest
    exact ⟨hsound', hextends.trans hextends'⟩

/-- Once a leaf serves, its object serves for good. -/
theorem served_again (hs : SchemeOnly ω ρ υ) {factory : Factory ω ρ υ}
    (hc : isTransportFactory factory = true) {part : Factory.Part}
    (hp : Factory.parsed part.1.2 = (.ok dsn : Except (Exc ω) Dsn)) {leaf : Leaf ω ρ υ}
    (hseek : seek dsn (leaves factory) = .ok (some leaf)) {a : Factory ω ρ υ} (h : Sound s)
    (ha : leaf.object s dsn.scheme = some a) : (serving part factory s).1 = .ok a := by
  obtain ⟨_, hextends, hserved⟩ := serving_asks hs hp factory hc s h
  rw [hseek] at hserved
  rcases hanswer : serving part factory s with ⟨answer, u⟩
  rw [hanswer] at hextends hserved
  cases hserved with
  | some _ ha' =>
    have hsame := Option.some.inj ((hextends.object ha).symm.trans ha')
    rw [hsame]

/-- `supports`, asked at `s`, tells whether `serving`, asked at `s'`, finds a factory; what it finds
is an adapter, at the first leaf that recognises the DSN, and the same object ever after. -/
structure Agrees (factory : Factory ω ρ υ) (part : Factory.Part) (dsn : Dsn)
    (s s' : Discoveries ω ρ υ) : Prop where
  supported : (supports dsn factory s).1 = .ok true ↔
    ∀ text, (serving part factory s').1 ≠ .error (.exception "UnsupportedDsnError" text)
  leaf : ∀ served u, serving part factory s' = (.ok served, u) →
    ∃ a leaf, served = .adapter a ∧ a.supports dsn = true ∧
      (leaves factory).find? (Leaf.supports dsn) = some leaf ∧
        leaf.object u dsn.scheme = some served
  again : ∀ served u, serving part factory s' = (.ok served, u) →
    ∀ calls later, life.run u calls = some later → ∀ part' : Factory.Part,
      Factory.parsed part'.1.2 = (.ok dsn : Except (Exc ω) Dsn) →
        (serving part' factory later).1 = .ok served

/-- If the first leaf that recognises the DSN is to be discovered, what discovery comes up with is
no `TransportFactory`. -/
def FindsLeaf (factory : Factory ω ρ υ) (dsn : Dsn) : Prop :=
  ∀ t, (leaves factory).find? (Leaf.supports dsn) = some (.found t) → ∀ made,
    Transport.factoryFor t dsn = (.ok (some made) : Except (Exc ω) (Option (Factory ω ρ υ))) →
      isTransportFactory made = false

/-- An object at a leaf is a composite only where discovery came up with one. -/
theorem findsLeaf_iff {factory : Factory ω ρ υ} {leaf : Leaf ω ρ υ} {served : Factory ω ρ υ}
    (hfind : (leaves factory).find? (Leaf.supports dsn) = some leaf) (h : Sound s)
    (ha : leaf.object s dsn.scheme = some served) :
    FindsLeaf factory dsn ↔ isTransportFactory served = false := by
  unfold FindsLeaf
  rw [hfind]
  cases leaf with
  | given a =>
    obtain rfl := Option.some.inj ha
    simp [isTransportFactory]
  | found t =>
    obtain ⟨made, hmade, halike⟩ := h t dsn.scheme served ha dsn rfl
    rw [halike.isTransportFactory]
    constructor
    · intro hfinds
      exact hfinds t rfl made hmade
    · intro hleaf t' ht made' hmade'
      obtain rfl : t = t' := by simpa using ht
      obtain rfl := Option.some.inj (Except.ok.inj (hmade.symm.trans hmade'))
      exact hleaf

/-- Whenever in their lives composites are asked, and unless a serializer is missing, `supports` and
`serving` agree exactly where no composite is discovered at the leaf that serves. -/
theorem serving_agrees (hs : SchemeOnly ω ρ υ) (ha : Answering ω ρ υ) (factory : Factory ω ρ υ)
    (hc : isTransportFactory factory = true) (part : Factory.Part)
    (hp : Factory.parsed part.1.2 = (.ok dsn : Except (Exc ω) Dsn)) (h : life.Reachable s)
    (h' : life.Reachable s') (hserializer : ∀ text,
      (supports dsn factory s).1 ≠ .error (.exception "MissingSerializerError" text)) :
    Agrees factory part dsn s s' ↔ FindsLeaf factory dsn := by
  obtain ⟨_, _, hsupports⟩ := supports_asks hs dsn factory s (reachable_sound hs h)
  obtain ⟨hsound, _, hserved⟩ := serving_asks hs hp factory hc s' (reachable_sound hs h')
  rcases hanswer : serving part factory s' with ⟨answer, t⟩
  rw [hanswer] at hsound hserved
  cases hseek : seek dsn (leaves factory) with
  | error e =>
    obtain ⟨scheme, rfl⟩ := missing_of_seek ha hseek
    rw [hseek] at hsupports
    exact absurd hsupports (hserializer _)
  | ok found =>
    rw [hseek] at hsupports hserved
    have hfind := find?_of_seek hseek
    cases hserved with
    | none =>
      -- nothing recognises the DSN, and both say so
      have hfinds : FindsLeaf factory dsn := by
        intro t' ht
        rw [hfind] at ht
        cases ht
      refine iff_of_true ⟨iff_of_false (fun htrue => ?_) (fun hall => ?_), ?_, ?_⟩ hfinds
      · cases hsupports.symm.trans htrue
      · exact hall _ (by rw [hanswer]; rfl)
      · intro served u hreturned
        cases congrArg Prod.fst (hanswer.symm.trans hreturned)
      · intro served u hreturned
        cases congrArg Prod.fst (hanswer.symm.trans hreturned)
    | @some leaf served _ hasked hobject =>
      rw [findsLeaf_iff hfind hsound hobject]
      constructor
      · intro hagrees
        obtain ⟨a, -, rfl, -⟩ := hagrees.leaf served t hanswer
        rfl
      · intro hleaf
        have hsame : ∀ {served' u}, serving part factory s' = (.ok served', u) →
            served = served' ∧ t = u := fun hreturned => by
          simpa using hanswer.symm.trans hreturned
        constructor
        case supported =>
          refine iff_of_true hsupports fun text hraised => ?_
          rw [hanswer] at hraised
          cases hraised
        case leaf =>
          intro served' u hreturned
          obtain ⟨rfl, rfl⟩ := hsame hreturned
          cases served with
          | adapter a => exact ⟨a, leaf, rfl, Except.ok.inj hasked, hfind, hobject⟩
          | delegating id factories => cases hleaf
          | discovering t' => cases hleaf
        case again =>
          intro served' u hreturned calls later hrun part' hp'
          obtain ⟨rfl, rfl⟩ := hsame hreturned
          obtain ⟨hlater, hextends⟩ := run_sound hs calls hsound hrun
          exact served_again hs hc hp' hseek hlater (hextends.object hobject)

end Life

end Seeking

section Samples

/-- A recorder, for the scheme `m`. -/
def memory : Adapter Int Unit Unit where
  id := 0
  supports dsn := dsn.scheme = ['m']
  create _ := .ok .empty
  worker := none

/-- One distribution advertises a factory, under the scheme `m`. -/
abbrev advertising (made : Factory Int Unit Unit) : Installed Int Unit Unit where
  entryPoints scheme :=
    if scheme = ['m'] then [⟨['m'], true, .optional, fun _ => some made⟩] else []
  depth := 8

attribute [local instance] Unicode.ascii

theorem answer_of_advertising {made : Factory Int Unit Unit} {scheme : List Char}
    {entry : EntryPoint (Factory Int Unit Unit)}
    (hm : entry ∈ (advertising made).entryPoints scheme) {given : Option Nat}
    {built : Factory Int Unit Unit} (h : entry.made given = some built) : built = made := by
  change entry ∈ if scheme = ['m'] then _ else _ at hm
  split_ifs at hm
  · obtain rfl := List.mem_singleton.mp hm
    exact (Option.some.inj h).symm
  · cases hm

/-- A composite that discovers, behind two lists. -/
def nested : Factory Int Unit Unit :=
  .delegating 0 [.adapter { memory with supports := fun _ => false },
    .delegating 1 [.discovering ⟨2, none⟩, .adapter { memory with id := 7 }]]

/-- `m://host`. -/
def jobs : Factory.Part := (("jobs", ⟨"m://host".toList, none, ⟨.empty, true⟩⟩), [])

def jobsDsn : Dsn := ⟨"m://host".toList, ['m'], "m://host".toList⟩

/-- Another composite discovers a recorder of its own. -/
def asked : List (Call Int Unit Unit) :=
  [.serving (.discovering ⟨3, some 0⟩) jobs, .serving nested jobs]

section Recorder
local instance recorderInstalled : Installed Int Unit Unit := advertising (.adapter memory)

theorem recorder_schemeOnly : SchemeOnly Int Unit Unit := by
  intro scheme entry hentry given built hbuilt dsn dsn' hdsn
  obtain rfl := answer_of_advertising hentry hbuilt
  simp [Factory.asked, Factory.askedOf, memory, hdsn]

theorem recorder_answering : Answering Int Unit Unit := by
  intro scheme entry hentry given built hbuilt dsn e he
  obtain rfl := answer_of_advertising hentry hbuilt
  cases he

theorem serving_agrees_nested : ∃ served s later, serving jobs nested {} = (.ok served, s) ∧
    life.run s asked = some later ∧ later.built = 2 ∧ Agrees nested jobs jobsDsn {} {} ∧
      (serving jobs nested later).1 = .ok served := by
  obtain ⟨served, s, later, hserving, hrun, hbuilt⟩ : ∃ served s later,
      serving jobs nested {} = (.ok served, s) ∧ life.run s asked = some later ∧ later.built = 2 :=
    ⟨_, _, _, rfl, rfl, rfl⟩
  have hparsed : Factory.parsed jobs.1.2 = (.ok jobsDsn : Except (Exc Int) Dsn) := rfl
  have hsupported : (supports jobsDsn nested {}).1 = .ok true := rfl
  have hserializer : ∀ text, (supports jobsDsn nested {}).1 ≠
      .error (.exception "MissingSerializerError" text) := by
    intro text hmissing
    cases hsupported.symm.trans hmissing
  have hfinds : FindsLeaf nested jobsDsn := by
    intro t _ made hmade
    obtain rfl : Factory.adapter memory = made := Option.some.inj (Except.ok.inj hmade)
    rfl
  have hstart : life.Reachable ({} : Discoveries Int Unit Unit) := .start rfl
  have hagrees := (serving_agrees recorder_schemeOnly recorder_answering nested rfl jobs hparsed
    hstart hstart hserializer).mpr hfinds
  exact ⟨served, s, later, hserving, hrun, hbuilt, hagrees,
    hagrees.again served s hserving asked later hrun jobs hparsed⟩

end Recorder

section Composite
local instance compositeInstalled : Installed Int Unit Unit :=
  advertising (.delegating 0 [.adapter memory])

/-- What is discovered is served as it is, also where an adapter stands behind it. -/
theorem composite_served : SchemeOnly Int Unit Unit ∧ Answering Int Unit Unit ∧
    (supports jobsDsn (.discovering ⟨0, none⟩ : Factory Int Unit Unit) {}).1 = .ok true ∧
      ¬Agrees (.discovering ⟨0, none⟩ : Factory Int Unit Unit) jobs jobsDsn {} {} := by
  refine ⟨?_, ?_, rfl, fun hagrees => ?_⟩
  · intro scheme entry hentry given built hbuilt dsn dsn' hdsn
    obtain rfl := answer_of_advertising hentry hbuilt
    simp [Factory.asked, Factory.askedOf, Factory.anyAsked, memory, hdsn]
  · intro scheme entry hentry given built hbuilt dsn e he
    obtain rfl := answer_of_advertising hentry hbuilt
    unfold Factory.asked at he
    simp only [Factory.askedOf, Factory.anyAsked, bind, Except.bind] at he
    split_ifs at he
    cases he
  · obtain ⟨a, -, hadapter, -⟩ := hagrees.leaf _ _ rfl
    cases hadapter

end Composite

end Samples
end XtrMessenger.Transport.Sharing
