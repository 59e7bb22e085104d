import XtrMessenger.Bus.Decorating

/-! What `as_middleware` and `as_message_handler` record of a class: a binding in a registry, and an
attribute of the class, which attribute lookup finds on the classes deriving from it too. -/
namespace XtrMessenger.Bus
open Foundation
variable {ω δ κ ρ : Type}

/-- What the decorators write: a registry, and an attribute, by the class it was set on. -/
structure Declarations (κ ρ : Type) where
  registry : ρ
  attributes : Dict PyType (List κ)

/-- `getattr(cls, attribute, ())`; `bases` is `__mro__` past the class itself. -/
def attributeOf (bases : PyType → List PyType) (attributes : Dict PyType (List κ)) (cls : PyType) :
    List κ := ((cls :: bases cls).findSome? attributes.get?).getD []

/-- What the decorators have in common: the registry may refuse the class; if it does not, what the
attribute was, and the key, are set on the class itself. -/
def declare (register : ρ → κ → PyType → Except (Exc ω) ρ) (bases : PyType → List PyType)
    (s : Declarations κ ρ) (cls : PyType) (key : κ) : Except (Exc ω) (Declarations κ ρ) := do
  let registry ← register s.registry key cls
  return ⟨registry, s.attributes.set cls (attributeOf bases s.attributes cls ++ [key])⟩

/-- `MiddlewareRegistry.register`. -/
def registerMiddleware (registry : Dict String PyType) (name : String) (cls : PyType) :
    Except (Exc ω) (Dict String PyType) := .ok (registry.set name cls)

/-- `as_middleware(name)(cls)`. -/
def asMiddleware (bases : PyType → List PyType) (s : Declarations String (Dict String PyType))
    (cls : PyType) (name : String) :
    Except (Exc ω) (Declarations String (Dict String PyType)) :=
  declare registerMiddleware bases s cls name

/-- `HandlersLocator.register` of a class, by what of it `HandlerDescriptor.of` reads. -/
def registerHandler [Decorator δ ω] (check : ContainerCheck) (handlerOf : PyType → Handler ω)
    (registry : DecoratedHandlers ω δ) (messageType cls : PyType) :
    Except (Exc ω) (DecoratedHandlers ω δ) :=
  let answered := registry.register check messageType (handlerOf cls) none
  answered.1.map fun _ => answered.2

/-- `as_message_handler(message_type)(cls)`, of a class the registry may refuse. -/
def asMessageHandler [Decorator δ ω] (check : ContainerCheck) (handlerOf : PyType → Handler ω)
    (bases : PyType → List PyType) (s : Declarations PyType (DecoratedHandlers ω δ))
    (cls messageType : PyType) : Except (Exc ω) (Declarations PyType (DecoratedHandlers ω δ)) :=
  declare (registerHandler check handlerOf) bases s cls messageType

def middlewareDeclaredOn (bases : PyType → List PyType)
    (s : Declarations String (Dict String PyType)) (cls : PyType) : List String :=
  attributeOf bases s.attributes cls

def handlersDeclaredOn (bases : PyType → List PyType)
    (s : Declarations PyType (DecoratedHandlers ω δ)) (cls : PyType) : List PyType :=
  (attributeOf bases s.attributes cls).eraseDups

/-- What the bundle makes of the classes it scans: a service and an alias, or a registered handler,
for each key declared on each. -/
def autoconfigured (declaredOn : PyType → List κ) (scanned : List PyType) : List (PyType × κ) :=
  scanned.flatMap fun cls => (declaredOn cls).map fun key => (cls, key)

/-- A decoration, and the bindings made so far: one that raises makes none. -/
def decorating (decorate : Declarations κ ρ → PyType → κ → Except (Exc ω) (Declarations κ ρ))
    (s : Declarations κ ρ × List (PyType × κ)) (call : PyType × κ) :
    Declarations κ ρ × List (PyType × κ) :=
  match decorate s.1 call.1 call.2 with
  | .error _ => s
  | .ok t => (t, s.2 ++ [call])

/-- What some decorations leave, from a registry in which nothing is declared. -/
def decorations (decorate : Declarations κ ρ → PyType → κ → Except (Exc ω) (Declarations κ ρ))
    (registry : ρ) (calls : List (PyType × κ)) : Declarations κ ρ × List (PyType × κ) :=
  calls.foldl (decorating decorate) (⟨registry, .empty⟩, [])

/-- The two records of the declarations agree, and so does what the bundle makes of one of them. -/
structure Recorded (declaredOn : PyType → List κ) (made : List (PyType × κ)) : Prop where
  own : ∀ cls key, key ∈ declaredOn cls ↔ (cls, key) ∈ made
  bundle : ∀ scanned cls key,
    (cls, key) ∈ autoconfigured declaredOn scanned ↔ cls ∈ scanned ∧ (cls, key) ∈ made

/-- A class is declared when the classes deriving from it have all been. -/
def DerivedFirst (bases : PyType → List PyType) (earlier : List (PyType × κ))
    (declared : PyType × κ) : Prop :=
  ∀ cls, cls ≠ declared.1 → declared.1 ∈ bases cls → cls ∈ earlier.map Prod.fst

/-- The keys a class was declared with, in the order it was. -/
def keysOf (made : List (PyType × κ)) (cls : PyType) : List κ :=
  (made.filter fun binding => binding.1 = cls).map Prod.snd

theorem mem_keysOf {made : List (PyType × κ)} {cls : PyType} {key : κ} :
    key ∈ keysOf made cls ↔ (cls, key) ∈ made := by
  simp [keysOf]

theorem keysOf_concat (made : List (PyType × κ)) (cls declared : PyType) (key : κ) :
    keysOf (made ++ [(declared, key)]) cls =
      keysOf made cls ++ if declared = cls then [key] else [] := by
  unfold keysOf
  rw [List.filter_append, List.map_append]
  by_cases hd : declared = cls <;> simp [hd]

section Attributes
variable {bases : PyType → List PyType} {attributes : Dict PyType (List κ)} {cls : PyType}

theorem attributeOf_of_own {keys : List κ} (h : attributes.get? cls = some keys) :
    attributeOf bases attributes cls = keys := by
  simp [attributeOf, h]

theorem attributeOf_congr {attributes' : Dict PyType (List κ)}
    (h : ∀ base ∈ cls :: bases cls, attributes'.get? base = attributes.get? base) :
    attributeOf bases attributes' cls = attributeOf bases attributes cls := by
  unfold attributeOf
  congr 1
  generalize cls :: bases cls = ancestors at h
  induction ancestors with
  | nil => rfl
  | cons base ancestors ih =>
    obtain ⟨hbase, hrest⟩ := List.forall_mem_cons.mp h
    rw [List.findSome?_cons, List.findSome?_cons, hbase, ih hrest]

/-- A class shows the attribute of some class it derives from, where one of them has it. -/
theorem attributeOf_of_base {base : PyType} (hbase : base ∈ bases cls)
    (hset : attributes.get? base ≠ none) :
    ∃ ancestor, attributes.get? ancestor = some (attributeOf bases attributes cls) := by
  have hfound : (cls :: bases cls).findSome? attributes.get? ≠ none := fun hnone =>
    hset (List.findSome?_eq_none_iff.mp hnone base (List.mem_cons_of_mem _ hbase))
  obtain ⟨keys, hkeys⟩ := Option.ne_none_iff_exists'.mp hfound
  obtain ⟨ancestor, -, hancestor⟩ := List.exists_of_findSome?_eq_some hkeys
  refine ⟨ancestor, ?_⟩
  rw [attributeOf, hkeys, hancestor]
  rfl

end Attributes

/-- An attribute is set where a binding was made, and holds a key. -/
structure Marked (attributes : Dict PyType (List κ)) (made : List (PyType × κ)) : Prop where
  isSet : ∀ cls, attributes.get? cls ≠ none ↔ cls ∈ made.map Prod.fst
  ne_nil : ∀ cls keys, attributes.get? cls = some keys → keys ≠ []

section Steps
variable {register : ρ → κ → PyType → Except (Exc ω) ρ} {bases : PyType → List PyType}
  {s : Declarations κ ρ} {made : List (PyType × κ)} {call : PyType × κ}

/-- What a decoration that does not raise leaves of the attributes. -/
theorem declare_attributes {cls : PyType} {key : κ} {t : Declarations κ ρ}
    (h : declare register bases s cls key = .ok t) :
    t.attributes = s.attributes.set cls (attributeOf bases s.attributes cls ++ [key]) := by
  unfold declare at h
  cases hr : register s.registry key cls with
  | error error => simp [hr, bind, Except.bind] at h
  | ok registry =>
    rw [hr] at h
    exact (congrArg Declarations.attributes (Except.ok.inj h)).symm

theorem Marked.declare (h : Marked s.attributes made) {cls : PyType} {key : κ}
    {t : Declarations κ ρ} (hd : Bus.declare register bases s cls key = .ok t) :
    Marked t.attributes (made ++ [(cls, key)]) := by
  rw [declare_attributes hd]
  constructor
  · intro other
    rw [Dict.get?_set]
    by_cases ho : other = cls
    · simp [ho]
    · rw [if_neg ho, h.isSet]
      simp [ho]
  · intro other keys hkeys
    rw [Dict.get?_set] at hkeys
    split_ifs at hkeys with ho
    · rw [← Option.some.inj hkeys]
      simp
    · exact h.ne_nil other keys hkeys

/-- Declared after all that derive from it, a class adds a key to its own attribute, and no other
class shows it. -/
theorem declare_attributeOf (h : Marked s.attributes made)
    (hown : ∀ cls, attributeOf bases s.attributes cls = keysOf made cls) {cls : PyType} {key : κ}
    {t : Declarations κ ρ} (hd : declare register bases s cls key = .ok t)
    (hderived : DerivedFirst bases made (cls, key)) (other : PyType) :
    attributeOf bases t.attributes other = keysOf (made ++ [(cls, key)]) other := by
  rw [declare_attributes hd, keysOf_concat, ← hown]
  by_cases ho : other = cls
  · subst ho
    rw [attributeOf_of_own (by rw [Dict.get?_set, if_pos rfl]), if_pos rfl]
  · have hget : (s.attributes.set cls (attributeOf bases s.attributes cls ++ [key])).get? other =
        s.attributes.get? other := by rw [Dict.get?_set, if_neg ho]
    rw [if_neg (Ne.symm ho), List.append_nil]
    by_cases hbase : cls ∈ bases other
    · obtain ⟨keys, hkeys⟩ := Option.ne_none_iff_exists'.mp
        ((h.isSet other).mpr (hderived other ho hbase))
      rw [attributeOf_of_own hkeys, attributeOf_of_own (hget.trans hkeys)]
    · refine attributeOf_congr fun base hmem => ?_
      rw [Dict.get?_set, if_neg]
      rintro rfl
      rcases List.mem_cons.mp hmem with hb | hb
      · exact ho hb.symm
      · exact hbase hb

/-- Where the records agree after a class is declared, all that derive from it had been. -/
theorem derivedFirst_of_own (h : Marked s.attributes made) {cls : PyType} {key : κ}
    {t : Declarations κ ρ} (hd : declare register bases s cls key = .ok t)
    (hown : ∀ other k, k ∈ attributeOf bases t.attributes other ↔
      (other, k) ∈ made ++ [(cls, key)]) : DerivedFirst bases made (cls, key) := by
  intro other ho hbase
  have hmarked := h.declare hd
  have hset : t.attributes.get? cls ≠ none := (hmarked.isSet cls).mpr (by simp)
  obtain ⟨ancestor, hancestor⟩ := attributeOf_of_base hbase hset
  obtain ⟨k, hk⟩ := List.exists_mem_of_ne_nil _ (hmarked.ne_nil ancestor _ hancestor)
  rcases List.mem_append.mp ((hown other k).mp hk) with hmade | hnew
  · exact List.mem_map_of_mem (f := Prod.fst) hmade
  · exact absurd (congrArg Prod.fst (List.mem_singleton.mp hnew)) ho

end Steps

section Runs
variable {decorate : Declarations κ ρ → PyType → κ → Except (Exc ω) (Declarations κ ρ)}

/-- One decoration more: it raises, and all is as it was, or it makes a binding. -/
theorem decorations_concat (decorate : Declarations κ ρ → PyType → κ →
      Except (Exc ω) (Declarations κ ρ)) (registry : ρ) (calls : List (PyType × κ))
    (call : PyType × κ) :
    decorations decorate registry (calls ++ [call]) = decorations decorate registry calls ∨
      ∃ t, decorate (decorations decorate registry calls).1 call.1 call.2 = .ok t ∧
        decorations decorate registry (calls ++ [call]) =
          (t, (decorations decorate registry calls).2 ++ [call]) := by
  have hconcat : decorations decorate registry (calls ++ [call]) =
      decorating decorate (decorations decorate registry calls) call := by simp [decorations]
  rw [hconcat, decorating]
  cases hd : decorate (decorations decorate registry calls).1 call.1 call.2 with
  | error error => exact .inl rfl
  | ok t => exact .inr ⟨t, rfl, rfl⟩

variable {register : ρ → κ → PyType → Except (Exc ω) ρ} {bases : PyType → List PyType}
  {registry : ρ}

theorem decorations_marked (calls : List (PyType × κ)) :
    Marked (decorations (declare register bases) registry calls).1.attributes
      (decorations (declare register bases) registry calls).2 := by
  induction calls using List.reverseRecOn with
  | nil =>
    constructor
    · simp [decorations, Dict.get?, Dict.empty]
    · simp [decorations, Dict.get?, Dict.empty]
  | append_singleton calls call ih =>
    rcases decorations_concat (declare register bases) registry calls call with hsame | hmade
    · rwa [hsame]
    · obtain ⟨t, ht, hmade⟩ := hmade
      rw [hmade]
      exact ih.declare ht

/-- What every class shows, where each was declared after all that derive from it. -/
theorem attributeOf_of_justified (calls : List (PyType × κ))
    (h : Justified (DerivedFirst bases)
      (decorations (declare register bases) registry calls).2) (cls : PyType) :
    attributeOf bases (decorations (declare register bases) registry calls).1.attributes cls =
      keysOf (decorations (declare register bases) registry calls).2 cls := by
  induction calls using List.reverseRecOn generalizing cls with
  | nil =>
    have hnone : ∀ ancestors : List PyType,
        ancestors.findSome? (Dict.get? (.empty : Dict PyType (List κ))) = none := fun ancestors =>
      List.findSome?_eq_none_iff.mpr fun _ _ => rfl
    simp [decorations, attributeOf, keysOf, hnone]
  | append_singleton calls call ih =>
    rcases decorations_concat (declare register bases) registry calls call with hsame | hmade
    · rw [hsame] at h ⊢
      exact ih h cls
    · obtain ⟨t, ht, hmade⟩ := hmade
      rw [hmade] at h ⊢
      obtain ⟨hearlier, hlast⟩ := justified_concat.mp h
      exact declare_attributeOf (decorations_marked calls) (ih hearlier) ht hlast cls

/-- Whatever was declared, a class shows its own keys just where every class had been declared when
one it derives from was. -/
theorem attributeOf_own_iff (calls : List (PyType × κ)) :
    (∀ pre, pre <+: calls → ∀ cls key,
      key ∈ attributeOf bases (decorations (declare register bases) registry pre).1.attributes cls ↔
        (cls, key) ∈ (decorations (declare register bases) registry pre).2) ↔
    Justified (DerivedFirst bases) (decorations (declare register bases) registry calls).2 := by
  have hown : ∀ calls, Justified (DerivedFirst bases)
      (decorations (declare register bases) registry calls).2 → ∀ cls key,
      key ∈ attributeOf bases (decorations (declare register bases) registry calls).1.attributes
        cls ↔ (cls, key) ∈ (decorations (declare register bases) registry calls).2 := by
    intro calls h cls key
    rw [attributeOf_of_justified calls h cls, mem_keysOf]
  induction calls using List.reverseRecOn with
  | nil =>
    refine iff_of_true (fun pre hpre => ?_) .nil
    obtain rfl := List.prefix_nil.mp hpre
    exact hown [] .nil
  | append_singleton calls call ih =>
    have hcases := decorations_concat (declare register bases) registry calls call
    constructor
    · intro h
      have hearlier := ih.mp fun pre hpre => h pre (hpre.trans (List.prefix_append _ _))
      have hlast := h _ (List.prefix_refl _)
      rcases hcases with hsame | hmade
      · rwa [hsame]
      · obtain ⟨t, ht, hmade⟩ := hmade
        rw [hmade] at hlast ⊢
        exact justified_concat.mpr
          ⟨hearlier, derivedFirst_of_own (decorations_marked calls) ht hlast⟩
    · intro h pre hpre
      rcases List.prefix_concat_iff.mp hpre with rfl | hpre
      · exact hown _ h
      · refine ih.mpr ?_ pre hpre
        rcases hcases with hsame | hmade
        · rwa [hsame] at h
        · obtain ⟨t, -, hmade⟩ := hmade
          rw [hmade] at h
          exact (justified_concat.mp h).1

end Runs

theorem mem_autoconfigured {declaredOn : PyType → List κ} {scanned : List PyType} {cls : PyType}
    {key : κ} : (cls, key) ∈ autoconfigured declaredOn scanned ↔
      cls ∈ scanned ∧ key ∈ declaredOn cls := by
  simp [autoconfigured]

/-- What the bundle makes of the attributes agrees where they do. -/
theorem recorded_iff {declaredOn : PyType → List κ} {made : List (PyType × κ)} :
    Recorded declaredOn made ↔ ∀ cls key, key ∈ declaredOn cls ↔ (cls, key) ∈ made := by
  constructor
  · exact Recorded.own
  · intro h
    exact ⟨h, fun scanned cls key => by rw [mem_autoconfigured, h]⟩

section Registries
variable {bases : PyType → List PyType}

/-- The process's middleware registry holds the bindings made, the last of each name. -/
theorem middleware_registry (calls : List (PyType × String)) :
    (decorations (asMiddleware (ω := ω) bases) .empty calls).1.registry =
      Dict.update .empty ((decorations (asMiddleware (ω := ω) bases) .empty calls).2.map
        Prod.swap) := by
  induction calls using List.reverseRecOn with
  | nil => rfl
  | append_singleton calls call ih =>
    rcases decorations_concat (asMiddleware (ω := ω) bases) .empty calls call with hsame | hmade
    · rwa [hsame]
    · obtain ⟨t, ht, hmade⟩ := hmade
      obtain rfl := Except.ok.inj ht
      rw [hmade]
      have hset : ∀ entries : List (String × PyType), Dict.update .empty (entries ++ [call.swap]) =
          (Dict.update .empty entries).set call.2 call.1 := by simp [Dict.update]
      rw [List.map_append, List.map_singleton, hset, ← ih]

variable [Decorator δ ω] {check : ContainerCheck} {handlerOf : PyType → Handler ω}

theorem asMessageHandler_registry {s t : Declarations PyType (DecoratedHandlers ω δ)}
    {cls messageType : PyType}
    (h : asMessageHandler check handlerOf bases s cls messageType = .ok t) :
    ∃ descriptor : HandlerDescriptor ω, descriptor.handler = (handlerOf cls).id ∧
      t.registry.declared = s.registry.declared.extend messageType descriptor := by
  obtain ⟨registry, hregistry, ht⟩ := bind_eq_ok_iff.mp h
  obtain ⟨d, hd, rfl⟩ := map_eq_ok_iff.mp hregistry
  obtain ⟨declared, hof, hdeclared⟩ := register_declared hd
  obtain rfl := Except.ok.inj ht
  exact ⟨declared, HandlerDescriptor.of_handler hof, hdeclared⟩

/-- The process's handlers registry holds a handler for each binding made. -/
theorem handlers_registry (calls : List (PyType × PyType)) (messageType : PyType) :
    let left := decorations (asMessageHandler (δ := δ) check handlerOf bases) .empty calls
    ((left.1.registry.declared.get? messageType).getD []).map HandlerDescriptor.handler =
      (left.2.filter fun binding => binding.2 = messageType).map fun binding =>
        (handlerOf binding.1).id := by
  intro left
  induction calls using List.reverseRecOn with
  | nil => rfl
  | append_singleton calls call ih =>
    rcases decorations_concat (asMessageHandler (δ := δ) check handlerOf bases) .empty calls call
      with hsame | hmade
    · have hleft : left = _ := hsame
      rw [hleft]
      exact ih
    · obtain ⟨t, ht, hmade⟩ := hmade
      obtain ⟨descriptor, hhandler, hdeclared⟩ := asMessageHandler_registry ht
      have hleft : left = _ := hmade
      rw [hleft, hdeclared, Dict.getD_extend, List.map_append, ih, List.filter_append,
        List.map_append]
      congr 1
      by_cases hm : messageType = call.2
      · simp [hm, hhandler]
      · simp [hm, Ne.symm hm]

/-- The registries hold the bindings made; what is declared on a class, and what the bundle makes of
it, are those made with that class, for every class all along, just where each class was declared
after all that derive from it. So for both decorators. -/
theorem declared_on_iff (bases : PyType → List PyType) (check : ContainerCheck)
    (handlerOf : PyType → Handler ω) (named : List (PyType × String))
    (handled : List (PyType × PyType)) :
    let middleware := decorations (asMiddleware (ω := ω) bases) .empty
    let handlers := decorations (asMessageHandler (δ := δ) check handlerOf bases) .empty
    ((∀ pre, pre <+: named →
        Recorded (middlewareDeclaredOn bases (middleware pre).1) (middleware pre).2) ↔
      Justified (DerivedFirst bases) (middleware named).2) ∧
    ((∀ pre, pre <+: handled →
        Recorded (handlersDeclaredOn bases (handlers pre).1) (handlers pre).2) ↔
      Justified (DerivedFirst bases) (handlers handled).2) ∧
    (middleware named).1.registry =
      Dict.update .empty ((middleware named).2.map Prod.swap) ∧
    ∀ messageType,
      (((handlers handled).1.registry.declared.get? messageType).getD []).map
          HandlerDescriptor.handler =
        ((handlers handled).2.filter fun binding => binding.2 = messageType).map fun binding =>
          (handlerOf binding.1).id := by
  intro middleware handlers
  refine ⟨?_, ?_, middleware_registry named, handlers_registry handled⟩
  · simp only [recorded_iff, middlewareDeclaredOn]
    exact attributeOf_own_iff named
  · simp only [recorded_iff, handlersDeclaredOn, List.mem_eraseDups]
    exact attributeOf_own_iff handled

end Registries

/-- A middleware class and one that derives from it, which nothing declares. -/
theorem name_inherited :
    let audit : PyType := ⟨4, "app.middleware", "Audit"⟩
    let quiet : PyType := ⟨5, "app.middleware", "QuietAudit"⟩
    let bases (cls : PyType) : List PyType := if cls = quiet then [audit, object] else [object]
    let left := decorations (asMiddleware (ω := Sample) bases) .empty [(audit, "audit")]
    left.2 = [(audit, "audit")] ∧
      middlewareDeclaredOn bases left.1 quiet = ["audit"] ∧
      autoconfigured (middlewareDeclaredOn bases left.1) [audit, quiet] =
        [(audit, "audit"), (quiet, "audit")] ∧
      left.1.registry.get? "audit" = some audit := by
  decide

end XtrMessenger.Bus
