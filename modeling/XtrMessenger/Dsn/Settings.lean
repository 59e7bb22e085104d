import XtrMessenger.Dsn.Parsing
import XtrMessenger.Url.Query

/-! The settings of a transport: from its DSN's query string, its options and its queue. -/
namespace XtrMessenger.Dsn
open Foundation Url

/-- A mapping of setting names to their values. -/
abbrev Settings := Dict (List Char) (List Char)

/-- `dict(fields)`: of a name given twice, the last value. -/
def dictOf (fields : List (List Char × List Char)) : Settings := Dict.update .empty fields

/-- `split.query`. -/
def queryOf (raw : List Char) : List Char := (divided raw).query

/-- `Dsn.options` of a DSN that is accepted. -/
def options (dsn : Dsn) : Settings := dictOf (parseQsl (queryOf dsn.raw) false)

/-- What a DSN, `options` and the queue field make together: each wins over what is before it. -/
def merged (written : Settings) (config : TransportConfig) : Settings :=
  let merged := written.update config.options.entries.entries
  match config.queue with
  | none => merged
  | some queue => merged.set "queue".toList queue

def TransportConfig.settings [Unicode] (config : TransportConfig) :
    Except InvalidDsnError Settings := do
  let dsn ← config.parsed
  return merged dsn.options config

/-- What was written for a transport: every field of the query string, with or without a value,
then `options` and the queue field. -/
def intended (config : TransportConfig) : Settings :=
  merged (dictOf (parseQsl (queryOf config.dsn) true)) config

/-- The last field of a query string that gives the setting. -/
def lastField (query name : List Char) : Option Field :=
  ((fieldsOf query).filter fun field => readForm field.name = name).getLast?

theorem raw_of_parse [Unicode] {raw : List Char} {dsn : Dsn} (h : parse raw = .ok dsn) :
    dsn.raw = raw := by
  unfold parse at h
  split_ifs at h
  split at h
  · simp at h
  · dsimp only at h
    split_ifs at h
    rw [← Except.ok.inj h]

section Merged
variable {config : TransportConfig} {written written' : Settings} {name query : List Char}

theorem mem_keys_merged : name ∈ (merged written config).keys ↔ name ∈ written.keys ∨
    name ∈ config.options.entries.keys ∨ config.queue.isSome = true ∧ name = "queue".toList := by
  unfold merged
  cases hqueue : config.queue with
  | none =>
    simp only [Option.isSome_none, Bool.false_eq_true, false_and, or_false]
    exact Dict.mem_keys_update _ _
  | some queue =>
    simp only [Dict.mem_keys_set, Dict.mem_keys_update, Option.isSome_some, true_and]
    simp only [Dict.keys]
    tauto

/-- A setting that `options` and the queue field leave alone. -/
def Left (config : TransportConfig) (name : List Char) : Prop :=
  name ∉ config.options.entries.keys ∧ (config.queue.isSome = true → name ≠ "queue".toList)

theorem getLast?_map_of_notMem {entries : List (List Char × List Char)}
    (h : name ∉ entries.map Prod.fst) : (entries.filter fun e => e.1 = name) = [] := by
  apply List.filter_eq_nil_iff.mpr
  intro e he hname
  exact h (List.mem_map.mpr ⟨e, he, by simpa using hname⟩)

theorem get?_merged_of_left (h : Left config name) :
    (merged written config).get? name = written.get? name := by
  have hupdate : (written.update config.options.entries.entries).get? name = written.get? name := by
    rw [Dict.get?_update, getLast?_map_of_notMem h.1]
    rfl
  unfold merged
  cases hqueue : config.queue with
  | none => exact hupdate
  | some queue =>
    rw [Dict.get?_set, if_neg (h.2 (by simp [hqueue])), hupdate]

/-- What is not left alone does not depend on the DSN. -/
theorem get?_merged_of_not_left (h : ¬Left config name) :
    (merged written config).get? name = (merged written' config).get? name := by
  have hupdate : name ∈ config.options.entries.keys →
      (written.update config.options.entries.entries).get? name =
        (written'.update config.options.entries.entries).get? name := by
    intro hkey
    rw [Dict.get?_update, Dict.get?_update]
    obtain ⟨e, he, hname⟩ := List.mem_map.mp hkey
    have hne : (config.options.entries.entries.filter fun e => e.1 = name) ≠ [] :=
      List.ne_nil_of_mem (List.mem_filter.mpr ⟨he, by simpa using hname⟩)
    rw [List.getLast?_eq_getLast_of_ne_nil hne]
    rfl
  unfold merged
  cases hqueue : config.queue with
  | none =>
    apply hupdate
    by_contra hnot
    exact h ⟨hnot, by simp [hqueue]⟩
  | some queue =>
    dsimp only
    rw [Dict.get?_set, Dict.get?_set]
    split_ifs with hname
    · rfl
    · apply hupdate
      by_contra hnot
      exact h ⟨hnot, fun _ => hname⟩

end Merged

section Fields
variable {query name : List Char} {keep : Bool}

theorem mem_keys_dictOf {fields : List (List Char × List Char)} :
    name ∈ (dictOf fields).keys ↔ name ∈ fields.map Prod.fst := by
  rw [dictOf, Dict.mem_keys_update]
  simp [Dict.keys, Dict.empty]

theorem mem_keys_parseQsl : name ∈ (dictOf (parseQsl query keep)).keys ↔
    ∃ field ∈ fieldsOf query, (keep = true ∨ field.value ≠ []) ∧ readForm field.name = name := by
  rw [mem_keys_dictOf]
  simp [parseQsl, and_assoc]

theorem get?_parseQsl : (dictOf (parseQsl query keep)).get? name =
    (((fieldsOf query).filter fun field => readForm field.name = name).filter
      fun field => keep || field.value ≠ []).getLast?.map fun field => readForm field.value := by
  have hempty : (Dict.empty : Settings).get? name = none := rfl
  have hswap : ((fieldsOf query).filter fun field => keep || field.value ≠ []).filter
      (fun field => readForm field.name = name) =
        ((fieldsOf query).filter fun field => readForm field.name = name).filter
          fun field => keep || field.value ≠ [] := by
    rw [List.filter_filter, List.filter_filter]
    apply List.filter_congr
    intro field _
    rw [Bool.and_comm]
  rw [dictOf, Dict.get?_update, parseQsl, List.filter_map, List.getLast?_map, hempty,
    Option.or_none, Option.map_map, ← hswap]
  rfl

theorem get?_kept : (dictOf (parseQsl query true)).get? name =
    (lastField query name).map fun field => readForm field.value := by
  rw [get?_parseQsl]
  simp [lastField]

/-- What is read of a setting is what was written of it, unless its last field has no value. -/
theorem get?_read_iff : (dictOf (parseQsl query false)).get? name =
    (dictOf (parseQsl query true)).get? name ↔
      ∀ field, lastField query name = some field → field.value ≠ [] := by
  rw [get?_kept, get?_parseQsl, lastField]
  cases hl : ((fieldsOf query).filter fun field => readForm field.name = name).getLast? with
  | none =>
    rw [List.getLast?_eq_none_iff] at hl
    simp [hl]
  | some last =>
    obtain ⟨init, hinit⟩ := List.getLast?_eq_some_iff.mp hl
    rw [hinit, List.filter_append]
    by_cases hvalue : last.value = []
    · -- a value that is read is not empty
      have hlast : ([last].filter fun field => false || field.value ≠ []) = [] := by
        simp [hvalue]
      rw [hlast, List.append_nil]
      apply iff_of_false
      · intro hread
        rw [Option.map_some, hvalue, Option.map_eq_some_iff] at hread
        obtain ⟨field, hfield, hblank⟩ := hread
        have hkept := (List.mem_filter.mp (List.mem_of_getLast? hfield)).2
        have hnil : field.value = [] := readForm_eq_nil_iff.mp hblank
        simp [hnil] at hkept
      · intro hall
        exact hall last rfl hvalue
    · have hlast : ([last].filter fun field => false || field.value ≠ []) = [last] := by
        simp [hvalue]
      rw [hlast]
      simp [hvalue]

end Fields

end XtrMessenger.Dsn
