import XtrMessenger.Serialization.RoundTrip
import XtrMessenger.Taskiq.Agreement

/-! What reading a delivery's labels may raise, and what of it leaves the task: any serializer, any
body and any labels in place of those a sender wrote. -/
namespace XtrMessenger.Taskiq.Rebuilding
open Foundation
variable {ω α : Type}

/-- `except classes`, with nothing in place of what was raised. -/
def caught (classes : List String) (x : Except (Exc ω) α) : Except (Exc ω) (Option α) :=
  match x with
  | .ok a => .ok (some a)
  | .error error => if error.typeName ∈ classes then .ok none else .error error

inductive Label
  | text (value : PyStr)
  | int (value : Int)
  | bool (value : Bool)
  | seconds (milliseconds : Int)
  | other

abbrev Labels := Dict PyStr Label

structure Encoded where
  body : PyStr
  headers : Dict PyStr PyStr

section Reading

mutual

/-- How deep objects and arrays stand in one another. -/
def nesting : Json → Nat
  | .array items => nestingItems items + 1
  | .object members => nestingMembers members + 1
  | _ => 0

def nestingItems : List Json → Nat
  | [] => 0
  | item :: items => max (nesting item) (nestingItems items)

def nestingMembers : List (PyStr × Json) → Nat
  | [] => 0
  | (_, value) :: members => max (nesting value) (nestingMembers members)

end

/-- An integer with more digits than `int` reads. -/
def isOverlong (text : PyStr) : Bool :=
  text.all (fun c => c = .char '-' || Json.isDigit c) &&
    Numeral.maxDigits < text.countP Json.isDigit

mutual

def holdsOverlong : Json → Bool
  | .number text => isOverlong text
  | .array items => anyOverlong items
  | .object members => memberOverlong members
  | _ => false

def anyOverlong : List Json → Bool
  | [] => false
  | item :: items => holdsOverlong item || anyOverlong items

def memberOverlong : List (PyStr × Json) → Bool
  | [] => false
  | (_, value) :: members => holdsOverlong value || memberOverlong members

end

/-- `json.loads` where it follows so much nesting. Of what it raises only the class is told; text
that is not JSON may run out of nesting before that shows, and is raised as the other then. -/
def loads (limit : Nat) (s : PyStr) : Except (Exc ω) Json :=
  match Json.loads s with
  | none => .error (.exception "ValueError" "")
  | some read =>
    if limit < nesting read then .error (.exception "RecursionError" "")
    else if holdsOverlong read then .error (.exception "ValueError" "")
    else .ok read

/-- `int(raw)`; of what it raises only the class is told. -/
def int [Numerals] : Label → Except (Exc ω) Int
  | .text s => match Numeral.intOf s with
    | some n => .ok n
    | none => .error (.exception "ValueError" "")
  | .int n => .ok n
  | .bool value => .ok (if value then 1 else 0)
  | .seconds milliseconds => .ok (milliseconds.tdiv 1000)
  | .other => .error (.exception "TypeError" "")

/-- `isinstance(raw, bool) or not isinstance(raw, (int, str))`. -/
def isNoCount : Label → Bool
  | .text _ => false
  | .int _ => false
  | _ => true

end Reading

section Model

def retriesFrom [Numerals] (labels : Labels) : Except (Exc ω) (Option Int) :=
  match labels.get? (points retriesLabel) with
  | none => .ok none
  | some raw => if isNoCount raw then .ok none else caught ["ValueError"] (int raw)

def attemptFrom [Numerals] (labels : Labels) : Except (Exc ω) Int := do
  let retries ← retriesFrom labels
  return match retries with
    | none => lostLabelAttempt
    | some retries => retries

def headersFrom [Unicode] (limit : Nat) (raw : Option Label) (taskName : String) :
    Except (Exc ω) (Dict PyStr PyStr) :=
  match raw with
  | some (.text raw) => do
    let parsed ← caught ["ValueError", "RecursionError"] (loads limit raw)
    match parsed with
    | some (.object members) =>
      match stringsOf (Dict.update .empty members) with
      | some headers => return Dict.update .empty headers
      | none => refused
    | _ => refused
  | _ => return Dict.update .empty [(points typeHeader, points taskName)]
where
  refused : Except (Exc ω) (Dict PyStr PyStr) := .error (Exc.messageDecodingFailedError
    "headers label must hold a JSON object of strings" (some taskName))

/-- `_rebuild`, of any serializer. -/
def rebuild [Unicode] [Numerals] [PyObject ω] (limit : Nat) (messages : MessageRegistry)
    (decode : Encoded → Except (Exc ω) (Envelope ω)) (body : PyStr) (labels : Labels)
    (taskName receiverName : String) : Except (Exc ω) (Envelope ω) := do
  let headers ← headersFrom limit (labels.get? (points headersLabel)) taskName
  let envelope ← decode ⟨body, headers⟩
  let decoded := messages.nameOf (PyObject.typeOf envelope.message)
  if decoded ≠ taskName then
    throw (Exc.messageDecodingFailedError ("decoded message is " ++ pyRepr decoded ++
      ", but the task is " ++ pyRepr taskName) (some taskName))
  let attempt ← attemptFrom labels
  return envelope.withStamps [.shipped (.received receiverName), .shipped (.redelivery attempt)]

end Model

/-- The count a delivery's labels tell: an integer, or a text that reads as one. -/
def countOf [Numerals] (labels : Labels) : Option Int :=
  match labels.get? (points retriesLabel) with
  | some (.int n) => some n
  | some (.text s) => Numeral.intOf s
  | _ => none

/-- `isinstance(error, MessageDecodingFailedError)`. -/
def DecodingFailed (error : Exc ω) : Prop :=
  ∃ reason messageName text, error = .messageDecodingFailed reason messageName text

section Raises

theorem caught_of_raises {classes : List String} {x : Except (Exc ω) α}
    (h : ∀ error, x = .error error → error.typeName ∈ classes) : ∃ a, caught classes x = .ok a := by
  cases x with
  | ok a => exact ⟨some a, rfl⟩
  | error error => exact ⟨none, if_pos (h error rfl)⟩

theorem loads_raises {limit : Nat} {s : PyStr} {error : Exc ω}
    (h : loads limit s = .error error) : error.typeName ∈ ["ValueError", "RecursionError"] := by
  unfold loads at h
  split at h
  · rw [← Except.error.inj h]
    simp [Exc.typeName]
  · split_ifs at h
    · rw [← Except.error.inj h]
      simp [Exc.typeName]
    · rw [← Except.error.inj h]
      simp [Exc.typeName]

/-- Only a text `int` does not read is caught, and nothing else is raised. -/
theorem retriesFrom_eq [Numerals] (labels : Labels) :
    (retriesFrom labels : Except (Exc ω) _) = .ok (countOf labels) := by
  unfold retriesFrom countOf
  cases labels.get? (points retriesLabel) with
  | none => rfl
  | some raw =>
    cases raw with
    | text s => cases h : Numeral.intOf s <;> simp [isNoCount, int, caught, h, Exc.typeName]
    | int n => rfl
    | bool value => rfl
    | seconds milliseconds => rfl
    | other => rfl

theorem attemptFrom_eq [Numerals] (labels : Labels) :
    (attemptFrom labels : Except (Exc ω) _) = .ok ((countOf labels).getD lostLabelAttempt) := by
  rw [attemptFrom, retriesFrom_eq]
  cases countOf labels <;> rfl

variable [Unicode]

theorem decodingFailed (reason : String) (messageName : Option String) :
    DecodingFailed (Exc.messageDecodingFailedError reason messageName : Exc ω) := ⟨_, _, _, rfl⟩

/-- Whatever the label holds, its headers are read or it is refused. -/
theorem headersFrom_cases (limit : Nat) (raw : Option Label) (taskName : String) :
    (∃ headers, (headersFrom limit raw taskName : Except (Exc ω) _) = .ok headers) ∨
      (headersFrom limit raw taskName : Except (Exc ω) _) = headersFrom.refused taskName := by
  unfold headersFrom
  split
  · rename_i raw
    obtain ⟨parsed, hparsed⟩ := caught_of_raises (x := (loads limit raw : Except (Exc ω) Json))
      fun _ => loads_raises
    rw [hparsed]
    simp only [bind, Except.bind]
    split
    · split
      · exact .inl ⟨_, rfl⟩
      · exact .inr rfl
    · exact .inr rfl
  · exact .inl ⟨_, rfl⟩

variable [Numerals] [PyObject ω]

/-- What rebuilding ends in: the label refused, what decoding raised, another name refused, or the
envelope decoded, stamped. -/
theorem rebuild_cases (limit : Nat) (messages : MessageRegistry)
    (decode : Encoded → Except (Exc ω) (Envelope ω)) (body : PyStr) (labels : Labels)
    (taskName receiverName : String) :
    let rebuilt := rebuild limit messages decode body labels taskName receiverName
    (∃ error, rebuilt = .error error ∧
        (DecodingFailed error ∨ ∃ encoded, decode encoded = .error error)) ∨
      ∃ envelope : Envelope ω, messages.nameOf (PyObject.typeOf envelope.message) = taskName ∧
        rebuilt = .ok (envelope.withStamps [.shipped (.received receiverName),
          .shipped (.redelivery ((countOf labels).getD lostLabelAttempt))]) := by
  unfold rebuild
  rcases headersFrom_cases (ω := ω) limit (labels.get? (points headersLabel)) taskName with
    ⟨headers, hheaders⟩ | hrefused
  · rw [hheaders, attemptFrom_eq]
    cases hdecode : decode ⟨body, headers⟩ with
    | error error => exact .inl ⟨error, by simp [bind, Except.bind, hdecode], .inr ⟨_, hdecode⟩⟩
    | ok envelope =>
      by_cases hname : messages.nameOf (PyObject.typeOf envelope.message) = taskName
      · exact .inr ⟨envelope, hname, by
          simp [bind, Except.bind, hdecode, hname, pure, Except.pure]⟩
      · refine .inl ⟨_, ?_, .inl (decodingFailed ("decoded message is " ++ pyRepr (messages.nameOf
          (PyObject.typeOf envelope.message)) ++ ", but the task is " ++ pyRepr taskName)
          (some taskName))⟩
        simp only [bind, Except.bind, hdecode]
        rw [if_pos hname]
        rfl
  · rw [hrefused]
    exact .inl ⟨_, rfl, .inl (decodingFailed _ _)⟩

end Raises

section Dispatched
variable {b : Binding ω} {world : World ω} {name : String} {message : Message}
  {envelope sent : Envelope ω} {answer : Except (Exc ω) (Envelope ω)}

theorem handle_dispatch {bus : Bus ω} {dispatcher : Option (Listeners ω)}
    (h : .dispatch sent answer ∈ (handle bus envelope name dispatcher).calls) :
    sent.message = envelope.message := by
  cases dispatcher with
  | none =>
    rw [handle_none] at h
    simp only [List.mem_singleton, Call.dispatch.injEq] at h
    rw [h.1]
  | some listeners =>
    rw [handle_some] at h
    rcases hr : listeners.received envelope name with error | ⟨stamps, _ | _⟩
    · simp [hr] at h
    · simp [hr] at h
    · rcases hb : bus (envelope.withStamps stamps) with error | answer
      · simp only [hr, hb, List.mem_cons, List.not_mem_nil, or_false, reduceCtorEq, false_or,
          Call.dispatch.injEq] at h
        rw [h.1, Envelope.withStamps_message]
      · simp only [hr, hb, List.mem_cons, List.not_mem_nil, or_false, reduceCtorEq, false_or,
          Call.dispatch.injEq] at h
        rw [h.1, Envelope.withStamps_message]

theorem answering_dispatched (outcome : XtrMessenger.Outcome ω) :
    ∀ c ∈ (b.answering world name outcome).calls, dispatched? c = none := by
  cases outcome with
  | handled settled => simp [Binding.answering]
  | skipped settled => simp [Binding.answering]
  | failed current error =>
    rcases hd : errorDetailsOf error with raised | details
    · rw [(unreportable_calls b world name none current hd).2]
      simp
    · obtain ⟨htails, -⟩ := failed_tails b world name none current hd
      exact fun c hc => (htails.tasked c hc).1

theorem resetting_dispatched : ∀ c ∈ (b.resetting world).calls, dispatched? c = none := by
  unfold Binding.resetting
  split_ifs <;> simp [dispatched?]

/-- The bus is called about nothing but the message rebuilt. -/
theorem body_dispatch {rebuilt : Except (Exc ω) (Envelope ω)}
    (h : .about (.dispatch sent answer) ∈ (b.body world name message rebuilt).calls) :
    ∃ envelope, rebuilt = .ok envelope ∧ sent.message = envelope.message := by
  have hquiet : ∀ calls : List (Call ω), (∀ c ∈ calls, dispatched? c = none) →
      Call.dispatch sent answer ∉ calls := by
    intro calls hcalls hsent
    cases hcalls _ hsent
  cases rebuilt with
  | ok envelope =>
    obtain ⟨outcome, houtcome, -⟩ := handle_told b world name envelope
    obtain ⟨hcalls, -⟩ := body_ok message houtcome
    have hsent : Call.dispatch sent answer ∈
        (b.body world name message (.ok envelope)).calls.filterMap TaskCall.about? :=
      List.mem_filterMap.mpr ⟨_, h, rfl⟩
    rw [hcalls, List.mem_append, List.mem_append] at hsent
    rcases hsent with hsent | hsent | hsent
    · exact ⟨envelope, rfl, handle_dispatch hsent⟩
    · exact absurd hsent (hquiet _ (answering_dispatched outcome))
    · exact absurd hsent (hquiet _ resetting_dispatched)
  | error error =>
    have hreset : TaskCall.about (.dispatch sent answer) ∈
        (b.resetting world).calls.map TaskCall.about := by
      simp only [Binding.body, Traced.finallyDo_calls, Traced.mapCalls_calls, List.mem_append] at h
      rcases h with h | h
      · split at h
        · rename_i hok
          cases hok
        · simp at h
        · simp at h
      · exact h
    obtain ⟨c, hc, hsame⟩ := List.mem_map.mp hreset
    rw [TaskCall.about.inj hsame] at hc
    exact absurd hc (hquiet _ resetting_dispatched)

end Dispatched

/-- However a delivery is labelled and whatever its body, where decoding raises nothing but
`MessageDecodingFailedError`, rebuilding raises nothing else: it returns a message the task is
named after, with the attempt its label counts, or a very late one. The bus is called about no
message that is declared under another name or by another class. -/
theorem rebuilds_or_refuses [Unicode] [Numerals] [PyObject ω] (limit : Nat)
    (messages : MessageRegistry) {decode : Encoded → Except (Exc ω) (Envelope ω)}
    (hdecode : ∀ encoded error, decode encoded = .error error → DecodingFailed error)
    (body : PyStr) (labels : Labels) (taskName receiverName : String) :
    let rebuilt := rebuild limit messages decode body labels taskName receiverName
    ((∃ envelope, rebuilt = .ok envelope ∧
        messages.nameOf (PyObject.typeOf envelope.message) = taskName ∧
        envelope.last (.shipped .redelivery) = some (.shipped (.redelivery
          ((countOf labels).getD lostLabelAttempt)))) ∨
      ∃ error, rebuilt = .error error ∧ DecodingFailed error) ∧
    ∀ (b : Binding ω) (world : World ω) (message : Message) sent answer,
      .about (.dispatch sent answer) ∈ (b.body world receiverName message rebuilt).calls →
        messages.nameOf (PyObject.typeOf sent.message) = taskName ∧
          ∀ name, messages.nameByType.get? (PyObject.typeOf sent.message) = some name →
            name = taskName ∧ ∀ messageType,
              messages.nameByType.get? messageType = some taskName →
                messageType = PyObject.typeOf sent.message := by
  intro rebuilt
  have hcases := rebuild_cases limit messages decode body labels taskName receiverName
  constructor
  · rcases hcases with ⟨error, hraised, herror⟩ | ⟨envelope, hname, hreturned⟩
    · refine .inr ⟨error, hraised, ?_⟩
      rcases herror with hfailed | ⟨encoded, hencoded⟩
      · exact hfailed
      · exact hdecode encoded error hencoded
    · have hlast := envelope.last_withStamps_of_isInstance (b := .shipped .redelivery)
        (s := .shipped (.redelivery ((countOf labels).getD lostLabelAttempt))) rfl
        [.shipped (.received receiverName)]
      exact .inl ⟨_, hreturned, hname, hlast⟩
  · intro b world message sent answer hsent
    obtain ⟨envelope, hreturned, hmessage⟩ := body_dispatch hsent
    have hnamed : messages.nameOf (PyObject.typeOf sent.message) = taskName := by
      rcases hcases with ⟨error, hraised, -⟩ | ⟨decoded, hname, hdecoded⟩
      · cases hraised.symm.trans hreturned
      · have hsame := Except.ok.inj (hdecoded.symm.trans hreturned)
        rwa [hmessage, ← hsame, Envelope.withStamps_message]
    refine ⟨hnamed, ?_⟩
    intro name hdeclared
    have hsame : name = taskName := by
      rw [MessageRegistry.nameOf, hdeclared] at hnamed
      exact hnamed
    refine ⟨hsame, ?_⟩
    intro messageType hother
    have htype := messages.coherent _ _ (hsame ▸ hdeclared)
    have htype' := messages.coherent _ _ hother
    exact Option.some.inj (htype'.symm.trans htype)

section JsonSerializer

theorem mapError_raises {β : Type} {x : Except String β} {f : String → Exc ω} {error : Exc ω}
    (hf : ∀ text, DecodingFailed (f text)) (h : x.mapError f = .error error) :
    DecodingFailed error := by
  cases x with
  | ok b => cases h
  | error text => exact Except.error.inj h ▸ hf text

variable [Unicode] {serializer : JsonSerializer ω}

theorem decodeStamps_raises {stamps : StampRegistry} {headers : Dict String String}
    {name : String} {error : Exc ω}
    (h : serializer.decodeStamps stamps headers name = .error error) : DecodingFailed error := by
  unfold JsonSerializer.decodeStamps at h
  cases hpass : headers.entries.mapM (serializer.decodeHeader stamps name) with
  | ok read =>
    rw [hpass] at h
    cases h
  | error raised =>
    have hsame : raised = error := by simpa [hpass, Except.map] using h
    obtain ⟨entry, -, hentry⟩ := exists_of_mapM_eq_error hpass
    unfold JsonSerializer.decodeHeader at hentry
    split at hentry
    · cases hentry
    · exact hsame ▸ mapError_raises (fun _ => decodingFailed _ _) hentry

/-- The package's own serializer raises nothing else. -/
theorem decode_raises {messages : MessageRegistry} {stamps : StampRegistry}
    (encoded : EncodedEnvelope) (error : Exc ω)
    (h : serializer.decode messages stamps encoded = .error error) : DecodingFailed error := by
  unfold JsonSerializer.decode at h
  dsimp only at h
  split_ifs at h
  · exact Except.error.inj h ▸ decodingFailed _ _
  · split at h
    · exact Except.error.inj h ▸ decodingFailed _ _
    · rename_i messageType _
      cases hmessage : ((serializer.serializer.deserialize (.cls messageType) encoded.body).mapError
          fun text => (Exc.messageDecodingFailedError text
            (some ((encoded.headers.get? typeHeader).getD "")) : Exc ω)) with
      | error raised =>
        have hsame : raised = error := by simpa [hmessage, bind, Except.bind] using h
        exact hsame ▸ mapError_raises (fun _ => decodingFailed _ _) hmessage
      | ok message =>
        cases hstamps : serializer.decodeStamps stamps encoded.headers
            ((encoded.headers.get? typeHeader).getD "") with
        | error raised =>
          have hsame : raised = error := by simpa [hmessage, hstamps, bind, Except.bind] using h
          exact hsame ▸ decodeStamps_raises hstamps
        | ok read => simp [hmessage, hstamps, bind, Except.bind, pure, Except.pure] at h

end JsonSerializer

section Connected

def ofLabel : Taskiq.Label → Label
  | .text value => .text (points value)
  | .int value => .int value
  | .bool value => .bool value
  | .seconds milliseconds => .seconds milliseconds
  | .other => .other

/-- Labels of texts in which no surrogate stands alone. -/
def ofLabels (labels : Taskiq.Labels) : Labels where
  entries := labels.entries.map fun (name, label) => (points name, ofLabel label)
  nodup := by
    have hkeys : (labels.entries.map fun (name, label) => (points name, ofLabel label)).map
        Prod.fst = (labels.entries.map Prod.fst).map points := by simp
    rw [hkeys]
    exact labels.nodup.map points_injective

theorem get?_ofLabels (labels : Taskiq.Labels) (name : String) :
    (ofLabels labels).get? (points name) = (labels.get? name).map ofLabel := by
  simp [Dict.get?, ofLabels, List.find?_map, Function.comp_def, points_injective.eq_iff]

theorem countOf_ofLabels [Numerals] (labels : Taskiq.Labels) :
    countOf (ofLabels labels) = Taskiq.retriesFrom labels := by
  rw [countOf, Taskiq.retriesFrom, get?_ofLabels]
  rcases labels.get? retriesLabel with _ | _ | _ | _ | _ | _ <;> rfl

theorem mapM_stringOf_names {entries : List (PyStr × Json)} {headers : List (PyStr × PyStr)}
    (h : entries.mapM stringOf = some headers) :
    headers.map Prod.fst = entries.map Prod.fst := by
  induction entries generalizing headers with
  | nil =>
    cases h
    rfl
  | cons entry entries ih =>
    obtain ⟨name, value⟩ := entry
    cases value with
    | string text =>
      simp only [List.mapM_cons, stringOf, Option.bind_eq_bind, Option.bind_some,
        Option.bind_eq_some_iff] at h
      obtain ⟨others, hothers, hheaders⟩ := h
      rw [← Option.some.inj hheaders, List.map_cons, List.map_cons, ih hothers]
    | null => cases h
    | bool value => cases h
    | number text => cases h
    | array items => cases h
    | object members => cases h

theorem stringsOf_entries {members : Dict PyStr Json} {headers : List (PyStr × PyStr)}
    (h : stringsOf members = some headers) : (Dict.update .empty headers).entries = headers := by
  rw [Dict.update_entries]
  · rfl
  · have hnames := mapM_stringOf_names h
    simp only [Dict.keys, Dict.empty, List.map_nil, List.nil_append, hnames]
    exact members.nodup

variable [Unicode]

/-- A serializer of texts: where a surrogate stands alone it refuses. -/
def decodeTexts (taskName : String) (decode : EncodedEnvelope → Except (Exc ω) (Envelope ω))
    (encoded : Encoded) : Except (Exc ω) (Envelope ω) :=
  match encoded.body.string?, textsOf encoded.headers.entries with
  | some body, some headers => decode ⟨body, Dict.update .empty headers⟩
  | _, _ => .error (Exc.messageDecodingFailedError
      "headers label must hold a JSON object of strings" (some taskName))

theorem decodeTexts_raises {taskName : String}
    {decode : EncodedEnvelope → Except (Exc ω) (Envelope ω)}
    (hdecode : ∀ encoded error, decode encoded = .error error → DecodingFailed error)
    (encoded : Encoded) (error : Exc ω) (h : decodeTexts taskName decode encoded = .error error) :
    DecodingFailed error := by
  unfold decodeTexts at h
  split at h
  · exact hdecode _ error h
  · exact Except.error.inj h ▸ decodingFailed _ _

theorem decodeTexts_update {taskName body : String} {headers : List (PyStr × PyStr)}
    (hentries : (Dict.update .empty headers).entries = headers)
    (decode : EncodedEnvelope → Except (Exc ω) (Envelope ω)) :
    decodeTexts taskName decode ⟨points body, Dict.update .empty headers⟩ =
      (match textsOf headers with
        | some texts => Except.ok (Dict.update .empty texts)
        | none => Taskiq.headersFrom.refused taskName) >>= fun headers =>
          decode ⟨body, headers⟩ := by
  rw [decodeTexts, PyStr.string?_points, hentries]
  cases textsOf headers <;> rfl

/-- Where a label's text nests no deeper and holds no longer number than `json.loads` follows,
what is decoded of it is what a task of texts decodes. -/
theorem headersFrom_texts {limit : Nat} {raw : Option Taskiq.Label} (h : ∀ text read,
      raw = some (.text text) → Json.loads (points text) = some read →
        nesting read ≤ limit ∧ holdsOverlong read = false) (body taskName : String)
    (decode : EncodedEnvelope → Except (Exc ω) (Envelope ω)) : (do
      let headers ← headersFrom limit (raw.map ofLabel) taskName
      decodeTexts taskName decode ⟨points body, headers⟩) = (do
      let headers ← Taskiq.headersFrom raw taskName
      decode ⟨body, headers⟩) := by
  have hlone : ∀ raw, (∀ text, raw ≠ some (.text text)) → (do
      let headers ← headersFrom limit (raw.map ofLabel) taskName
      decodeTexts taskName decode ⟨points body, headers⟩) =
        decode ⟨body, Dict.update .empty [(typeHeader, taskName)]⟩ := by
    intro raw hraw
    have hheaders : (headersFrom limit (raw.map ofLabel) taskName : Except (Exc ω) _) =
        .ok (Dict.update .empty [(points typeHeader, points taskName)]) := by
      rcases raw with _ | _ | _ | _ | _ | _
      all_goals first | rfl | exact absurd rfl (hraw _)
    have htexts : textsOf [(points typeHeader, points taskName)] =
        some [(typeHeader, taskName)] := textsOf_points [(typeHeader, taskName)]
    have hentries : (Dict.update .empty [(points typeHeader, points taskName)]).entries =
        [(points typeHeader, points taskName)] := rfl
    rw [hheaders]
    refine (decodeTexts_update hentries decode).trans ?_
    rw [htexts]
    rfl
  rcases raw with _ | text | n | value | milliseconds | _
  · exact hlone none (by simp)
  · unfold headersFrom Taskiq.headersFrom
    simp only [Option.map_some, ofLabel]
    cases hread : Json.loads (points text) with
    | none => simp [loads, hread, caught, Exc.typeName, bind, Except.bind]; rfl
    | some read =>
      obtain ⟨hnesting, hnumbers⟩ := h text read rfl hread
      have hfollowed : ¬limit < nesting read := by omega
      have hloads : (loads limit (points text) : Except (Exc ω) Json) = .ok read := by
        rw [loads, hread]
        simp [hfollowed, hnumbers]
      rw [hloads]
      cases read with
      | object members =>
        cases hstrings : stringsOf (Dict.update .empty members) with
        | none => simp [caught, hstrings, bind, Except.bind]; rfl
        | some headers =>
          simp only [caught, hstrings, bind, Except.bind, pure, Except.pure, Option.bind_some]
          exact decodeTexts_update (stringsOf_entries hstrings) decode
      | null => rfl
      | bool value => rfl
      | number text => rfl
      | string text => rfl
      | array items => rfl
  · exact hlone (some (.int n)) (by simp)
  · exact hlone (some (.bool value)) (by simp)
  · exact hlone (some (.seconds milliseconds)) (by simp)
  · exact hlone (some .other) (by simp)

/-- The one serializer the package has, on labels of texts that `json.loads` follows. -/
theorem rebuild_eq [Numerals] [PyObject ω] {limit : Nat} {labels : Taskiq.Labels}
    (h : ∀ text read, labels.get? headersLabel = some (.text text) →
      Json.loads (points text) = some read → nesting read ≤ limit ∧ holdsOverlong read = false)
    (declared : Declared) (serializer : JsonSerializer ω) (body taskName receiverName : String) :
    rebuild limit declared.messages (decodeTexts taskName
        (serializer.decode declared.messages declared.stamps)) (points body) (ofLabels labels)
        taskName receiverName =
      Taskiq.rebuild declared body labels taskName serializer receiverName := by
  have hdecoded := headersFrom_texts h body taskName
    (serializer.decode declared.messages declared.stamps)
  rw [← get?_ofLabels] at hdecoded
  unfold rebuild Taskiq.rebuild
  rw [← bind_assoc, hdecoded, bind_assoc]
  simp only [attemptFrom_eq, countOf_ofLabels]
  rfl

end Connected

section Sample
attribute [local instance] Unicode.ascii Numerals.ascii
open JsonSerializer

/-- The labels of a delivery whose retry count is a boolean, and whose headers hold a surrogate
that stands alone. -/
def lostLabels : Labels := Dict.update .empty [(points retriesLabel, .bool true),
  (points headersLabel, .text (points
    "\x7b\"type\": \"test.number.v1\", \"x\": \"\\ud800\"\x7d"))]

/-- A serializer that reads no header but the type. -/
def decodeSample (encoded : Encoded) : Except (Exc Int) (Envelope Int) :=
  if encoded.headers.get? (points typeHeader) = some (points "test.number.v1") then .ok ⟨5, []⟩
  else .error (Exc.messageDecodingFailedError "no such message" none)

theorem decodeSample_raises (encoded : Encoded) (error : Exc Int)
    (h : decodeSample encoded = .error error) : DecodingFailed error := by
  unfold decodeSample at h
  split_ifs at h
  exact Except.error.inj h ▸ decodingFailed _ _

theorem rebuilds_or_refuses_lost : ∃ envelope,
    rebuild 1000 sampleMessages decodeSample (points "5") lostLabels "test.number.v1" "async" =
        .ok envelope ∧
      sampleMessages.nameOf (PyObject.typeOf envelope.message) = "test.number.v1" ∧
      envelope.last (.shipped .redelivery) = some (.shipped (.redelivery 1000000)) := by
  have hreturned : (rebuild 1000 sampleMessages decodeSample (points "5") lostLabels
      "test.number.v1" "async").isOk = true := by decide +kernel
  obtain ⟨hends, -⟩ := rebuilds_or_refuses 1000 sampleMessages decodeSample_raises (points "5")
    lostLabels "test.number.v1" "async"
  rcases hends with hends | ⟨error, hraised, -⟩
  · exact hends
  · rw [hraised] at hreturned
    cases hreturned

end Sample

end XtrMessenger.Taskiq.Rebuilding
