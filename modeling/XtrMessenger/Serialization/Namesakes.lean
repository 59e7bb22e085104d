import XtrMessenger.Serialization.Forged

/-! Stamp classes of one name: what is written under a name, and what is read back of it. -/
namespace XtrMessenger
open Foundation
variable {ω : Type}

namespace JsonSerializer

/-- The class restored under a name: of the stamp types given, else of those shipped and
declared. -/
def restored (stampTypes : Option (List StampClass)) (stamps : StampRegistry) (name : String) :
    Option StampClass :=
  match stampTypes with
  | none => stamps.stampTypeFor name
  | some stampTypes => (stampsByName stampTypes).get? name

theorem stampTypeFor_create (x : XtrSerializer ω) (stampTypes : Option (List StampClass))
    (stamps : StampRegistry) (name : String) :
    (create x stampTypes).stampTypeFor stamps name = restored stampTypes stamps name := by
  cases stampTypes <;> rfl

/-- Decoding what was encoded fails for its message alone, and every stamp that is restored is one
the envelope carried. -/
structure Carried [Unicode] (s : JsonSerializer ω) (stamps : StampRegistry)
    (messages : MessageRegistry) (e : Envelope ω) (encoded : EncodedEnvelope) : Prop where
  /-- The same error, whatever the stamp headers. -/
  failure : ∀ error, s.decode messages stamps encoded = .error error →
    ∀ headers : Dict String String,
      headers.get? typeHeader = encoded.headers.get? typeHeader →
        s.decode messages stamps ⟨encoded.body, headers⟩ = .error error
  restored : ∀ decoded, s.decode messages stamps encoded = .ok decoded →
    ∀ stamp ∈ decoded.stamps, stamp ∈ e.stamps

/-- Whatever is declared when the envelope is encoded and when it is decoded. -/
def Carries [Unicode] [PyObject ω] (s : JsonSerializer ω) (stamps : StampRegistry)
    (e : Envelope ω) : Prop :=
  ∀ messages messages' encoded, s.encode messages e = .ok encoded →
    Carried s stamps messages' e encoded

/-- The first stamp that leaves the process under a name, as whose class all of them are
written. -/
def FirstNamed (e : Envelope ω) (name : String) (first : Stamp ω) : Prop :=
  e.sendable.find? (fun stamp => stamp.cls.name = name) = some first

/-- A name is restored as the class it is written as, or not at all. -/
def Agrees (stampTypes : Option (List StampClass)) (stamps : StampRegistry) (e : Envelope ω) :
    Prop :=
  ∀ name first, FirstNamed e name first → ∀ stampType,
    restored stampTypes stamps name = some stampType → stampType = first.cls

section Groups
variable {e : Envelope ω} {group : String × Stamp ω × List (Stamp ω)}

theorem firstNamed_of_group
    (h : group ∈ (groupBy (fun stamp => stamp.cls.name) e.sendable).entries) :
    FirstNamed e group.1 group.2.1 := by
  have hg : (group.1, group.2.1 :: group.2.2) ∈
      (groupBy (fun stamp : Stamp ω => stamp.cls.name) e.sendable).groups := List.mem_map_of_mem h
  rw [groups_groupBy] at hg
  obtain ⟨name, -, heq⟩ := List.mem_map.mp hg
  obtain ⟨rfl, hmembers⟩ := Prod.mk.inj heq
  rw [FirstNamed, ← List.head?_filter, hmembers]
  rfl

theorem exists_group {name : String} {first : Stamp ω} (h : FirstNamed e name first) :
    ∃ rest, (name, first, rest) ∈
      (groupBy (fun stamp : Stamp ω => stamp.cls.name) e.sendable).entries := by
  have hname : first.cls.name = name := by simpa using List.find?_some h
  have hgroup := group_of_mem (f := fun stamp : Stamp ω => stamp.cls.name)
    (List.mem_of_find?_eq_some h)
  obtain ⟨group, hg, heq⟩ := List.mem_map.mp hgroup
  obtain ⟨hkey, hmembers⟩ := Prod.mk.inj heq
  have hhead : group.2.1 = first := by
    have hfirst := firstNamed_of_group hg
    rw [FirstNamed, hkey, hname] at hfirst
    exact Option.some.inj (hfirst.symm.trans h)
  refine ⟨group.2.2, ?_⟩
  rw [← hname, ← hkey, ← hhead]
  exact hg

theorem mem_of_group (h : group ∈ (groupBy (fun stamp => stamp.cls.name) e.sendable).entries)
    {stamp : Stamp ω} (hs : stamp ∈ group.2.1 :: group.2.2) : stamp ∈ e.stamps := by
  have hg : (group.1, group.2.1 :: group.2.2) ∈
      (groupBy (fun stamp : Stamp ω => stamp.cls.name) e.sendable).groups := List.mem_map_of_mem h
  exact (Envelope.mem_sendable.mp (mem_groups_iff.mp ⟨_, hg, hs⟩)).1

end Groups

section Decoding
variable [Unicode] {s : JsonSerializer ω} {stamps : StampRegistry} {messages : MessageRegistry}
  {e : Envelope ω} {encoded : EncodedEnvelope}

/-- The message is read before any stamp: of the type header and the body alone. -/
theorem decode_cases (s : JsonSerializer ω) (stamps : StampRegistry) (messages : MessageRegistry)
    (encoded : EncodedEnvelope) :
    (∃ error, ∀ headers : Dict String String,
        headers.get? typeHeader = encoded.headers.get? typeHeader →
          s.decode messages stamps ⟨encoded.body, headers⟩ = .error error) ∨
      ∃ name message, ∀ headers : Dict String String,
        headers.get? typeHeader = encoded.headers.get? typeHeader →
          s.decode messages stamps ⟨encoded.body, headers⟩ =
            (s.decodeStamps stamps headers name).map fun read => ⟨message, read⟩ := by
  set name := (encoded.headers.get? typeHeader).getD "" with hname
  by_cases hmissing : name = ""
  · left
    refine ⟨Exc.messageDecodingFailedError "missing 'type' header", fun headers hsame => ?_⟩
    unfold decode
    dsimp only
    rw [hsame, if_pos hmissing]
  cases htype : (messages.typeForName name : Except (Exc ω) PyType) with
  | error error =>
    left
    refine ⟨Exc.messageDecodingFailedError "the 'type' header names no declared message",
      fun headers hsame => ?_⟩
    unfold decode
    dsimp only
    rw [hsame, if_neg hmissing, htype]
  | ok messageType =>
    cases hmessage : s.serializer.deserialize (.cls messageType) encoded.body with
    | error error =>
      left
      refine ⟨Exc.messageDecodingFailedError error (some name), fun headers hsame => ?_⟩
      unfold decode
      dsimp only
      rw [hsame, if_neg hmissing, htype]
      dsimp only
      rw [hmessage]
      rfl
    | ok message =>
      right
      refine ⟨name, message, fun headers hsame => ?_⟩
      unfold decode
      dsimp only
      rw [hsame, if_neg hmissing, htype]
      dsimp only
      rw [hmessage]
      rfl

/-- A group's header reads as its stamps, or is dropped. -/
theorem decodeHeader_group (hx : s.serializer.RoundTrips)
    (hagrees : ∀ name first, FirstNamed e name first → ∀ stampType,
      s.stampTypeFor stamps name = some stampType → stampType = first.cls)
    {group : String × Stamp ω × List (Stamp ω)} {entry : String × String}
    (hg : group ∈ (groupBy (fun stamp => stamp.cls.name) e.sendable).entries)
    (hw : s.Written group entry) (name : String) :
    ∃ read, s.decodeHeader stamps name entry = .ok read ∧ ∀ stamp ∈ read, stamp ∈ e.stamps := by
  obtain ⟨hheader, hserialized⟩ := hw
  rw [decodeHeader, hheader, Text.afterStart_append, Option.bind_some]
  cases hknown : s.stampTypeFor stamps group.1 with
  | none => exact ⟨[], rfl, by simp⟩
  | some stampType =>
    obtain rfl := hagrees group.1 group.2.1 (firstNamed_of_group hg) stampType hknown
    refine ⟨group.2.1 :: group.2.2, ?_, fun stamp => mem_of_group hg⟩
    simp [hx _ _ _ hserialized, Except.mapError]

/-- What was written decodes to stamps the envelope carried, where no name is restored as another
class. -/
theorem carried_of_agrees [PyObject ω] (hx : s.serializer.RoundTrips)
    (hagrees : ∀ name first, FirstNamed e name first → ∀ stampType,
      s.stampTypeFor stamps name = some stampType → stampType = first.cls) :
    Carries s stamps e := by
  intro messages messages' encoded hencoded
  obtain ⟨-, written, hheaders, hwritten⟩ := encode_written hencoded
  have hrows : ∀ name, ∃ rows, s.decodeStamps stamps encoded.headers name = .ok rows ∧
      ∀ stamp ∈ rows, stamp ∈ e.stamps := by
    intro name
    have hread : ∀ entry ∈ encoded.headers.entries, ∃ read,
        s.decodeHeader stamps name entry = .ok read ∧ ∀ stamp ∈ read, stamp ∈ e.stamps := by
      intro entry hentry
      rw [hheaders] at hentry
      obtain rfl | hentry := List.mem_cons.mp hentry
      · have hno : Text.afterStart stampHeaderPrefix typeHeader = none := by decide
        exact ⟨[], by simp [decodeHeader, hno], by simp⟩
      · obtain ⟨group, hg, hw⟩ := exists_of_mem_right hwritten hentry
        exact decodeHeader_group hx hagrees hg hw name
    obtain ⟨rows, hall⟩ := exists_forall₂ hread
    refine ⟨rows.flatten, ?_, ?_⟩
    · have hok := mapM_eq_ok_iff.mpr (hall.imp fun _ _ h => h.1)
      rw [decodeStamps, hok]
      rfl
    · intro stamp hm
      obtain ⟨read, hr, hs⟩ := List.mem_flatten.mp hm
      obtain ⟨entry, -, -, hcarried⟩ := exists_of_mem_right hall hr
      exact hcarried stamp hs
  obtain ⟨error, hfails⟩ | ⟨name, message, hreads⟩ := decode_cases s stamps messages' encoded
  · have hself := hfails encoded.headers rfl
    constructor
    · intro error' herror headers hsame
      obtain rfl := Except.error.inj (hself.symm.trans herror)
      exact hfails headers hsame
    · intro decoded hdecoded
      cases hself.symm.trans hdecoded
  · obtain ⟨rows, hdecode, hcarried⟩ := hrows name
    have hself : s.decode messages' stamps encoded = .ok ⟨message, rows⟩ := by
      rw [hreads encoded.headers rfl, hdecode]
      rfl
    constructor
    · intro error herror
      cases hself.symm.trans herror
    · intro decoded hdecoded
      obtain rfl := Except.ok.inj (hself.symm.trans hdecoded)
      exact hcarried

end Decoding

section Writer
variable [DecidableEq ω] [PyObject ω] {stamps : StampRegistry} {e : Envelope ω}

/-- A serializer that writes one envelope, and reads each of its stamp headers as the class it
wrote it as. -/
def writerOf (e : Envelope ω) : XtrSerializer ω where
  serialize
    | .cls type, value =>
      if type = PyObject.typeOf e.message ∧ value = e.message then .ok "" else
        .error "cannot be written"
    | .listOf stampType, stamps =>
      match (groupBy (fun stamp : Stamp ω => stamp.cls.name) e.sendable).entries.find?
        fun group => group.2.1.cls = stampType ∧ group.2.1 :: group.2.2 = stamps with
      | some group => .ok group.1
      | none => .error "cannot be written"
  deserialize
    | .cls type, _ =>
      if type = PyObject.typeOf e.message then .ok e.message else .error "cannot be read"
    | .listOf stampType, text =>
      match (groupBy (fun stamp : Stamp ω => stamp.cls.name) e.sendable).get? text with
      | some group =>
        if group.1.cls = stampType then .ok (group.1 :: group.2) else .error "cannot be read"
      | none => .error "cannot be read"

theorem writerOf_roundTrips : (writerOf e).RoundTrips := by
  intro type value text h
  cases type with
  | cls type =>
    simp only [writerOf] at h ⊢
    split_ifs at h with hvalue
    rw [if_pos hvalue.1, hvalue.2]
  | listOf stampType =>
    simp only [writerOf] at h ⊢
    split at h
    · rename_i group hfind
      obtain rfl := Except.ok.inj h
      have hg := List.mem_of_find?_eq_some hfind
      have hcls : group.2.1.cls = stampType ∧ group.2.1 :: group.2.2 = value := by
        simpa using List.find?_some hfind
      rw [(Dict.get?_eq_some_iff _).mpr hg]
      simp [hcls.1, hcls.2]
    · simp at h

/-- What is written of a group is its name. -/
theorem writerOf_group {group : String × Stamp ω × List (Stamp ω)}
    (h : group ∈ (groupBy (fun stamp => stamp.cls.name) e.sendable).entries) :
    (writerOf e).serialize (.listOf group.2.1.cls) (group.2.1 :: group.2.2) = .ok group.1 := by
  simp only [writerOf]
  split
  · rename_i group' hfind
    have hg := List.mem_of_find?_eq_some hfind
    have hsame : group'.2.1.cls = group.2.1.cls ∧
        group'.2.1 :: group'.2.2 = group.2.1 :: group.2.2 := by
      simpa using List.find?_some hfind
    rw [← (first_of_group h).2, ← (first_of_group hg).2, hsame.1]
  · rename_i hnone
    have hno := List.find?_eq_none.mp hnone group h
    simp at hno

/-- It refuses a group read as another class. -/
theorem writerOf_refuses {name : String} {first : Stamp ω} {rest : List (Stamp ω)}
    (h : (name, first, rest) ∈ (groupBy (fun stamp => stamp.cls.name) e.sendable).entries)
    {stampType : StampClass} (hne : stampType ≠ first.cls) :
    (writerOf e).deserialize (.listOf stampType) name = .error "cannot be read" := by
  simp only [writerOf, (Dict.get?_eq_some_iff _).mpr h]
  rw [if_neg fun heq => hne heq.symm]

theorem writerOf_encodes [Unicode] (stampTypes : Option (List StampClass))
    (messages : MessageRegistry) (e : Envelope ω) :
    ∃ encoded, (create (writerOf e) stampTypes).encode messages e = .ok encoded := by
  have hgroups : ∃ headers, (groupBy (fun stamp : Stamp ω => stamp.cls.name)
      e.sendable).entries.mapM (fun group : String × Stamp ω × List (Stamp ω) =>
        ((writerOf e).serialize (.listOf group.2.1.cls) (group.2.1 :: group.2.2)).map
          fun value => (stampHeaderPrefix ++ group.1, value)) = .ok headers := by
    apply mapM_returns_iff.mpr
    intro group hg
    rw [writerOf_group hg]
    exact ⟨_, rfl⟩
  obtain ⟨headers, hheaders⟩ := hgroups
  have hstamps : (create (writerOf e) stampTypes).encodeStamps (e.withoutStamps .nonSendable) =
      .ok (Dict.update .empty headers) := bind_eq_ok_iff.mpr ⟨headers, hheaders, rfl⟩
  have hbody : (writerOf e).serialize (.cls (PyObject.typeOf e.message)) e.message = .ok "" := by
    simp [writerOf]
  let encoded : EncodedEnvelope := ⟨"", (Dict.update .empty
    [(typeHeader, messages.nameOf (PyObject.typeOf e.message))]).update
      (Dict.update .empty headers : Dict String String).entries⟩
  refine ⟨encoded, mapError_eq_ok_iff.mpr (bind_eq_ok_iff.mpr ⟨"", hbody, ?_⟩)⟩
  exact bind_eq_ok_iff.mpr ⟨_, hstamps, rfl⟩

/-- Where a name is restored as another class, an envelope that was written is not read. -/
theorem agrees_of_carries [Unicode] {stampTypes : Option (List StampClass)}
    (h : Carries (create (writerOf e) stampTypes) stamps e) : Agrees stampTypes stamps e := by
  intro name first hfirst stampType hrestored
  by_contra hne
  set s := create (writerOf e) stampTypes with hs
  have hknown : s.stampTypeFor stamps name = some stampType :=
    (stampTypeFor_create _ _ _ _).trans hrestored
  -- the message is declared under a name, so that nothing but a stamp is in the way
  set messages := MessageRegistry.empty.assign "message" (PyObject.typeOf e.message) rfl
  have hnameOf : messages.nameOf (PyObject.typeOf e.message) = "message" := by
    simp [messages, MessageRegistry.nameOf, MessageRegistry.assign, Dict.get?_set]
  have htype : messages.typeByName.get? "message" = some (PyObject.typeOf e.message) := by
    simp [messages, MessageRegistry.assign, Dict.get?_set]
  obtain ⟨encoded, hencoded⟩ := writerOf_encodes stampTypes messages e
  have hcarried := h messages messages encoded hencoded
  obtain ⟨-, written, hheaders, hwritten⟩ := encode_written hencoded
  rw [hnameOf] at hheaders
  obtain ⟨rest, hgroup⟩ := exists_group hfirst
  obtain ⟨entry, hentry, hheader, hserialized⟩ := exists_of_mem_right hwritten.flip hgroup
  have hvalue : entry.2 = name :=
    (Except.ok.inj ((writerOf_group hgroup).symm.trans hserialized)).symm
  have hrefused : ∀ messageName read, s.decodeHeader stamps messageName entry ≠ .ok read := by
    intro messageName read hread
    rw [decodeHeader, hheader, Text.afterStart_append, Option.bind_some, hknown] at hread
    have hdecoded := mapError_eq_ok_iff.mp hread
    rw [hvalue] at hdecoded
    cases (writerOf_refuses hgroup hne).symm.trans hdecoded
  have hget : encoded.headers.get? typeHeader = some "message" :=
    (Dict.get?_eq_some_iff _).mpr (by simp [hheaders])
  cases hdecode : s.decode messages stamps encoded with
  | ok decoded =>
    obtain ⟨messageName, -, -, -, -, rows, hrows, -⟩ := decode_eq_ok hdecode
    have hmem : entry ∈ encoded.headers.entries := by
      rw [hheaders]
      exact List.mem_cons_of_mem _ hentry
    obtain ⟨read, -, hread⟩ := exists_of_mem_right hrows.flip hmem
    exact hrefused messageName read hread
  | error error =>
    -- without the stamp headers the message is read
    have hbare := hcarried.failure error hdecode (Dict.update .empty [(typeHeader, "message")])
      (by rw [hget]; rfl)
    have hbody : s.serializer.deserialize (.cls (PyObject.typeOf e.message)) encoded.body =
        .ok e.message := by simp [hs, create, writerOf]
    have hno : s.decodeHeader stamps "message" (typeHeader, "message") = .ok [] := by
      have hprefix : Text.afterStart stampHeaderPrefix typeHeader = none := by decide
      simp [decodeHeader, hprefix]
    have hnone : s.decodeStamps stamps (Dict.update .empty [(typeHeader, "message")]) "message" =
        .ok [] := by
      have hrow := mapM_eq_ok_iff.mpr (List.Forall₂.cons hno List.Forall₂.nil)
      exact map_eq_ok_iff.mpr ⟨[[]], hrow, rfl⟩
    have htyped : (Dict.update .empty [(typeHeader, "message")] : Dict String String).get?
        typeHeader = some "message" := rfl
    simp [decode, htyped, MessageRegistry.typeForName, htype, hbody, hnone, Except.mapError, bind,
      Except.bind, pure, Except.pure] at hbare

end Writer

/-- No stamp is in the way, and none is read back as another, whatever the serializer, exactly
where each name is restored as the class it is written as. -/
theorem carries_iff_agrees [Unicode] [PyObject ω] {stampTypes : Option (List StampClass)}
    {stamps : StampRegistry} {e : Envelope ω} :
    (∀ x : XtrSerializer ω, x.RoundTrips → Carries (create x stampTypes) stamps e) ↔
      Agrees stampTypes stamps e := by
  constructor
  · intro h
    classical
    exact agrees_of_carries (h (writerOf e) writerOf_roundTrips)
  · intro hagrees x hx
    apply carried_of_agrees hx
    intro name first hfirst stampType hknown
    rw [stampTypeFor_create] at hknown
    exact hagrees name first hfirst stampType hknown

/-- A stamp of an application's class that is named like a shipped one. -/
def namesake : Stamp Int :=
  .app ⟨⟨7, "DelayStamp", "shop.stamps", "DelayStamp", none, false⟩, none, 250, rfl⟩

section
attribute [local instance] Unicode.ascii

/-- The header of an undeclared class is read as the shipped class of its name, and fails. -/
theorem namesake_refused :
    (writerOf (⟨5, [namesake]⟩ : Envelope Int)).RoundTrips ∧
      ∃ encoded,
        (create (writerOf ⟨5, [namesake]⟩) none).encode sampleMessages ⟨5, [namesake]⟩ =
            .ok encoded ∧
          (create (writerOf ⟨5, [namesake]⟩) none).decode sampleMessages .empty encoded =
            .error (Exc.messageDecodingFailedError "DelayStamp header: cannot be read"
              (some "test.number.v1")) ∧
          ¬Carried (create (writerOf ⟨5, [namesake]⟩) none) .empty sampleMessages
            ⟨5, [namesake]⟩ encoded := by
  refine ⟨writerOf_roundTrips, _, rfl, rfl, ?_⟩
  intro hcarried
  have hbare := hcarried.failure _ rfl (Dict.update .empty [(typeHeader, "test.number.v1")]) rfl
  exact nomatch hbare

end

end JsonSerializer
end XtrMessenger
