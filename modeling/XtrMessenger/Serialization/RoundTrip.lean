import XtrMessenger.Serialization.JsonSerializer

/-! What is encoded decodes to the same message and the sendable stamps, grouped by class,
whatever is declared in between. -/
namespace XtrMessenger
open Foundation
variable {ω : Type}

/-- The stamps that leave the process. -/
def Envelope.sendable (e : Envelope ω) : List (Stamp ω) := (e.withoutStamps .nonSendable).stamps

theorem Envelope.mem_sendable {e : Envelope ω} {stamp : Stamp ω} :
    stamp ∈ e.sendable ↔ stamp ∈ e.stamps ∧ stamp.cls.nonSendable = false := by
  simp [sendable, withoutStamps, Stamp.isInstance]

/-- An envelope, how it was written, and what was read back. -/
structure RoundTripped (s : JsonSerializer ω) (name : String) (envelope : Envelope ω)
    (encoded : EncodedEnvelope) (decoded : Envelope ω) : Prop where
  message : decoded.message = envelope.message
  /-- By class in order of first appearance, in their order within a class. -/
  stamps : decoded.stamps = regrouped Stamp.cls envelope.sendable
  sendable : ∀ stamp ∈ decoded.stamps, stamp.cls.nonSendable = false
  /-- One header for each class of sendable stamps, after the type header, and no other. -/
  headers : ∃ written, encoded.headers.entries = (typeHeader, name) :: written ∧
    List.Forall₂ (fun stampType entry => entry.1 = stampHeaderPrefix ++ stampType.name ∧
      s.serializer.serialize (.listOf stampType)
        (envelope.sendable.filter fun stamp => stamp.cls = stampType) = .ok entry.2)
      (envelope.sendable.map Stamp.cls).eraseDups written

namespace JsonSerializer
variable {s : JsonSerializer ω} {stamps : StampRegistry}

theorem prefix_inj {a b : String} (h : stampHeaderPrefix ++ a = stampHeaderPrefix ++ b) :
    a = b := by
  have hc := congrArg String.toList h
  rw [String.toList_append, String.toList_append] at hc
  exact String.toList_inj.mp (List.append_cancel_left hc)

theorem prefix_ne_typeHeader (name : String) : stampHeaderPrefix ++ name ≠ typeHeader := by
  intro h
  have hc := congrArg (fun t : String => t.toList.head?) h
  simp [stampHeaderPrefix, typeHeader, String.toList_append] at hc

theorem cls_eq_of_restored {l : List (Stamp ω)}
    (hs : ∀ stamp ∈ l, s.stampTypeFor stamps stamp.cls.name = some stamp.cls) :
    ∀ a ∈ l, ∀ b ∈ l, a.cls.name = b.cls.name → a.cls = b.cls := by
  intro a ha b hb he
  exact Option.some.inj ((hs a ha).symm.trans (he ▸ hs b hb))

/-- The header a group of stamps is written as. -/
def Written (s : JsonSerializer ω) (group : String × Stamp ω × List (Stamp ω))
    (entry : String × String) : Prop :=
  entry.1 = stampHeaderPrefix ++ group.1 ∧
    s.serializer.serialize (.listOf group.2.1.cls) (group.2.1 :: group.2.2) = .ok entry.2

/-- What `_encode_stamps` writes: one header for each name of a class. -/
theorem encodeStamps_written {e : Envelope ω} {headers : Dict String String}
    (h : s.encodeStamps e = .ok headers) :
    List.Forall₂ s.Written (groupBy (fun stamp => stamp.cls.name) e.stamps).entries
      headers.entries := by
  obtain ⟨written, hw, hu⟩ := bind_eq_ok_iff.mp h
  have hall : List.Forall₂ s.Written (groupBy (fun stamp => stamp.cls.name) e.stamps).entries
      written := by
    apply (mapM_eq_ok_iff.mp hw).imp
    rintro ⟨stampName, first, rest⟩ entry hr
    obtain ⟨value, hv, rfl⟩ := map_eq_ok_iff.mp hr
    exact ⟨rfl, hv⟩
  -- the names of the groups differ, so the headers do
  have hkeys : written.map Prod.fst =
      (groupBy (fun stamp => stamp.cls.name) e.stamps).keys.map (stampHeaderPrefix ++ ·) := by
    rw [← List.forall₂_eq_eq_eq]
    rw [Dict.keys, List.map_map, List.forall₂_map_left_iff, List.forall₂_map_right_iff]
    exact hall.flip.imp fun entry group hr => hr.1
  have hnodup : (written.map Prod.fst).Nodup := by
    rw [hkeys]
    exact (groupBy _ _).nodup.map fun _ _ => prefix_inj
  obtain rfl : Dict.update .empty written = headers := Except.ok.inj hu
  rw [Dict.update_entries _ (by simpa [Dict.keys, Dict.empty] using hnodup)]
  exact hall

theorem encode_written [Unicode] [PyObject ω] {messages : MessageRegistry} {e : Envelope ω}
    {encoded : EncodedEnvelope} (h : s.encode messages e = .ok encoded) :
    s.serializer.serialize (.cls (PyObject.typeOf e.message)) e.message = .ok encoded.body ∧
      ∃ written, encoded.headers.entries =
          (typeHeader, messages.nameOf (PyObject.typeOf e.message)) :: written ∧
        List.Forall₂ s.Written (groupBy (fun stamp => stamp.cls.name) e.sendable).entries
          written := by
  obtain ⟨body, hbody, h⟩ := bind_eq_ok_iff.mp (mapError_eq_ok_iff.mp h)
  obtain ⟨written, hw, h⟩ := bind_eq_ok_iff.mp h
  obtain rfl := Except.ok.inj h
  have hrows := encodeStamps_written hw
  refine ⟨hbody, written.entries, ?_, hrows⟩
  have hstart : (Dict.update .empty [(typeHeader, messages.nameOf (PyObject.typeOf e.message))] :
      Dict String String).entries = [(typeHeader, messages.nameOf (PyObject.typeOf e.message))] :=
    rfl
  have hnew : typeHeader ∉ written.keys := by
    intro hm
    obtain ⟨entry, he, hkey⟩ := List.mem_map.mp hm
    obtain ⟨group, -, heq, -⟩ := exists_of_mem_right hrows he
    exact prefix_ne_typeHeader _ (heq.symm.trans hkey)
  rw [Dict.update_entries _ (by
    rw [Dict.keys, hstart]
    exact List.nodup_cons.mpr ⟨hnew, written.nodup⟩), hstart]
  rfl

theorem written_by_class {l : List (Stamp ω)} {written : List (String × String)}
    (hs : ∀ stamp ∈ l, s.stampTypeFor stamps stamp.cls.name = some stamp.cls)
    (h : List.Forall₂ s.Written (groupBy (fun stamp => stamp.cls.name) l).entries written) :
    List.Forall₂ (fun stampType entry => entry.1 = stampHeaderPrefix ++ stampType.name ∧
      s.serializer.serialize (.listOf stampType) (l.filter fun stamp => stamp.cls = stampType) =
        .ok entry.2) (l.map Stamp.cls).eraseDups written := by
  have hgroups := groups_groupBy_comp (cls_eq_of_restored hs)
  apply (forall₂_of_map_eq h hgroups).imp
  rintro stampType entry ⟨⟨name, first, rest⟩, hg, hheader, hv⟩
  simp only [Prod.mk.injEq] at hg
  obtain ⟨rfl, hmembers⟩ := hg
  have hfirst : first ∈ l.filter fun stamp => stamp.cls = stampType :=
    hmembers ▸ List.mem_cons_self
  obtain rfl : first.cls = stampType := by simpa using (List.mem_filter.mp hfirst).2
  exact ⟨hheader, hmembers ▸ hv⟩

/-- The serializer round-trips an envelope: values come back as they were written, and a stamp as
its own class or not at all. -/
structure Restores (s : JsonSerializer ω) (stamps : StampRegistry) (e : Envelope ω) : Prop where
  values : s.serializer.RoundTrips
  classes : ∀ stamp ∈ e.sendable, ∀ stampType,
    s.stampTypeFor stamps stamp.cls.name = some stampType → stampType = stamp.cls

/-- The stamps that leave the process and are restored. -/
def restorable (s : JsonSerializer ω) (stamps : StampRegistry) (e : Envelope ω) :
    List (Stamp ω) :=
  e.sendable.filter fun stamp => s.stampTypeFor stamps stamp.cls.name = some stamp.cls

theorem Restores.isSome_iff {e : Envelope ω} (hr : s.Restores stamps e) {stamp : Stamp ω}
    (hm : stamp ∈ e.sendable) : (s.stampTypeFor stamps stamp.cls.name).isSome = true ↔
      s.stampTypeFor stamps stamp.cls.name = some stamp.cls := by
  constructor
  · intro hknown
    obtain ⟨stampType, ht⟩ := Option.isSome_iff_exists.mp hknown
    rw [ht, hr.classes stamp hm stampType ht]
  · intro ht
    simp [ht]

/-- A group's header is read back whole, or dropped when no class is known under its name. -/
theorem decodeHeader_written [Unicode] {e : Envelope ω} (hr : s.Restores stamps e)
    {group : String × Stamp ω × List (Stamp ω)} {entry : String × String}
    (hm : group ∈ (groupBy (fun stamp => stamp.cls.name) e.sendable).entries)
    (hw : s.Written group entry) (messageName : String) :
    s.decodeHeader stamps messageName entry = .ok
      (if (s.stampTypeFor stamps group.1).isSome then group.2.1 :: group.2.2 else []) := by
  obtain ⟨hfirst, hnamed⟩ := first_of_group hm
  obtain ⟨hheader, hserialized⟩ := hw
  rw [decodeHeader, hheader, Text.afterStart_append, Option.bind_some, ← hnamed]
  by_cases hknown : (s.stampTypeFor stamps group.2.1.cls.name).isSome = true
  · rw [(hr.isSome_iff hfirst).mp hknown]
    simp [hr.values _ _ _ hserialized, Except.mapError]
  · rw [Option.not_isSome_iff_eq_none.mp hknown]
    rfl

theorem regrouped_restorable {e : Envelope ω} (hr : s.Restores stamps e) :
    regrouped Stamp.cls (s.restorable stamps e) =
      (groupBy (fun stamp => stamp.cls.name) e.sendable).groups.flatMap fun group =>
        if (s.stampTypeFor stamps group.1).isSome then group.2 else [] := by
  have hrestored : ∀ stamp ∈ s.restorable stamps e,
      s.stampTypeFor stamps stamp.cls.name = some stamp.cls := by
    intro stamp hm
    simpa using (List.mem_filter.mp hm).2
  have hknown : s.restorable stamps e =
      e.sendable.filter fun stamp => (s.stampTypeFor stamps stamp.cls.name).isSome := by
    apply List.filter_congr
    intro stamp hm
    simp [← hr.isSome_iff hm]
  rw [← regrouped_comp (cls_eq_of_restored hrestored), hknown]
  exact regrouped_filter (fun stamp : Stamp ω => stamp.cls.name)
    (fun stampName => (s.stampTypeFor stamps stampName).isSome) e.sendable

/-- What `_decode_stamps` reads of the headers written: the restorable stamps of each class in
turn. -/
theorem decodeStamps_written [Unicode] {e : Envelope ω} (hr : s.Restores stamps e) {name : String}
    {headers : Dict String String} {written : List (String × String)}
    (hh : headers.entries = (typeHeader, name) :: written)
    (hw : List.Forall₂ s.Written (groupBy (fun stamp => stamp.cls.name) e.sendable).entries
      written) (messageName : String) :
    s.decodeStamps stamps headers messageName =
      .ok (regrouped Stamp.cls (s.restorable stamps e)) := by
  have hrows : List.Forall₂ (fun entry read => s.decodeHeader stamps messageName entry = .ok read)
      written ((groupBy (fun stamp => stamp.cls.name) e.sendable).groups.map fun group =>
        if (s.stampTypeFor stamps group.1).isSome then group.2 else []) := by
    rw [List.forall₂_map_right_iff, Dict.groups, List.forall₂_map_right_iff]
    apply List.Forall₂.flip
    apply ((List.forall₂_and_left _ _).mpr ⟨fun _ hm => hm, hw⟩).imp
    intro group entry h
    exact decodeHeader_written hr h.1 h.2 messageName
  have htype : s.decodeHeader stamps messageName (typeHeader, name) = .ok [] := by
    have hno : Text.afterStart stampHeaderPrefix typeHeader = none := by decide
    simp [decodeHeader, hno]
  rw [decodeStamps, hh, mapM_eq_ok_iff.mpr (List.Forall₂.cons htype hrows),
    regrouped_restorable hr]
  simp [Except.map, List.flatMap]

/-- An envelope that was encoded decodes, wherever its name is declared, to the same message and
the stamps that are restored, grouped by class. -/
theorem decode_restorable [Unicode] [PyObject ω] {e : Envelope ω} (hr : s.Restores stamps e)
    {messages messages' : MessageRegistry} {name : String}
    (hname : messages.nameOf (PyObject.typeOf e.message) = name) (hne : name ≠ "")
    (htype : messages'.typeByName.get? name = some (PyObject.typeOf e.message))
    {encoded : EncodedEnvelope} (h : s.encode messages e = .ok encoded) :
    s.decode messages' stamps encoded =
      .ok ⟨e.message, regrouped Stamp.cls (s.restorable stamps e)⟩ := by
  obtain ⟨hbody, written, hh, hw⟩ := encode_written h
  rw [hname] at hh
  have hget : encoded.headers.get? typeHeader = some name := by
    apply (Dict.get?_eq_some_iff _).mpr
    simp [hh]
  simp [decode, hget, hne, MessageRegistry.typeForName, htype, hr.values _ _ _ hbody,
    decodeStamps_written hr hh hw, Except.mapError, bind, Except.bind, pure, Except.pure]

/-- However much is declared in between, an envelope that was encoded decodes to the same
message and the sendable stamps, grouped by class, and no other stamp is written or read. -/
theorem decode_encode [Unicode] [PyObject ω] (hx : s.serializer.RoundTrips)
    {messages messages' : MessageRegistry} (hm : messages.Grows ω messages') {e : Envelope ω}
    {name : String} (hname : messages.nameByType.get? (PyObject.typeOf e.message) = some name)
    (hne : name ≠ "")
    (hs : ∀ stamp ∈ e.sendable, s.stampTypeFor stamps stamp.cls.name = some stamp.cls)
    {encoded : EncodedEnvelope} (h : s.encode messages e = .ok encoded) :
    ∃ decoded, s.decode messages' stamps encoded = .ok decoded ∧
      RoundTripped s name e encoded decoded := by
  have hnameOf : messages.nameOf (PyObject.typeOf e.message) = name := by
    simp [MessageRegistry.nameOf, hname]
  have hr : s.Restores stamps e :=
    ⟨hx, fun stamp hm stampType ht => Option.some.inj (ht.symm.trans (hs stamp hm))⟩
  have hall : s.restorable stamps e = e.sendable := by
    apply List.filter_eq_self.mpr
    intro stamp hm
    simp [hs stamp hm]
  have hdecoded := decode_restorable hr hnameOf hne (hm.typeByName (messages.coherent _ _ hname)) h
  rw [hall] at hdecoded
  obtain ⟨-, written, hh, hw⟩ := encode_written h
  rw [hnameOf] at hh
  refine ⟨_, hdecoded, rfl, rfl, ?_, written, hh, written_by_class hs hw⟩
  intro stamp hm
  exact (Envelope.mem_sendable.mp (mem_regrouped hm)).2

/-- A message with two stamps of one class around another, and one that stays in the
process. -/
def sampleEnvelope : Envelope Int :=
  ⟨5, [.shipped (.redelivery 1), .shipped (.received "async"), .shipped (.delay 250),
    .shipped (.redelivery 2)]⟩

/-- What the JSON serializer writes and reads of the sample. -/
def sampleSerializer : XtrSerializer Int where
  serialize
    | .cls _, value => if value = 5 then .ok "5" else .error "cannot be written"
    | .listOf stampType, stamps =>
      if stampType = .shipped .redelivery ∧
          stamps = [.shipped (.redelivery 1), .shipped (.redelivery 2)] then
        .ok "[\x7b\"retry_count\":1\x7d,\x7b\"retry_count\":2\x7d]"
      else if stampType = .shipped .delay ∧ stamps = [.shipped (.delay 250)] then
        .ok "[\x7b\"delay_ms\":250\x7d]"
      else .error "cannot be written"
  deserialize
    | .cls _, text => if text = "5" then .ok 5 else .error "cannot be read"
    | .listOf stampType, text =>
      if stampType = .shipped .redelivery ∧
          text = "[\x7b\"retry_count\":1\x7d,\x7b\"retry_count\":2\x7d]" then
        .ok [.shipped (.redelivery 1), .shipped (.redelivery 2)]
      else if stampType = .shipped .delay ∧ text = "[\x7b\"delay_ms\":250\x7d]" then
        .ok [.shipped (.delay 250)]
      else .error "cannot be read"

theorem sampleSerializer_roundTrips : sampleSerializer.RoundTrips := by
  intro type value text h
  cases type with
  | cls t =>
    simp only [sampleSerializer] at h ⊢
    split_ifs at h with hv
    obtain rfl := Except.ok.inj h
    simp [hv]
  | listOf stampType =>
    simp only [sampleSerializer] at h ⊢
    split_ifs at h with hr hd
    · obtain rfl := Except.ok.inj h
      simp [hr.1, hr.2]
    · obtain rfl := Except.ok.inj h
      simp [hd.1, hd.2]

/-- The sample's message class, declared. -/
def sampleMessages : MessageRegistry :=
  MessageRegistry.empty.assign "test.number.v1" ⟨0, "builtins", "int"⟩ rfl

section
attribute [local instance] Unicode.ascii

theorem decode_encode_sample : ∃ encoded decoded,
    (create sampleSerializer none).encode sampleMessages sampleEnvelope = .ok encoded ∧
      decoded.stamps = [.shipped (.redelivery 1), .shipped (.redelivery 2),
        .shipped (.delay 250)] ∧
      RoundTripped (create sampleSerializer none) "test.number.v1" sampleEnvelope encoded
        decoded := by
  obtain ⟨encoded, he⟩ : ∃ encoded,
      (create sampleSerializer none).encode sampleMessages sampleEnvelope = .ok encoded := ⟨_, rfl⟩
  have hs : ∀ stamp ∈ sampleEnvelope.sendable, (create sampleSerializer none).stampTypeFor
      StampRegistry.empty stamp.cls.name = some stamp.cls := by decide
  have hm : sampleMessages.Grows Int sampleMessages := Relation.ReflTransGen.refl
  obtain ⟨decoded, -, hr⟩ := decode_encode sampleSerializer_roundTrips hm
    (show sampleMessages.nameByType.get? (PyObject.typeOf sampleEnvelope.message) =
      some "test.number.v1" from rfl) (by decide) hs he
  exact ⟨encoded, decoded, he, hr.stamps.trans (by decide), hr⟩

end

end JsonSerializer
end XtrMessenger
