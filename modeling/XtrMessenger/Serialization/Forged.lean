import XtrMessenger.Serialization.RoundTrip

/-! What decoding may build of headers anyone may have written. -/
namespace XtrMessenger
open Foundation
variable {ω : Type}

/-- Stamps read as a list of a class are instances of that class and of no other: no class among
them declares a hierarchy to be read as. -/
def XtrSerializer.ReadsExactly (x : XtrSerializer ω) : Prop :=
  ∀ stampType text stamps, x.deserialize (.listOf stampType) text = .ok stamps →
    ∀ stamp ∈ stamps, stamp.cls = stampType

namespace JsonSerializer
variable {s : JsonSerializer ω} {messages : MessageRegistry} {stamps : StampRegistry}

/-- The stamp class a header names, in the allow-list. -/
def namedBy (s : JsonSerializer ω) (stamps : StampRegistry) (header : String) : Option StampClass :=
  (Text.afterStart stampHeaderPrefix header).bind (s.stampTypeFor stamps)

/-- The message was built as the class declared under the type header's name, and no stamp is one
that never leaves the process. -/
structure Rebuilt (s : JsonSerializer ω) (messages : MessageRegistry) (encoded : EncodedEnvelope)
    (decoded : Envelope ω) : Prop where
  message : ∃ name messageType, encoded.headers.get? typeHeader = some name ∧
    messages.typeByName.get? name = some messageType ∧
    s.serializer.deserialize (.cls messageType) encoded.body = .ok decoded.message
  stamps : ∀ stamp ∈ decoded.stamps, stamp.cls.nonSendable = false

theorem decodeHeader_eq_ok [Unicode] {name : String} {entry : String × String}
    {read : List (Stamp ω)} (h : s.decodeHeader stamps name entry = .ok read) :
    (s.namedBy stamps entry.1 = none ∧ read = []) ∨
      ∃ stampType, s.namedBy stamps entry.1 = some stampType ∧
        s.serializer.deserialize (.listOf stampType) entry.2 = .ok read := by
  unfold decodeHeader at h
  unfold namedBy
  cases hn : (Text.afterStart stampHeaderPrefix entry.1).bind (s.stampTypeFor stamps) with
  | none =>
    rw [hn] at h
    exact .inl ⟨rfl, (Except.ok.inj h).symm⟩
  | some stampType =>
    rw [hn] at h
    exact .inr ⟨stampType, rfl, mapError_eq_ok_iff.mp h⟩

theorem decode_eq_ok [Unicode] {encoded : EncodedEnvelope} {decoded : Envelope ω}
    (h : s.decode messages stamps encoded = .ok decoded) :
    ∃ name messageType, encoded.headers.get? typeHeader = some name ∧
      messages.typeByName.get? name = some messageType ∧
      s.serializer.deserialize (.cls messageType) encoded.body = .ok decoded.message ∧
      ∃ rows, List.Forall₂ (fun entry read => s.decodeHeader stamps name entry = .ok read)
        encoded.headers.entries rows ∧ decoded.stamps = rows.flatten := by
  unfold decode at h
  dsimp only at h
  split_ifs at h with hne
  cases hget : encoded.headers.get? typeHeader with
  | none => simp [hget] at hne
  | some name =>
    simp only [hget, Option.getD_some] at h
    cases hdeclared : messages.typeByName.get? name with
    | none => simp [MessageRegistry.typeForName, hdeclared] at h
    | some messageType =>
      simp only [MessageRegistry.typeForName, hdeclared] at h
      obtain ⟨message, hmessage, h⟩ := bind_eq_ok_iff.mp h
      obtain ⟨read, hread, h⟩ := bind_eq_ok_iff.mp h
      obtain ⟨rows, hrows, rfl⟩ := map_eq_ok_iff.mp hread
      obtain rfl := Except.ok.inj h
      exact ⟨name, messageType, rfl, hdeclared, mapError_eq_ok_iff.mp hmessage, rows,
        mapM_eq_ok_iff.mp hrows, rfl⟩

/-- What decodes has no stamp that never leaves the process exactly when no header that holds any
names, in the allow-list, a class of such stamps. -/
theorem rebuilt_iff [Unicode] (hx : s.serializer.ReadsExactly) {encoded : EncodedEnvelope}
    {decoded : Envelope ω} (h : s.decode messages stamps encoded = .ok decoded) :
    Rebuilt s messages encoded decoded ↔ ∀ entry ∈ encoded.headers.entries, ∀ stampType,
      s.namedBy stamps entry.1 = some stampType → stampType.nonSendable = true →
        s.serializer.deserialize (.listOf stampType) entry.2 = .ok [] := by
  obtain ⟨name, messageType, hname, hdeclared, hmessage, rows, hrows, hstamps⟩ := decode_eq_ok h
  constructor
  · intro hrebuilt entry hentry stampType hnamed hlocal
    obtain ⟨read, hread, hdecoded⟩ := exists_of_mem_right hrows.flip hentry
    have hvalue : s.serializer.deserialize (.listOf stampType) entry.2 = .ok read := by
      obtain ⟨hnone, -⟩ | ⟨t, ht, hvalue⟩ := decodeHeader_eq_ok hdecoded
      · simp [hnone] at hnamed
      · obtain rfl : t = stampType := Option.some.inj (ht.symm.trans hnamed)
        exact hvalue
    rw [hvalue]
    congr 1
    apply List.eq_nil_iff_forall_not_mem.mpr
    intro stamp hm
    have hsendable := hrebuilt.stamps stamp
      (hstamps ▸ List.mem_flatten.mpr ⟨read, hread, hm⟩)
    rw [hx _ _ _ hvalue stamp hm, hlocal] at hsendable
    simp at hsendable
  · intro hheaders
    refine ⟨⟨name, messageType, hname, hdeclared, hmessage⟩, fun stamp hm => ?_⟩
    rw [hstamps] at hm
    obtain ⟨read, hread, hm⟩ := List.mem_flatten.mp hm
    obtain ⟨entry, hentry, hdecoded⟩ := exists_of_mem_right hrows hread
    obtain ⟨-, rfl⟩ | ⟨stampType, hnamed, hvalue⟩ := decodeHeader_eq_ok hdecoded
    · simp at hm
    · have hcls := hx _ _ _ hvalue stamp hm
      cases hlocal : stampType.nonSendable with
      | false => rw [hcls, hlocal]
      | true =>
        rw [hheaders entry hentry stampType hnamed hlocal] at hvalue
        obtain rfl := Except.ok.inj hvalue
        simp at hm

/-- A serializer that reads a number, and a list of one received stamp. -/
def forgedSerializer : XtrSerializer Int where
  serialize _ _ := .error "cannot be written"
  deserialize
    | .cls _, _ => .ok 5
    | .listOf stampType, _ =>
      if stampType = .shipped .received then .ok [.shipped (.received "forged")] else .ok []

theorem forgedSerializer_readsExactly : forgedSerializer.ReadsExactly := by
  intro stampType text read h stamp hm
  simp only [forgedSerializer] at h
  split_ifs at h with ht
  · obtain rfl := Except.ok.inj h
    obtain rfl := List.mem_singleton.mp hm
    exact ht.symm
  · obtain rfl := Except.ok.inj h
    simp at hm

/-- An envelope with a header someone wrote. -/
def forgedEnvelope : EncodedEnvelope :=
  ⟨"5", Dict.update .empty [(typeHeader, "test.number.v1"),
    (stampHeaderPrefix ++ "ReceivedStamp", "[\x7b\"transport_name\":\"forged\"\x7d]")]⟩

section
attribute [local instance] Unicode.ascii

theorem rebuilt_iff_default : ∃ decoded,
    (create forgedSerializer none).decode sampleMessages .empty forgedEnvelope = .ok decoded ∧
      Rebuilt (create forgedSerializer none) sampleMessages forgedEnvelope decoded := by
  have hdecoded : (create forgedSerializer none).decode sampleMessages .empty forgedEnvelope =
      .ok ⟨5, []⟩ := rfl
  refine ⟨⟨5, []⟩, hdecoded, (rebuilt_iff forgedSerializer_readsExactly hdecoded).mpr ?_⟩
  intro entry hentry stampType hnamed hlocal
  have hnone : ∀ entry ∈ forgedEnvelope.headers.entries,
      (create forgedSerializer none).namedBy .empty entry.1 = none := by decide
  rw [hnone entry hentry] at hnamed
  simp at hnamed

/-- A class of stamps that never leave the process, in a serializer's own list, is restored from
whatever header names it. -/
theorem listed_stamp_forged : ¬∀ (s : JsonSerializer Int) (messages : MessageRegistry)
    (stamps : StampRegistry) (encoded : EncodedEnvelope) (decoded : Envelope Int),
    s.serializer.ReadsExactly → StampRegistry.empty.Grows Int stamps →
    s.decode messages stamps encoded = .ok decoded → Rebuilt s messages encoded decoded := by
  intro h
  have hrebuilt := h (create forgedSerializer (some [.shipped .received])) sampleMessages .empty
    forgedEnvelope ⟨5, [.shipped (.received "forged")]⟩ forgedSerializer_readsExactly .refl rfl
  exact absurd (hrebuilt.stamps _ (List.mem_singleton_self _)) (by decide)

end

end JsonSerializer
end XtrMessenger
