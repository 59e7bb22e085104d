import XtrMessenger.Serialization.Forged

/-! An envelope read and written again by one process after another. -/
namespace XtrMessenger
open Foundation
variable {ω : Type}

/-- A process that reads an envelope and writes it again, and what is declared there. -/
structure Hop (ω : Type) where
  serializer : JsonSerializer ω
  messages : MessageRegistry
  stamps : StampRegistry

namespace Hop

def relay [Unicode] [PyObject ω] (hop : Hop ω) (encoded : EncodedEnvelope) :
    Except (Exc ω) EncodedEnvelope := do
  hop.serializer.encode hop.messages (← hop.serializer.decode hop.messages hop.stamps encoded)

/-- Whether stamps of a class are restored as they were. -/
def restores (hop : Hop ω) (stampType : StampClass) : Bool :=
  hop.serializer.stampTypeFor hop.stamps stampType.name = some stampType

/-- Whether a header holds stamps that are restored. -/
def keeps (hop : Hop ω) (entry : String × String) : Bool :=
  (hop.serializer.namedBy hop.stamps entry.1).isSome

end Hop

def relay [Unicode] [PyObject ω] (hops : List (Hop ω)) (encoded : EncodedEnvelope) :
    Except (Exc ω) EncodedEnvelope := hops.foldlM (fun encoded hop => hop.relay encoded) encoded

/-- The name a class written under `name` has where the last process writes it. -/
def nameAfter (messageType : PyType) (name : String) : List (Hop ω) → String
  | [] => name
  | hop :: hops => nameAfter messageType (hop.messages.nameOf messageType) hops

/-- Every process finds the class under the name the one before it wrote. -/
def KnownTo (messageType : PyType) (name : String) : List (Hop ω) → Prop
  | [] => True
  | hop :: hops => name ≠ "" ∧ hop.messages.typeByName.get? name = some messageType ∧
    KnownTo messageType (hop.messages.nameOf messageType) hops

/-- A process reads what `x` wrote of an envelope. -/
def Hop.Reads (hop : Hop ω) (x : XtrSerializer ω) (e : Envelope ω) : Prop :=
  hop.serializer.serializer = x ∧ hop.serializer.Restores hop.stamps e

/-- What an envelope is after the processes it passed through. -/
structure Relayed [Unicode] [PyObject ω] (x : XtrSerializer ω) (hops : List (Hop ω)) (name : String)
    (e : Envelope ω) (encoded relayed : EncodedEnvelope) : Prop where
  body : relayed.body = encoded.body
  /-- A stamp header is as it was written first, or a process dropped it. -/
  headers : relayed.headers.entries =
    (typeHeader, nameAfter (PyObject.typeOf e.message) name hops) ::
      encoded.headers.entries.filter fun entry =>
        entry.1 ≠ typeHeader && hops.all fun hop => hop.keeps entry
  read : ∀ reader : Hop ω, reader.Reads x e →
    KnownTo (PyObject.typeOf e.message) name (hops ++ [reader]) →
      reader.serializer.decode reader.messages reader.stamps relayed =
        .ok ⟨e.message, regrouped Stamp.cls (e.sendable.filter fun stamp =>
          (hops ++ [reader]).all fun hop => hop.restores stamp.cls)⟩

namespace JsonSerializer
variable {s t : JsonSerializer ω} {stamps : StampRegistry} {messages : MessageRegistry}
  {e : Envelope ω}

/-- What is written depends on no stamp types. -/
theorem encode_of_serializer [Unicode] [PyObject ω] (h : s.serializer = t.serializer) :
    s.encode messages e = t.encode messages e := by
  unfold encode encodeStamps
  rw [h]

theorem written_unique : Relator.RightUnique s.Written := by
  rintro group ⟨header, value⟩ ⟨header', value'⟩ ⟨rfl, h⟩ ⟨rfl, h'⟩
  simpa using h.symm.trans h'

/-- An envelope is encoded where its message and each group of its stamps is written. -/
theorem encode_of_written [Unicode] [PyObject ω] {body : String} {written : List (String × String)}
    (hbody : s.serializer.serialize (.cls (PyObject.typeOf e.message)) e.message = .ok body)
    (hw : List.Forall₂ s.Written (groupBy (fun stamp => stamp.cls.name) e.sendable).entries
      written) :
    ∃ encoded, s.encode messages e = .ok encoded ∧ encoded.body = body ∧
      encoded.headers.entries =
        (typeHeader, messages.nameOf (PyObject.typeOf e.message)) :: written := by
  have hstamps : ∃ headers, s.encodeStamps (e.withoutStamps .nonSendable) = .ok headers := by
    refine ⟨_, bind_eq_ok_iff.mpr ⟨written, mapM_eq_ok_iff.mpr ?_, rfl⟩⟩
    apply hw.imp
    rintro ⟨stampName, first, rest⟩ entry ⟨hheader, hv⟩
    simp [hv, ← hheader, Except.map]
  obtain ⟨headers, hstamps⟩ := hstamps
  have hencoded : ∃ encoded, s.encode messages e = .ok encoded := by
    unfold encode
    dsimp only
    rw [hbody, hstamps]
    exact ⟨_, rfl⟩
  obtain ⟨encoded, hencoded⟩ := hencoded
  obtain ⟨hbody', written', hentries, hw'⟩ := encode_written hencoded
  refine ⟨encoded, hencoded, ?_, ?_⟩
  · simpa using hbody'.symm.trans hbody
  · rw [hentries, List.right_unique_forall₂' written_unique hw' hw]

end JsonSerializer

open JsonSerializer

section Hops
variable {x : XtrSerializer ω} {s : JsonSerializer ω} {messages : MessageRegistry} {e : Envelope ω}

theorem Hop.Reads.of_subset {hop : Hop ω} (h : hop.Reads x e) {d : Envelope ω}
    (hd : ∀ stamp ∈ d.sendable, stamp ∈ e.sendable) : hop.Reads x d :=
  ⟨h.1, h.2.values, fun stamp hm => h.2.classes stamp (hd stamp hm)⟩

/-- What a process reads of an envelope. -/
def Hop.readOf (hop : Hop ω) (e : Envelope ω) : Envelope ω :=
  ⟨e.message, regrouped Stamp.cls (e.sendable.filter fun stamp => hop.restores stamp.cls)⟩

theorem Hop.sendable_readOf (hop : Hop ω) (e : Envelope ω) :
    (hop.readOf e).sendable = (hop.readOf e).stamps := by
  refine List.filter_eq_self.mpr fun stamp hm => ?_
  have hs := (List.mem_filter.mp (mem_regrouped hm)).1
  simp [Stamp.isInstance, (Envelope.mem_sendable.mp hs).2]

theorem Hop.mem_readOf {hop : Hop ω} {stamp : Stamp ω} (h : stamp ∈ (hop.readOf e).sendable) :
    stamp ∈ e.sendable := by
  rw [hop.sendable_readOf] at h
  exact (List.mem_filter.mp (mem_regrouped h)).1

/-- The groups a process writes are those it read, each whole or not at all. -/
theorem Hop.Reads.groups {hop : Hop ω} (h : hop.Reads x e) :
    (groupBy (fun stamp : Stamp ω => stamp.cls.name) (hop.readOf e).sendable).entries =
      (groupBy (fun stamp : Stamp ω => stamp.cls.name) e.sendable).entries.filter fun group =>
        (hop.serializer.stampTypeFor hop.stamps group.1).isSome := by
  have hrestored : ∀ stamp ∈ e.sendable.filter (fun stamp => hop.restores stamp.cls),
      hop.serializer.stampTypeFor hop.stamps stamp.cls.name = some stamp.cls := by
    intro stamp hm
    simpa [Hop.restores] using (List.mem_filter.mp hm).2
  have hknown : e.sendable.filter (fun stamp => hop.restores stamp.cls) =
      e.sendable.filter fun stamp =>
        (hop.serializer.stampTypeFor hop.stamps stamp.cls.name).isSome := by
    refine List.filter_congr fun stamp hm => ?_
    simp [Hop.restores, ← h.2.isSome_iff hm]
  rw [hop.sendable_readOf, Hop.readOf, ← regrouped_comp (cls_eq_of_restored hrestored),
    entries_regrouped, hknown]
  exact entries_filter (fun stamp : Stamp ω => stamp.cls.name)
    (fun name => (hop.serializer.stampTypeFor hop.stamps name).isSome) e.sendable

theorem keeps_written {hop : Hop ω} {group : String × Stamp ω × List (Stamp ω)}
    {entry : String × String} (h : s.Written group entry) :
    hop.keeps entry = (hop.serializer.stampTypeFor hop.stamps group.1).isSome := by
  rw [Hop.keeps, namedBy, h.1, Text.afterStart_append, Option.bind_some]

theorem written_ne_typeHeader {groups : List (String × Stamp ω × List (Stamp ω))}
    {written : List (String × String)} (h : List.Forall₂ s.Written groups written) :
    ∀ entry ∈ written, entry.1 ≠ typeHeader := by
  intro entry hm heq
  obtain ⟨group, -, hheader, -⟩ := exists_of_mem_right h hm
  exact prefix_ne_typeHeader group.1 (hheader.symm.trans heq)

/-- Past the type header, the headers of an envelope that was encoded are those of its stamps. -/
theorem filter_headers {groups : List (String × Stamp ω × List (Stamp ω))} {name : String}
    {written : List (String × String)} (h : List.Forall₂ s.Written groups written)
    (p : String × String → Bool) :
    ((typeHeader, name) :: written).filter (fun entry => entry.1 ≠ typeHeader && p entry) =
      written.filter p := by
  rw [List.filter_cons_of_neg (by simp)]
  refine List.filter_congr fun entry hm => ?_
  simp [written_ne_typeHeader h entry hm]

variable [Unicode] [PyObject ω] {name : String} {encoded : EncodedEnvelope}

theorem Hop.Reads.decode {hop : Hop ω} (h : hop.Reads x e) (hs : s.serializer = x)
    (hencoded : s.encode messages e = .ok encoded)
    (hname : messages.nameOf (PyObject.typeOf e.message) = name)
    (hk : KnownTo (PyObject.typeOf e.message) name [hop]) :
    hop.serializer.decode hop.messages hop.stamps encoded = .ok (hop.readOf e) :=
  decode_restorable h.2 hname hk.1 hk.2.1
    ((encode_of_serializer (h.1.trans hs.symm)).trans hencoded)

/-- What one process writes again: what it read, under its own name for the class. -/
theorem Hop.Reads.relay {hop : Hop ω} (h : hop.Reads x e) (hs : s.serializer = x)
    (hencoded : s.encode messages e = .ok encoded)
    (hname : messages.nameOf (PyObject.typeOf e.message) = name)
    (hk : KnownTo (PyObject.typeOf e.message) name [hop]) :
    ∃ relayed, hop.relay encoded = .ok relayed ∧
      hop.serializer.encode hop.messages (hop.readOf e) = .ok relayed ∧
      relayed.body = encoded.body ∧ relayed.headers.entries =
        (typeHeader, hop.messages.nameOf (PyObject.typeOf e.message)) ::
          encoded.headers.entries.filter fun entry =>
            entry.1 ≠ typeHeader && hop.keeps entry := by
  have hread := h.decode hs hencoded hname hk
  rw [encode_of_serializer (hs.trans h.1.symm)] at hencoded
  obtain ⟨hbody, written, hentries, hw⟩ := encode_written hencoded
  have hkept : List.Forall₂ hop.serializer.Written
      (groupBy (fun stamp : Stamp ω => stamp.cls.name) (hop.readOf e).sendable).entries
      (written.filter hop.keeps) := by
    rw [h.groups]
    refine List.rel_filter (fun group entry hr => ?_) hw
    dsimp only
    rw [keeps_written hr]
  obtain ⟨relayed, hrelayed, hb, hheaders⟩ := encode_of_written (e := hop.readOf e) hbody hkept
  refine ⟨relayed, ?_, hrelayed, hb, ?_⟩
  · rw [Hop.relay, hread]
    exact hrelayed
  · rw [hheaders, hentries, filter_headers hw]
    rfl

/-- Through however many processes an envelope is relayed, none fails, the message stays as it was
written, and the stamps left are those that every one of them restores. -/
theorem relays {hops : List (Hop ω)} (hr : ∀ hop ∈ hops, hop.Reads x e) (hs : s.serializer = x)
    (hencoded : s.encode messages e = .ok encoded)
    (hname : messages.nameOf (PyObject.typeOf e.message) = name)
    (hk : KnownTo (PyObject.typeOf e.message) name hops) :
    ∃ relayed, XtrMessenger.relay hops encoded = .ok relayed ∧
      Relayed x hops name e encoded relayed := by
  induction hops generalizing e s messages name encoded with
  | nil =>
    refine ⟨encoded, rfl, rfl, ?_, ?_⟩
    · obtain ⟨-, written, hentries, hw⟩ := encode_written hencoded
      rw [hentries, filter_headers hw, hname]
      simp [nameAfter]
    · intro reader hreader hreads
      rw [hreader.decode hs hencoded hname hreads]
      simp [Hop.readOf]
  | cons hop hops ih =>
    have hhop := hr hop List.mem_cons_self
    obtain ⟨written, hwritten, hagain, hbody, hheaders⟩ :=
      hhop.relay hs hencoded hname ⟨hk.1, hk.2.1, trivial⟩
    have hrest : ∀ later ∈ hops, later.Reads x (hop.readOf e) := fun later hm =>
      (hr later (List.mem_cons_of_mem _ hm)).of_subset fun _ => Hop.mem_readOf
    obtain ⟨relayed, hrelay, hrelayed⟩ := ih hrest hhop.1 hagain rfl hk.2.2
    refine ⟨relayed, ?_, hrelayed.body.trans hbody, ?_, ?_⟩
    · rw [XtrMessenger.relay, List.foldlM_cons, hwritten]
      exact hrelay
    · rw [hrelayed.headers, hheaders, List.filter_cons_of_neg (by simp), List.filter_filter]
      congr 1
      refine List.filter_congr fun entry _ => ?_
      by_cases htype : entry.1 = typeHeader <;> simp [htype, Bool.and_comm]
    · intro reader hreader hreads
      rw [hrelayed.read reader (hreader.of_subset fun _ => Hop.mem_readOf) hreads.2.2,
        hop.sendable_readOf, Hop.readOf]
      have hagain := regrouped_regrouped_filter (Stamp.cls : Stamp ω → StampClass)
        (fun stampType => (hops ++ [reader]).all fun hop => hop.restores stampType)
        (e.sendable.filter fun stamp => hop.restores stamp.cls)
      rw [hagain, List.filter_filter]
      simp only [List.cons_append, List.all_cons, Bool.and_comm]

end Hops

section Samples
attribute [local instance] Unicode.ascii

/-- A process that restores the redelivery stamps alone. -/
def redeliveriesOnly : Hop Int :=
  ⟨create sampleSerializer (some [.shipped .redelivery]), sampleMessages, .empty⟩

/-- One that restores all that the library ships. -/
def everyStamp : Hop Int := ⟨create sampleSerializer none, sampleMessages, .empty⟩

theorem sample_reads {hop : Hop Int} (h : hop = redeliveriesOnly ∨ hop = everyStamp) :
    hop.Reads sampleSerializer sampleEnvelope := by
  have hclasses : ∀ stamp ∈ sampleEnvelope.sendable,
      ∀ stampType ∈ hop.serializer.stampTypeFor hop.stamps stamp.cls.name,
        stampType = stamp.cls := by
    rcases h with rfl | rfl <;> decide
  rcases h with rfl | rfl <;> exact ⟨rfl, sampleSerializer_roundTrips, hclasses⟩

theorem relays_delayDropped : ∃ encoded relayed,
    (create sampleSerializer none).encode sampleMessages sampleEnvelope = .ok encoded ∧
      relay [everyStamp, redeliveriesOnly] encoded = .ok relayed ∧
      encoded.headers.keys = [typeHeader, "X-Message-Stamp-RedeliveryStamp",
        "X-Message-Stamp-DelayStamp"] ∧
      relayed.headers.keys = [typeHeader, "X-Message-Stamp-RedeliveryStamp"] ∧
      everyStamp.serializer.decode everyStamp.messages everyStamp.stamps relayed =
        .ok ⟨5, [.shipped (.redelivery 1), .shipped (.redelivery 2)]⟩ := by
  obtain ⟨encoded, he⟩ : ∃ encoded,
      (create sampleSerializer none).encode sampleMessages sampleEnvelope = .ok encoded := ⟨_, rfl⟩
  have hreads : ∀ hop ∈ [everyStamp, redeliveriesOnly],
      hop.Reads sampleSerializer sampleEnvelope := by
    intro hop hm
    rcases List.mem_pair.mp hm with rfl | rfl
    · exact sample_reads (.inr rfl)
    · exact sample_reads (.inl rfl)
  have hknown : KnownTo (PyObject.typeOf sampleEnvelope.message) "test.number.v1"
      ([everyStamp, redeliveriesOnly] ++ [everyStamp]) := by
    refine ⟨by decide, rfl, by decide, rfl, by decide, rfl, trivial⟩
  obtain ⟨relayed, hrelay, h⟩ := relays hreads rfl he rfl
    ⟨by decide, rfl, by decide, rfl, trivial⟩
  refine ⟨encoded, relayed, he, hrelay, ?_, ?_, ?_⟩
  · obtain rfl := Except.ok.inj he
    rfl
  · rw [Dict.keys, h.headers]
    obtain rfl := Except.ok.inj he
    decide
  · rw [h.read everyStamp (sample_reads (.inr rfl)) hknown]
    exact congrArg Except.ok (by decide)

end Samples
end XtrMessenger
