/-
  Sender and receiver agree on the content mode.

  The receiver knows nothing but the content type of a message.  A document always announces itself.  A
  message in binary mode has no header of that name, since neither a slot nor a plain extension attribute
  is called so; the exception is the keyed record, whose content type is that of the data.  There an event
  whose data is itself declared an envelope (`DeclaresEnvelope`) is taken for a document or refused, and
  `receive_mode_iff` says that this is the only way in which the two can disagree.
-/
import CloudEvents.Proofs.Wire.Records
import CloudEvents.Wire.Codec

namespace CloudEvents

/-- The content type of an event's data belongs to the family of media types that announce envelopes. -/
def Event.DeclaresEnvelope (e : Event) : Prop :=
  ∃ c, e.dataContentType = some c ∧ Wire.envelopeMediaType.isPrefixOf (mediaTypeOf c.text) = true

instance (e : Event) : Decidable e.DeclaresEnvelope :=
  decidable_of_iff (e.dataContentType.any fun c => Wire.envelopeMediaType.isPrefixOf (mediaTypeOf c.text))
    (by unfold Event.DeclaresEnvelope; cases e.dataContentType <;> simp)

/-! ## Plain names and the content type -/

theorem toLower_of_plain {c : Char} (h : c.isLower = true ∨ c.isDigit = true) : c.toLower = c := by
  unfold Char.toLower
  split
  · rename_i hu
    have hlower : c.isLower = (decide (c.val ≥ 97) && decide (c.val ≤ 122)) := rfl
    simp only [hlower, Char.isDigit, Bool.and_eq_true, decide_eq_true_eq, ge_iff_le,
      UInt32.le_iff_toNat_le] at h hu
    simp at h hu
    omega
  · rfl

/-- No plain name is that of the content type, in any case of its letters: it has no hyphen. -/
theorem IsPlainName.not_contentType {n : String} (h : IsPlainName n) :
    Text.sameIgnoringCase n.toList contentTypeHeader.toList = false := by
  cases hs : Text.sameIgnoringCase n.toList contentTypeHeader.toList with
  | false => rfl
  | true =>
    -- Small letters and digits are their own lower case, so the hyphen would stand in the name itself.
    have hmem : '-' ∈ Text.lower n.toList := by
      rw [Text.sameIgnoringCase_iff.1 hs]
      decide
    obtain ⟨c, hc, hlow⟩ := List.mem_map.1 hmem
    rw [toLower_of_plain (h c hc)] at hlow
    subst hlow
    exact absurd (h '-' hc) (by decide)

namespace Wire

/-! ## What a content type announces -/

/-- Every media type is of a binary message that does not start like that of an envelope. -/
theorem modeOf_eq_binary_iff {s : String} :
    modeOf s = .ok .binary ↔ envelopeMediaType.isPrefixOf (mediaTypeOf s) = false := by
  unfold modeOf announcesStructured announcement
  cases envelopeMediaType.isPrefixOf (mediaTypeOf s) with
  | false => simp [Except.map]
  | true =>
    simp only [Bool.not_true, Bool.false_eq_true, if_false]
    split <;> rename_i h <;> split at h <;> simp_all [Except.map]

theorem modeOf_structuredContentType : modeOf Structured.contentType = .ok .structured := by
  rfl

/-- A document is announced by the one header it has. -/
theorem detectMode_structuredMessage (style : Json.Style) (e : Event) (f : Fresh) :
    detectMode (structuredMessage style e f).headers = .ok .structured := by
  have hfind : (structuredMessage style e f).headers.findIgnoringCase? contentTypeHeader =
      some (contentTypeHeader, .text Structured.contentType) := by
    refine NameMap.findName?_eq_some_iff.2 ⟨rfl, by decide, ?_⟩
    intro k w hk _ hlt
    have hk' : NameMap.lookup k [(contentTypeHeader, HeaderValue.text Structured.contentType)] = some w := hk
    rw [NameMap.lookup] at hk'
    split at hk'
    · rename_i heq
      exact String.lt_irrefl _ (heq ▸ hlt)
    · exact absurd hk' (by simp [NameMap.lookup])
  unfold detectMode
  rw [hfind]
  exact modeOf_structuredContentType

/-! ## Messages in binary mode -/

section Binary

variable {b : Binding} {e : Event} {f : Fresh}

/-- No slot is written under the name of the content type, in whatever case. -/
theorem headerName_not_contentType (b : Binding) (w : WellKnown) :
    Text.sameIgnoringCase (b.headerName w.name).toList contentTypeHeader.toList = false := by
  cases b <;> cases w <;> decide

/-- Under a name of the content type stands an extension attribute, or nothing. -/
theorem get?_headers_of_contentType {n : String}
    (h : Text.sameIgnoringCase n.toList contentTypeHeader.toList = true) :
    (Binary.headers b e f).get? n = (e.attribute? n).map .text := by
  refine Binary.get?_headers_of_ne b e f fun w hw => ?_
  rw [hw, headerName_not_contentType b w] at h
  exact absurd h (by decide)

/-- Where the names of the extension attributes are not that of the content type, no header's is. -/
theorem findIgnoringCase?_headers
    (h : ∀ n v, e.attribute? n = some v →
      Text.sameIgnoringCase n.toList contentTypeHeader.toList = false) :
    (Binary.headers b e f).findIgnoringCase? contentTypeHeader = none := by
  refine NameMap.findName?_eq_none_iff.2 ?_
  intro n v hv
  cases hs : Text.sameIgnoringCase n.toList contentTypeHeader.toList with
  | false => rfl
  | true =>
    rw [get?_headers_of_contentType hs] at hv
    obtain ⟨x, hx, -⟩ := Option.map_eq_some_iff.1 hv
    rw [h n x hx] at hs
    exact absurd hs (by decide)

/-- What a record carries for its content type: that of the data, or else an extension attribute with
the name of either of the two headers. -/
theorem carriedContentType_eq :
    Record.carriedContentType b (Binary.headers b e f) =
      (e.dataContentType.map fun c => .text c.text).or
        (((e.attribute? (Record.dataContentTypeHeader b)).or (e.attribute? contentTypeHeader)).map
          .text) := by
  have hct := get?_headers_of_contentType (b := b) (e := e) (f := f) (n := contentTypeHeader) (by decide)
  have hdct := Binary.get?_headers_headerName b e f .datacontenttype
  unfold Record.carriedContentType
  rw [hct, Record.dataContentTypeHeader, hdct, Binary.slotValue?, Option.or_assoc, Option.map_or]

/-- What a record of plain names carries for its content type is that of the data. -/
theorem carriedContentType_headers (hn : e.HasPlainNames) (hb : b.lead?.isSome = true) :
    Record.carriedContentType b (Binary.headers b e f) = e.dataContentType.map fun c => .text c.text := by
  have hdct : ¬IsPlainName (Record.dataContentTypeHeader b) := by
    intro hplain
    obtain ⟨lead, hl⟩ := Option.isSome_iff_exists.1 hb
    refine hplain.ne_append (m := WellKnown.datacontenttype.name) (Binding.exists_not_plain hl) ?_
    rw [Record.dataContentTypeHeader, Binding.headerName, hl]
  have hct : ¬IsPlainName contentTypeHeader := by decide
  rw [carriedContentType_eq, Event.attribute?_eq_none hn hdct, Event.attribute?_eq_none hn hct]
  exact Option.or_none

/-- Where there are no headers for instants, every header of an event is a text. -/
theorem text_display_headers (hb : b.hasTimeHeaders = false) {n : String} {v : HeaderValue}
    (hv : (Binary.headers b e f).get? n = some v) : HeaderValue.text v.display = v := by
  rw [Binary.get?_headers] at hv
  rcases Option.or_eq_some_iff.1 hv with hs | ⟨-, hs⟩
  · by_cases hn : ∃ w : WellKnown, n = b.headerName w.name
    · obtain ⟨w, rfl⟩ := hn
      rw [Binary.get?_slotHeaders] at hs
      cases w <;> simp only [Binary.slotValue?, Binary.timeValue, hb, Bool.false_eq_true, if_false,
        Option.map_eq_some_iff, Option.some.injEq] at hs
      all_goals first
        | (subst hs; rfl)
        | (obtain ⟨_, _, rfl⟩ := hs; rfl)
    · rw [Binary.get?_slotHeaders_of_ne b e f fun w hw => hn ⟨w, hw⟩] at hs
      exact absurd hs (by simp)
  · obtain ⟨x, -, rfl⟩ := Option.map_eq_some_iff.1 hs
    rfl

end Binary

/-! ## What arrives -/

theorem rewrites_iff {b : Binding} : b.rewrites = true ↔ b = .kafka := by
  cases b <;> decide

/-- The message that the codec of a configuration makes, before it is handed to the transport. -/
def codecMessage (c : Config) (e : Event) (f : Fresh) : Outgoing :=
  match c.mode with
  | .binary => Binary.encode c.binding e f
  | .structured => structuredMessage c.style e f

/-- A message is decoded in the mode that it is received in. -/
theorem decode_eq (b : Binding) (m : Message) :
    decode b m =
      match (receive b m).2 with
      | .error err => .error err
      | .ok .binary => Binary.decode b (receive b m).1
      | .ok .structured => Structured.decode b (receive b m).1.payload.asText := by
  unfold decode
  obtain ⟨m', mode⟩ := receive b m
  cases mode with
  | error err => rfl
  | ok mode => cases mode <;> rfl

section Arrival

variable {c : Config} {e : Event} {f : Fresh}

/-- A record is received with its headers rewritten on both ways. -/
theorem receive_encode_of_record (hb : c.binding.rewrites = true) :
    receive c.binding (encode c e f).received =
      ({ payload := (codecMessage c e f).payload
         headers := (Record.incoming c.binding
           (Record.outgoing c.binding e (codecMessage c e f).headers)).1 },
        (Record.incoming c.binding (Record.outgoing c.binding e (codecMessage c e f).headers)).2) := by
  unfold receive encode
  simp only [hb, if_true]
  rfl

theorem receive_encode_of_not_record (hb : c.binding.rewrites = false) :
    receive c.binding (encode c e f).received =
      ((codecMessage c e f).received, detectMode (codecMessage c e f).headers) := by
  unfold receive encode
  simp only [hb, Bool.false_eq_true, if_false]
  rfl

/-- What is sent as a document is received as one. -/
theorem receive_mode_structured (hm : c.mode = .structured) :
    (receive c.binding (encode c e f).received).2 = .ok .structured := by
  have hmsg : codecMessage c e f = structuredMessage c.style e f := by rw [codecMessage, hm]
  cases hb : c.binding.rewrites with
  | false =>
    rw [receive_encode_of_not_record hb, hmsg]
    exact detectMode_structuredMessage c.style e f
  | true =>
    -- A document has its content type under the very name that a record carries one under.
    rw [receive_encode_of_record hb, hmsg, rewrites_iff.1 hb]
    show (Record.incoming _ _).2 = _
    rw [Record.arrivedMode_eq]
    exact modeOf_structuredContentType

/-- What is sent in binary mode is received so, but for a record that declares its data an envelope. -/
theorem receive_mode_binary_iff (hn : e.HasPlainNames) (hm : c.mode = .binary) :
    (receive c.binding (encode c e f).received).2 = .ok .binary ↔
      ¬(c.binding = .kafka ∧ e.DeclaresEnvelope) := by
  have hmsg : codecMessage c e f = Binary.encode c.binding e f := by rw [codecMessage, hm]
  cases hb : c.binding.rewrites with
  | false =>
    have hk : c.binding ≠ .kafka := fun h => by rw [rewrites_iff.2 h] at hb; exact absurd hb (by decide)
    -- Plain names leave no header that could be taken for a content type.
    rw [receive_encode_of_not_record hb, hmsg]
    simp only [hk, false_and, not_false_eq_true, iff_true]
    show detectMode (Binary.headers c.binding e f) = _
    unfold detectMode
    rw [findIgnoringCase?_headers fun n v hv => (hn n v hv).not_contentType]
  | true =>
    have hk := rewrites_iff.1 hb
    rw [receive_encode_of_record hb, hmsg]
    show (Record.incoming _ (Record.outgoing _ _ (Binary.headers c.binding e f))).2 = _ ↔ _
    rw [Record.arrivedMode_eq, carriedContentType_headers hn (by rw [hk]; rfl)]
    unfold Event.DeclaresEnvelope
    cases hd : e.dataContentType with
    | none => simp
    | some ct =>
      simp only [Option.map_some, HeaderValue.display, modeOf_eq_binary_iff, hk, Option.some.injEq,
        exists_eq_left', true_and, Bool.not_eq_true]

/-- A document arrives as it was written. -/
theorem decode_encode_structured (hm : c.mode = .structured) :
    decode c.binding (encode c e f).received =
      Structured.decode c.binding (Structured.encode c.style e f) := by
  have hmsg : codecMessage c e f = structuredMessage c.style e f := by rw [codecMessage, hm]
  rw [decode_eq, receive_mode_structured hm]
  cases hb : c.binding.rewrites with
  | false => rw [receive_encode_of_not_record hb, hmsg]; rfl
  | true => rw [receive_encode_of_record hb, hmsg]; rfl

/-- The headers of a record of plain names are free where the moves need them to be, so the moves cancel
out. -/
theorem incoming_outgoing_headers {b : Binding} (hb : b.rewrites = true) (hn : e.HasPlainNames)
    (hm : (Record.incoming b (Record.outgoing b e (Binary.headers b e f))).2 = .ok .binary) :
    (Record.incoming b (Record.outgoing b e (Binary.headers b e f))).1 = Binary.headers b e f := by
  have hk := rewrites_iff.1 hb
  have hfree : ∀ n, ¬IsPlainName n → (∀ w : WellKnown, n ≠ b.headerName w.name) →
      (Binary.headers b e f).get? n = none := by
    intro n hplain hne
    rw [Binary.get?_headers_of_ne _ _ _ hne, Event.attribute?_eq_none hn hplain]
    rfl
  refine Record.arrived_eq_self hm (fun n v hv => text_display_headers (by rw [hk]; rfl) hv) ?_ ?_ ?_
  · exact hfree _ (by decide) (by rw [hk]; intro w; cases w <;> decide)
  · exact hfree _ (by decide) (by rw [hk]; intro w; cases w <;> decide)
  · exact Binary.get?_headers_of_ne _ _ _ (by rw [hk]; intro w; cases w <;> decide)

/-- A message of plain names arrives with the headers that were written. -/
theorem decode_encode_binary (hn : e.HasPlainNames) (hm : c.mode = .binary)
    (hd : ¬(c.binding = .kafka ∧ e.DeclaresEnvelope)) :
    decode c.binding (encode c e f).received =
      Binary.decode c.binding (Binary.encode c.binding e f).received := by
  have hmsg : codecMessage c e f = Binary.encode c.binding e f := by rw [codecMessage, hm]
  have hmode := (receive_mode_binary_iff (f := f) hn hm).2 hd
  rw [decode_eq, hmode]
  cases hb : c.binding.rewrites with
  | false => rw [receive_encode_of_not_record hb, hmsg]
  | true =>
    rw [receive_encode_of_record hb, hmsg] at hmode ⊢
    show Binary.decode c.binding ⟨_, (Record.incoming c.binding
        (Record.outgoing c.binding e (Binary.headers c.binding e f))).1⟩ = _
    rw [incoming_outgoing_headers hb hn hmode]
    rfl

/-- **Sender and receiver agree on the content mode**, and what was written in a mode is read in it, except
for a record in binary mode whose data is itself declared an envelope; such a record is never recognised. -/
theorem receive_mode_iff (c : Config) (e : Event) (f : Fresh) (hn : e.HasPlainNames) :
    ((receive c.binding (encode c e f).received).2 = .ok c.mode ↔
      ¬(c.binding = .kafka ∧ c.mode = .binary ∧ e.DeclaresEnvelope)) ∧
    ((receive c.binding (encode c e f).received).2 = .ok c.mode →
      decode c.binding (encode c e f).received =
        match c.mode with
        | .binary => Binary.decode c.binding (Binary.encode c.binding e f).received
        | .structured => Structured.decode c.binding (Structured.encode c.style e f)) := by
  cases hm : c.mode with
  | structured =>
    refine ⟨?_, fun _ => decode_encode_structured hm⟩
    simp only [receive_mode_structured hm, reduceCtorEq, false_and, and_false, not_false_eq_true]
  | binary =>
    have hiff := receive_mode_binary_iff (f := f) hn hm
    refine ⟨?_, fun h => decode_encode_binary hn hm (hiff.1 h)⟩
    simpa only [true_and] using hiff

end Arrival

/-- An event with a partition key and a data content type, both of which a record moves about. -/
def keyedEvent : Event where
  id := some "a-1"
  type := some "order.placed"
  dataContentType := some ⟨"text/plain; charset=utf-8", by decide +kernel⟩
  time := Instant.of? 1704067200 123456789
  attributes := (NameMap.empty.insert partitionKeyName "customer 7").insert "trace1" ""
  data := some (.octets [0, 255])
  binding := .http

theorem receive_mode_keyedEvent :
    keyedEvent.HasPlainNames ∧
      (receive .kafka (encode ⟨.kafka, .binary, false⟩ keyedEvent default).received).2 = .ok .binary ∧
      decode .kafka (encode ⟨.kafka, .binary, false⟩ keyedEvent default).received =
        Binary.decode .kafka (Binary.encode .kafka keyedEvent default).received := by
  have hn : keyedEvent.HasPlainNames := by decide +kernel
  obtain ⟨hiff, hdecode⟩ := receive_mode_iff ⟨.kafka, .binary, false⟩ keyedEvent default hn
  have hmode := hiff.2 fun h => absurd h.2.2 (by decide +kernel)
  exact ⟨hn, hmode, hdecode hmode⟩

/-- An event whose data is an envelope itself. -/
def enclosingEvent : Event where
  id := some "a-2"
  dataContentType := some ⟨"application/cloudevents+json", by decide +kernel⟩
  time := some .epoch
  data := some (.text "{}")
  binding := .kafka

/-- Such a record is taken for a document. -/
theorem receive_mode_enclosingEvent :
    enclosingEvent.HasPlainNames ∧
      (receive .kafka (encode ⟨.kafka, .binary, false⟩ enclosingEvent default).received).2 =
        .ok .structured := by
  have hn : enclosingEvent.HasPlainNames := by decide +kernel
  refine ⟨hn, ?_⟩
  rw [receive_encode_of_record (c := ⟨.kafka, .binary, false⟩) rfl]
  show (Record.incoming .kafka (Record.outgoing .kafka _ (Binary.headers .kafka enclosingEvent _))).2 = _
  rw [Record.arrivedMode_eq, carriedContentType_headers hn rfl]
  rfl

end Wire
end CloudEvents
