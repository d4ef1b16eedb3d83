/-
  What one extension attribute can do to the rest of an event in binary mode.

  An extension attribute travels under its own name, and that name may be one the reader takes for
  something else.  There are three ways (`Interferes`): it is the header that decides the content mode,
  it is the header of a slot that has no value, or it is the key of a record that has no partition key.
  A header that was written for a slot is never replaced, and neither is a partition key.

  Two runs are compared, with and without the attribute.  Outside the three ways the headers that arrive
  differ under the attribute's own name only, so both messages describe the same event but for that
  attribute.  In each of them some value changes what is read, or makes the message unreadable.

  Main statement: `agreeExcept_iff_not_interferes`.
-/
import CloudEvents.Proofs.Wire.BinaryReading
import CloudEvents.Proofs.Wire.Framing

namespace CloudEvents

/-- Two events that differ in one extension attribute at most. -/
structure Event.AgreeExcept (n : String) (d d' : Event) : Prop where
  rest : { d' with attributes := d.attributes } = d
  names : ∀ k, k ≠ n → d'.attribute? k = d.attribute? k

theorem Event.AgreeExcept.refl (n : String) (d : Event) : d.AgreeExcept n d where
  rest := rfl
  names _ _ := rfl

/-- A put attribute replaces the one of its name and no other. -/
theorem Event.attribute?_putAttribute (e : Event) (n v k : String) :
    (e.putAttribute n v).attribute? k = if n = k then some v else e.attribute? k :=
  NameMap.get?_insert ..

namespace Wire

/-! ## Messages that differ in one header -/

namespace Binary

variable {b : Binding} {m m' : Message} {d d' : Event}

/-- Messages with the same headers of slots describe events that differ in extension attributes only. -/
theorem Describes.transfer (h : Describes b m d) (hp : m'.payload = m.payload)
    (hslot : ∀ w : WellKnown, m'.headers.get? (b.headerName w.name) = m.headers.get? (b.headerName w.name))
    (hnl : m'.headers.get? "" = none) :
    ∃ d', Describes b m' d' ∧ { d' with attributes := d.attributes } = d := by
  have hh : ∀ w, slotHeader? b m'.headers w = slotHeader? b m.headers w := hslot
  have ht : ∀ w, slotText? b m'.headers w = slotText? b m.headers w := fun w => by
    rw [slotText?, hh, slotText?]
  have hs : ∀ (α : Type) [HeaderValue.Readable α] (w : WellKnown),
      slot b m'.headers α w = slot b m.headers α w := fun α _ w => by rw [slot, hh, slot]
  refine ⟨{ d with attributes := .ofList (extensions b m'.headers) }, ⟨?_, ?_, ?_, ?_, ?_, ?_, ?_, ?_, hnl,
    ?_, ?_, h.binding⟩, rfl⟩
  · rw [checkVersion, ht]
    exact h.version
  · rw [readId, ht]
    exact h.id
  · rw [hs]
    exact h.source
  · rw [ht]
    exact h.type
  · rw [hs]
    exact h.dataContentType
  · rw [hs]
    exact h.dataSchema
  · rw [ht]
    exact h.subject
  · rw [hs]
    exact h.time
  · intro n
    rw [Event.attribute?, NameMap.get?_ofList (nodup_extensions b _), lookup_extensions]
  · rw [hp]
    exact h.data

/-- Messages that differ in one header, which is no slot's, are read as events that differ in one
extension attribute. -/
theorem decode_agreeExcept {n : String} (hd : decode b m = .ok d) (hn : n ≠ "")
    (hp : m'.payload = m.payload)
    (hsame : ∀ k, (k ≠ n ∨ ∃ w : WellKnown, k = b.headerName w.name) →
      m'.headers.get? k = m.headers.get? k) :
    ∃ d', decode b m' = .ok d' ∧ d.AgreeExcept n d' := by
  have h := decode_eq_ok_iff.1 hd
  have hnl : m'.headers.get? "" = none := by
    rw [hsame "" (.inl hn.symm)]
    exact h.nameless
  obtain ⟨d', h', hrest⟩ := h.transfer hp (fun w => hsame _ (.inr ⟨w, rfl⟩)) hnl
  refine ⟨d', decode_eq_ok_iff.2 h', hrest, ?_⟩
  intro k hk
  rw [h'.attributes, h.attributes, hsame k (.inl hk)]

theorem exists_ne_some (x : Option String) : ∃ v, x ≠ some v := by
  cases x with
  | none => exact ⟨"", by simp⟩
  | some s =>
    refine ⟨s ++ "x", ?_⟩
    intro heq
    have := congrArg String.length (Option.some.inj heq)
    rw [String.length_append] at this
    exact absurd this (by simp)

/-- Whoever can write the header of a slot can change the event. -/
theorem exists_slot_changed (b : Binding) (w : WellKnown) (d : Event) :
    ∃ v, ∀ m d', m.headers.get? (b.headerName w.name) = some (.text v) → Describes b m d' →
      { d' with attributes := d.attributes } ≠ d := by
  have htext : ∀ {m : Message} {v}, m.headers.get? (b.headerName w.name) = some (.text v) →
      slotText? b m.headers w = some v := fun {m v} h => by
    rw [slotText?, slotHeader?, h]
    rfl
  -- A value that does not read as the type of the slot makes the message unreadable.
  have hbad : ∀ (α : Type) [HeaderValue.Readable α] {m : Message} {x : Option α},
      (HeaderValue.text "").read? α = none → m.headers.get? (b.headerName w.name) = some (.text "") →
      slot b m.headers α w ≠ .ok x := fun α _ m x hread h heq => by
    rw [slot, slotHeader?, h] at heq
    simp only [hread] at heq
    exact absurd heq (by simp)
  cases w with
  | id =>
    refine ⟨"", fun m d' hm h _ => ?_⟩
    have hid := h.id
    rw [readId, htext hm] at hid
    exact absurd hid (by simp)
  | specversion =>
    refine ⟨"", fun m d' hm h _ => ?_⟩
    have hv := h.version
    rw [checkVersion, htext hm] at hv
    exact absurd hv (by simp [specVersion])
  | source => exact ⟨"", fun m d' hm h _ => hbad Uri rfl hm h.source⟩
  | datacontenttype => exact ⟨"", fun m d' hm h _ => hbad ContentType rfl hm h.dataContentType⟩
  | dataschema => exact ⟨"", fun m d' hm h _ => hbad Uri rfl hm h.dataSchema⟩
  | time => exact ⟨"", fun m d' hm h _ => hbad Instant rfl hm h.time⟩
  | type =>
    obtain ⟨v, hv⟩ := exists_ne_some d.type
    refine ⟨v, fun m d' hm h heq => hv ?_⟩
    rw [← heq, ← htext hm]
    exact h.type.symm
  | subject =>
    obtain ⟨v, hv⟩ := exists_ne_some d.subject
    refine ⟨v, fun m d' hm h heq => hv ?_⟩
    rw [← heq, ← htext hm]
    exact h.subject.symm

end Binary

/-! ## The headers of an event with one more attribute -/

section Headers

variable {b : Binding} {e : Event} {f : Fresh} {n v : String}

theorem get?_headers_putAttribute_of_ne {k : String} (h : k ≠ n) :
    (Binary.headers b (e.putAttribute n v) f).get? k = (Binary.headers b e f).get? k := by
  rw [Binary.get?_headers, Binary.get?_headers, Event.attribute?_putAttribute, if_neg h.symm]
  rfl

/-- A slot's header with a value in it is never replaced. -/
theorem get?_headers_putAttribute_headerName {w : WellKnown}
    (h : n = b.headerName w.name → Binary.slotValue? b e f w ≠ none) :
    (Binary.headers b (e.putAttribute n v) f).get? (b.headerName w.name) =
      (Binary.headers b e f).get? (b.headerName w.name) := by
  by_cases hn : b.headerName w.name = n
  · obtain ⟨x, hx⟩ := Option.ne_none_iff_exists'.1 (h hn.symm)
    have hx' : Binary.slotValue? b (e.putAttribute n v) f w = some x := hx
    rw [Binary.get?_headers_headerName, Binary.get?_headers_headerName, hx, hx']
    rfl
  · exact get?_headers_putAttribute_of_ne hn

/-- A slot's header without a value in it is there for the taking. -/
theorem get?_headers_putAttribute_of_none {w : WellKnown} (hn : n = b.headerName w.name)
    (h : Binary.slotValue? b e f w = none) :
    (Binary.headers b (e.putAttribute n v) f).get? n = some (.text v) := by
  subst hn
  have h' : Binary.slotValue? b (e.putAttribute (b.headerName w.name) v) f w = none := h
  rw [Binary.get?_headers_headerName, h', Event.attribute?_putAttribute, if_pos rfl]
  rfl

end Headers

/-! ## The content mode -/

/-- The names whose headers decide in which content mode an event's message arrives: where messages are
records, that of the data content type and the one it is moved to, as long as nothing comes before them;
elsewhere the first name that is that of the content type but for the case of its letters. -/
def DecidesMode (b : Binding) (e : Event) (n : String) : Prop :=
  if b.rewrites then
    e.dataContentType = none ∧
      (n = Record.dataContentTypeHeader b ∨
        n = contentTypeHeader ∧ e.attribute? (Record.dataContentTypeHeader b) = none)
  else
    Text.sameIgnoringCase n.toList contentTypeHeader.toList = true ∧
      ∀ k v, e.attribute? k = some v → Text.sameIgnoringCase k.toList contentTypeHeader.toList = true →
        ¬k < n

/-- An event's message in binary mode, as it arrives, and the content mode it arrives in. -/
def arrived (b : Binding) (e : Event) (f : Fresh) : Message × Except Error ContentMode :=
  receive b (encode ⟨b, .binary, false⟩ e f).received

section Mode

variable {b : Binding} {e : Event} {f : Fresh} {n v : String}

/-- A record arrives with its headers rewritten on both ways. -/
theorem arrived_of_record (hb : b.rewrites = true) :
    arrived b e f =
      (⟨e.data.getD .empty, (Record.incoming b (Record.outgoing b e (Binary.headers b e f))).1⟩,
        (Record.incoming b (Record.outgoing b e (Binary.headers b e f))).2) :=
  receive_encode_of_record (c := ⟨b, .binary, false⟩) hb

theorem arrived_of_not_record (hb : b.rewrites = false) :
    arrived b e f = (⟨e.data.getD .empty, Binary.headers b e f⟩, detectMode (Binary.headers b e f)) :=
  receive_encode_of_not_record (c := ⟨b, .binary, false⟩) hb

/-- A record arrives in the mode of the content type that it carries. -/
theorem arrived_mode_of_record (hb : b.rewrites = true) :
    (arrived b e f).2 =
      match Record.carriedContentType b (Binary.headers b e f) with
      | none => .ok .binary
      | some x => modeOf x.display := by
  rw [arrived_of_record hb]
  exact Record.arrivedMode_eq ..

/-- An attribute that does not decide the content mode leaves what a record carries for it alone. -/
theorem carriedContentType_putAttribute (hb : b.rewrites = true) (h : ¬DecidesMode b e n) :
    Record.carriedContentType b (Binary.headers b (e.putAttribute n v) f) =
      Record.carriedContentType b (Binary.headers b e f) := by
  rw [carriedContentType_eq, carriedContentType_eq, Event.attribute?_putAttribute,
    Event.attribute?_putAttribute]
  rw [DecidesMode, if_pos hb, not_and, not_or, not_and] at h
  show (e.dataContentType.map _).or _ = _
  cases hd : e.dataContentType with
  | some c => rfl
  | none =>
    obtain ⟨hdct, hct⟩ := h hd
    rw [if_neg hdct]
    by_cases hn : n = contentTypeHeader
    · obtain ⟨x, hx⟩ := Option.ne_none_iff_exists'.1 (hct hn)
      rw [hx]
      rfl
    · rw [if_neg hn]

/-- **An attribute that does not decide on the mode leaves the mode alone.** -/
theorem arrived_mode_putAttribute (h : ¬DecidesMode b e n) :
    (arrived b (e.putAttribute n v) f).2 = (arrived b e f).2 := by
  cases hb : b.rewrites with
  | true =>
    rw [arrived_mode_of_record hb, arrived_mode_of_record hb, carriedContentType_putAttribute hb h]
  | false =>
    have hfind : (Binary.headers b (e.putAttribute n v) f).findIgnoringCase? contentTypeHeader =
        (Binary.headers b e f).findIgnoringCase? contentTypeHeader := by
      -- A name that differs in case only is found or not as before: an earlier one hides it.
      refine NameMap.findName?_eq_of_agree (n := n) (fun k hk => get?_headers_putAttribute_of_ne hk) ?_
      intro hn
      rw [DecidesMode, if_neg (by rw [hb]; decide)] at h
      have hearlier : ∃ k x, e.attribute? k = some x ∧
          Text.sameIgnoringCase k.toList contentTypeHeader.toList = true ∧ k < n := by
        refine Classical.not_not.1 fun hno => h ⟨hn, ?_⟩
        intro k x hx hk hlt
        exact hno ⟨k, x, hx, hk, hlt⟩
      obtain ⟨k, x, hx, hk, hlt⟩ := hearlier
      refine ⟨k, .text x, ?_, hk, hlt⟩
      rw [get?_headers_of_contentType hk, hx]
      rfl
    rw [arrived_of_not_record hb, arrived_of_not_record hb]
    show detectMode _ = detectMode _
    rw [detectMode, hfind, detectMode]

/-- An attribute that decides the content mode announces whatever its value says. -/
theorem arrived_mode_of_decidesMode (h : DecidesMode b e n) :
    (arrived b (e.putAttribute n v) f).2 = modeOf v := by
  cases hb : b.rewrites with
  | true =>
    rw [DecidesMode, if_pos hb] at h
    obtain ⟨hd, hn⟩ := h
    have hcarried : Record.carriedContentType b (Binary.headers b (e.putAttribute n v) f) =
        some (.text v) := by
      rw [carriedContentType_eq, Event.attribute?_putAttribute, Event.attribute?_putAttribute]
      show (e.dataContentType.map _).or _ = _
      rw [hd]
      rcases hn with rfl | ⟨rfl, hnone⟩
      · -- The attribute has the name of the data content type,
        rw [if_pos rfl]
        rfl
      · -- or that of the message's content type, which then has it alone.
        rw [if_neg (Record.contentTypeHeader_ne b), hnone, if_pos rfl]
        rfl
    rw [arrived_mode_of_record hb, hcarried]
    rfl
  | false =>
    rw [DecidesMode, if_neg (by rw [hb]; decide)] at h
    obtain ⟨hn, hfirst⟩ := h
    have hfind : (Binary.headers b (e.putAttribute n v) f).findIgnoringCase? contentTypeHeader =
        some (n, .text v) := by
      refine NameMap.findName?_eq_some_iff.2 ⟨?_, hn, ?_⟩
      · rw [get?_headers_of_contentType hn, Event.attribute?_putAttribute, if_pos rfl]
        rfl
      · -- Whatever comes before it would be an attribute too, and there is none.
        intro k x hk hct hlt
        have hne : n ≠ k := by
          rintro rfl
          exact String.lt_irrefl _ hlt
        rw [get?_headers_of_contentType hct, Event.attribute?_putAttribute, if_neg hne] at hk
        obtain ⟨y, hy, -⟩ := Option.map_eq_some_iff.1 hk
        exact hfirst k y hy hct hlt
    rw [arrived_of_not_record hb]
    show detectMode _ = _
    rw [detectMode, hfind]
    rfl

end Mode

/-! ## The three ways -/

/-- The ways in which an extension attribute of a name can change what is read elsewhere. -/
inductive Interferes (b : Binding) (e : Event) (f : Fresh) (n : String) : Prop where
  /-- Its header decides the content mode. -/
  | mode (h : DecidesMode b e n)
  /-- Its header is that of a slot that has no value. -/
  | slot (w : WellKnown) (hm : (arrived b e f).2 = .ok .binary) (hn : n = b.headerName w.name)
      (hv : Binary.slotValue? b e f w = none)
  /-- Its header is the key of a record, and the event has no partition key. -/
  | key (hb : b.rewrites = true) (hm : (arrived b e f).2 = .ok .binary) (hn : n = Binding.recordKey)
      (hp : e.partitionKey? = none)

section Ways

variable {b : Binding} {e : Event} {f : Fresh} {n v : String}

theorem arrived_payload (b : Binding) (e : Event) (f : Fresh) :
    (arrived b e f).1.payload = e.data.getD .empty := by
  cases hb : b.rewrites with
  | true => rw [arrived_of_record hb]
  | false => rw [arrived_of_not_record hb]

/-- The headers that arrive, where messages are records. -/
theorem get?_arrived_of_record (hb : b.rewrites = true) (hm : (arrived b e f).2 = .ok .binary)
    (k : String) :
    (arrived b e f).1.headers.get? k =
      if k = Record.dataContentTypeHeader b then
        (Record.carriedContentType b (Binary.headers b e f)).map fun x => .text x.display
      else if k = partitionKeyName then
        (Record.carriedKey e (Binary.headers b e f)).map fun x => .text x.display
      else if k = Binding.recordKey ∨ k = contentTypeHeader then none
      else (Binary.headers b e f).get? k := by
  rw [arrived_of_record hb] at hm ⊢
  exact Record.get?_arrived hm k

/-- What a record carries for its key: the partition key, or else an attribute with the key's name. -/
theorem carriedKey_eq (hb : b.rewrites = true) :
    Record.carriedKey e (Binary.headers b e f) =
      ((e.attribute? partitionKeyName).or (e.attribute? Binding.recordKey)).map .text := by
  have hne : ∀ w : WellKnown, Binding.recordKey ≠ b.headerName w.name := by
    rw [rewrites_iff.1 hb]
    intro w
    cases w <;> decide
  rw [Record.carriedKey, Binary.get?_headers_of_ne b e f hne, Option.map_or]

/-- An attribute has no part in the key of a record unless it is named like one. -/
theorem carriedKey_putAttribute (hb : b.rewrites = true) (hp : n ≠ partitionKeyName)
    (hk : n = Binding.recordKey → e.partitionKey? ≠ none) :
    Record.carriedKey (e.putAttribute n v) (Binary.headers b (e.putAttribute n v) f) =
      Record.carriedKey e (Binary.headers b e f) := by
  rw [carriedKey_eq hb, carriedKey_eq hb, Event.attribute?_putAttribute, Event.attribute?_putAttribute,
    if_neg hp]
  by_cases hn : n = Binding.recordKey
  · obtain ⟨x, hx⟩ := Option.ne_none_iff_exists'.1 (hk hn)
    have hx' : e.attribute? partitionKeyName = some x := hx
    rw [hx']
    rfl
  · rw [if_neg hn]

/-- Neither the partition key nor the data content type has the header of another slot. -/
theorem headerName_ne_of_record (hb : b.rewrites = true) (w : WellKnown) :
    b.headerName w.name ≠ partitionKeyName ∧ b.headerName w.name ≠ Binding.recordKey ∧
      b.headerName w.name ≠ contentTypeHeader := by
  rw [rewrites_iff.1 hb]
  cases w <;> decide

/-- **Outside the three ways the headers that arrive are the same**, but for the attribute's own. -/
theorem get?_arrived_putAttribute (hm : (arrived b e f).2 = .ok .binary) (h : ¬Interferes b e f n)
    {k : String} (hk : k ≠ n ∨ ∃ w : WellKnown, k = b.headerName w.name) :
    (arrived b (e.putAttribute n v) f).1.headers.get? k = (arrived b e f).1.headers.get? k := by
  have hmode : ¬DecidesMode b e n := fun hd => h (.mode hd)
  have hheaders : (Binary.headers b (e.putAttribute n v) f).get? k = (Binary.headers b e f).get? k := by
    rcases hk with hne | ⟨w, rfl⟩
    · exact get?_headers_putAttribute_of_ne hne
    · exact get?_headers_putAttribute_headerName fun hn hv => h (.slot w hm hn hv)
  cases hb : b.rewrites with
  | false =>
    rw [arrived_of_not_record hb, arrived_of_not_record hb]
    exact hheaders
  | true =>
    have hm' : (arrived b (e.putAttribute n v) f).2 = .ok .binary := by
      rw [arrived_mode_putAttribute hmode, hm]
    rw [get?_arrived_of_record hb hm', get?_arrived_of_record hb hm,
      carriedContentType_putAttribute hb hmode, hheaders]
    -- The key is the one thing that is not under the name it was written under.
    by_cases hp : k = partitionKeyName
    · have hne : n ≠ partitionKeyName := by
        rintro rfl
        rcases hk with hne | ⟨w, hw⟩
        · exact hne hp
        · exact (headerName_ne_of_record hb w).1 (hw ▸ hp)
      rw [carriedKey_putAttribute hb hne fun hn hnone => h (.key hb hm hn hnone)]
    · rw [if_neg hp, if_neg hp]

/-- Decoding what was sent is decoding what arrived. -/
theorem decode_eq_arrived (b : Binding) (pretty : Bool) (e : Event) (f : Fresh) :
    decode b (encode ⟨b, .binary, pretty⟩ e f).received =
      match (arrived b e f).2 with
      | .error err => .error err
      | .ok .binary => Binary.decode b (arrived b e f).1
      | .ok .structured => Structured.decode b (arrived b e f).1.payload.asText :=
  decode_eq ..

/-- An attribute that decides the content mode can announce an envelope that nobody reads. -/
theorem DecidesMode.decode_ne_ok (h : DecidesMode b e n) (pretty : Bool) (d' : Event) :
    decode b (encode ⟨b, .binary, pretty⟩ (e.putAttribute n "application/cloudevents") f).received ≠
      .ok d' := by
  have hrefused : modeOf "application/cloudevents" = .error (.unsupportedMediaType _) := rfl
  rw [decode_eq_arrived, arrived_mode_of_decidesMode h, hrefused]
  simp

/-- An attribute that does not decide the content mode can be looked for in a message in binary mode. -/
theorem describes_of_putAttribute (hmode : ¬DecidesMode b e n) (hm : (arrived b e f).2 = .ok .binary)
    {pretty : Bool} {d' : Event}
    (hd : decode b (encode ⟨b, .binary, pretty⟩ (e.putAttribute n v) f).received = .ok d') :
    (arrived b (e.putAttribute n v) f).2 = .ok .binary ∧
      Binary.Describes b (arrived b (e.putAttribute n v) f).1 d' := by
  have hm' := (arrived_mode_putAttribute (v := v) (f := f) hmode).trans hm
  rw [decode_eq_arrived, hm'] at hd
  exact ⟨hm', Binary.decode_eq_ok_iff.1 hd⟩

/-- The header of a slot that has no value arrives with the attribute's. -/
theorem get?_arrived_of_none {w : WellKnown} (hmode : ¬DecidesMode b e n)
    (hm : (arrived b (e.putAttribute n v) f).2 = .ok .binary) (hn : n = b.headerName w.name)
    (hv : Binary.slotValue? b e f w = none) :
    (arrived b (e.putAttribute n v) f).1.headers.get? n = some (.text v) := by
  have hwritten := get?_headers_putAttribute_of_none (v := v) hn hv
  cases hb : b.rewrites with
  | false =>
    rw [arrived_of_not_record hb]
    exact hwritten
  | true =>
    subst hn
    obtain ⟨hp, hk, hct⟩ := headerName_ne_of_record hb w
    -- Under the name of the data content type the attribute would decide the mode.
    have hdct : b.headerName w.name ≠ Record.dataContentTypeHeader b := by
      intro heq
      obtain rfl := Binding.headerName_name_inj.1 heq
      refine hmode ?_
      rw [DecidesMode, if_pos hb]
      exact ⟨by simpa [Binary.slotValue?] using hv, .inl rfl⟩
    have hmoved : ¬(b.headerName w.name = Binding.recordKey ∨ b.headerName w.name = contentTypeHeader) :=
      not_or.2 ⟨hk, hct⟩
    rw [get?_arrived_of_record hb hm, if_neg hdct, if_neg hp, if_neg hmoved]
    exact hwritten

/-- The key of a record becomes the partition key of an event without one. -/
theorem get?_arrived_partitionKeyName (hb : b.rewrites = true)
    (hm : (arrived b (e.putAttribute Binding.recordKey v) f).2 = .ok .binary)
    (hp : e.partitionKey? = none) :
    (arrived b (e.putAttribute Binding.recordKey v) f).1.headers.get? partitionKeyName =
      some (.text v) := by
  have hp' : (e.putAttribute Binding.recordKey v).attribute? partitionKeyName = none := by
    rw [Event.attribute?_putAttribute, if_neg (by decide)]
    exact hp
  rw [get?_arrived_of_record hb hm, if_neg (Record.partitionKeyName_ne b), if_pos rfl, carriedKey_eq hb,
    hp', Event.attribute?_putAttribute, if_pos rfl]
  rfl

/-- In each of the three ways some value makes a difference, or makes the message unreadable. -/
theorem Interferes.exists_value (h : Interferes b e f n) (pretty : Bool) (d : Event) :
    ∃ v, ∀ d', decode b (encode ⟨b, .binary, pretty⟩ (e.putAttribute n v) f).received = .ok d' →
      ¬d.AgreeExcept n d' := by
  -- The other two ways only matter for a message that is in binary mode with the attribute as well.
  by_cases hmode : DecidesMode b e n
  · exact ⟨_, fun d' hd _ => hmode.decode_ne_ok pretty d' hd⟩
  cases h with
  | mode h => exact absurd h hmode
  | slot w hm hn hv =>
    obtain ⟨v, hchanged⟩ := Binary.exists_slot_changed b w d
    refine ⟨v, fun d' hd hagree => ?_⟩
    obtain ⟨hm', hdesc⟩ := describes_of_putAttribute hmode hm hd
    refine hchanged _ d' ?_ hdesc hagree.rest
    rw [← hn]
    exact get?_arrived_of_none hmode hm' hn hv
  | key hb hm hk hp =>
    subst hk
    obtain ⟨v, hv⟩ := Binary.exists_ne_some (d.attribute? partitionKeyName)
    refine ⟨v, fun d' hd hagree => hv ?_⟩
    obtain ⟨hm', hdesc⟩ := describes_of_putAttribute hmode hm hd
    have hextension : Binary.isExtension b partitionKeyName = true := by
      rw [rewrites_iff.1 hb]
      decide
    rw [← hagree.names partitionKeyName (by decide), hdesc.attributes, if_pos hextension,
      get?_arrived_partitionKeyName hb hm' hp]
    rfl

end Ways

/-- **An extension attribute changes nothing but itself**, whatever its value, unless its name is one of
the three that the reader takes for something else; and under such a name some value does. -/
theorem agreeExcept_iff_not_interferes (b : Binding) (pretty : Bool) (e : Event) (f : Fresh) (n : String)
    (d : Event) (hn : IsExtensionName n)
    (hd : decode b (encode ⟨b, .binary, pretty⟩ e f).received = .ok d) :
    (∀ v e', e.setAttribute n v = .ok e' →
      ∃ d', decode b (encode ⟨b, .binary, pretty⟩ e' f).received = .ok d' ∧ d.AgreeExcept n d') ↔
      ¬Interferes b e f n := by
  constructor
  · intro hall h
    obtain ⟨v, hv⟩ := h.exists_value pretty d
    obtain ⟨d', hd', hagree⟩ := hall v _ (Event.setAttribute_eq_ok_iff.2 ⟨hn.1, hn.2, rfl⟩)
    exact hv d' hd' hagree
  · intro h v e' he'
    obtain ⟨-, -, rfl⟩ := Event.setAttribute_eq_ok_iff.1 he'
    have hmode := arrived_mode_putAttribute (v := v) (f := f) fun hm => h (.mode hm)
    have hpayload : (arrived b (e.putAttribute n v) f).1.payload = (arrived b e f).1.payload := by
      rw [arrived_payload, arrived_payload]
      rfl
    rw [decode_eq_arrived] at hd
    rw [decode_eq_arrived, hmode, hpayload]
    cases hm : (arrived b e f).2 with
    | error err =>
      rw [hm] at hd
      exact absurd hd (by simp)
    | ok mode =>
      rw [hm] at hd
      cases mode with
      | binary =>
        exact Binary.decode_agreeExcept hd hn.1 hpayload fun k hk => get?_arrived_putAttribute hm h hk
      | structured => exact ⟨d, hd, .refl n d⟩

/-- An event with a type and without a subject. -/
def typedEvent (b : Binding) : Event where
  id := some "a-3"
  type := some "order.placed"
  time := some .epoch
  binding := b

/-- An attribute that is named like the header of a slot that is set changes nothing else. -/
theorem agreeExcept_typedEvent :
    IsExtensionName "ce_type" ∧ ∃ d,
      decode .http (encode ⟨.http, .binary, false⟩ (typedEvent .http) default).received = .ok d ∧
      ∃ d', decode .http (encode ⟨.http, .binary, false⟩
          ((typedEvent .http).putAttribute "ce_type" "order.cancelled") default).received = .ok d' ∧
        d.AgreeExcept "ce_type" d' := by
  have hn : IsExtensionName "ce_type" := by decide
  have hd : decode .http (encode ⟨.http, .binary, false⟩ (typedEvent .http) default).received =
      .ok { typedEvent .http with data := some .empty } := by
    rfl
  refine ⟨hn, _, hd, ?_⟩
  refine (agreeExcept_iff_not_interferes .http false (typedEvent .http) default "ce_type" _ hn hd).2 ?_
    "order.cancelled" _ (Event.setAttribute_eq_ok_iff.2 ⟨hn.1, hn.2, rfl⟩)
  rintro (h | ⟨w, -, hw, hv⟩ | ⟨hb, -, -, -⟩)
  · exact absurd h.1 (by decide)
  · have htype : w = .type := (Binding.headerName_name_inj (b := .http)).1 hw.symm
    subst htype
    exact absurd hv (by decide)
  · exact absurd hb (by decide)

/-- The header of a slot that has no value is taken from the attribute with its name. -/
theorem setAttribute_changes_subject :
    ∃ e', (typedEvent .amqp).setAttribute "cloudEvents:subject" "x" = .ok e' ∧
      (decode .amqp (encode ⟨.amqp, .binary, false⟩ (typedEvent .amqp) default).received).map
        (·.subject) = .ok none ∧
      (decode .amqp (encode ⟨.amqp, .binary, false⟩ e' default).received).map (·.subject) =
        .ok (some "x") := by
  refine ⟨(typedEvent .amqp).putAttribute "cloudEvents:subject" "x", ?_, rfl, rfl⟩
  exact Event.setAttribute_eq_ok_iff.2 ⟨by decide, by decide, rfl⟩

end Wire
end CloudEvents
