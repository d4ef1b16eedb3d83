/-
  Validation and reading agree on the base rules.

  Headers in binary mode are looked at from two sides.  Validation asks for a source that is a text and for a
  type with a text that is not empty; the reader takes each header as what its slot holds, and the rules for
  events come afterwards.  The two have readings of their own, but where a message can be read at all they
  come to the same: a header that reads as a URI is a text, and no value but the text itself is displayed as
  the version (`Describes.isComplete_iff`).

  What validation fills in is read back, so a message that could be read can be read afterwards as well, as
  the same event with id and time (`describes_filled`).

  Main statement: `validateHeaders_agrees_decode`.
-/
import CloudEvents.Proofs.Validation.HeaderRules
import CloudEvents.Proofs.Wire.BinaryRoundTrip

namespace CloudEvents

namespace Wire.Binary

variable {b : Binding} {m : Message} {e : Event}

/-! ## The rules for events, from the headers -/

/-- Nothing but a text reads as a URI. -/
theorem eq_text_of_read?_uri {v : HeaderValue} {u : Uri} (hv : v.read? Uri = some u) : v = .text u.text := by
  cases v with
  | text s =>
    have hparse : (Uri.parse s).toOption = some u := hv
    cases hs : Uri.parse s with
    | error err =>
      rw [hs] at hparse
      exact absurd hparse (by simp [Except.toOption])
    | ok u' =>
      rw [hs] at hparse
      rw [← Option.some.inj hparse, Uri.parse_eq_ok_iff.1 hs]
  | integer i => exact absurd hv (by simp [HeaderValue.read?, HeaderValue.Readable.typed?, HeaderValue.text?])
  | boolean x => exact absurd hv (by simp [HeaderValue.read?, HeaderValue.Readable.typed?, HeaderValue.text?])
  | time t => exact absurd hv (by simp [HeaderValue.read?, HeaderValue.Readable.typed?, HeaderValue.text?])
  | uuid u => exact absurd hv (by simp [HeaderValue.read?, HeaderValue.Readable.typed?, HeaderValue.text?])

/-- The source of an event is there if its header is a text. -/
theorem Describes.source_iff (hd : Describes b m e) :
    (∃ s, slotHeader? b m.headers .source = some (.text s)) ↔ ∃ u, e.source = some u := by
  rcases slot_eq_ok_iff.1 hd.source with ⟨hnone, hs⟩ | ⟨v, u, hv, hread, hs⟩
  · rw [hnone, hs]
    simp
  · rw [hv, hs, eq_text_of_read?_uri hread]
    simp

/-- **A message that can be read has what validation asks for if its event has what is asked of events.** -/
theorem Describes.isComplete_iff (hd : Describes b m e) :
    Validation.IsComplete b m.headers ↔ Validation.checkEvent e = .ok () := by
  have htype : (∃ v, slotHeader? b m.headers .type = some v ∧ v.display ≠ "") ↔
      ∃ ty, e.type = some ty ∧ ty ≠ "" := by
    rw [← hd.type, slotText?]
    simp only [Option.map_eq_some_iff, exists_exists_and_eq_and]
  rw [Validation.checkEvent_eq_ok_iff]
  constructor
  · intro hc
    exact ⟨hd.source_iff.1 hc.source, htype.1 hc.type⟩
  · rintro ⟨hs, ht⟩
    exact ⟨checkVersion_eq_ok_iff_text.1 hd.version, hd.source_iff.2 hs, htype.2 ht⟩

theorem Describes.id_eq {v : HeaderValue} (hd : Describes b m e) (hv : slotHeader? b m.headers .id = some v) :
    e.id = some v.display := by
  rw [(readId_eq_ok_iff.1 hd.id).1, slotText?, hv]
  rfl

/-- The time of the event is what its header reads as. -/
theorem Describes.exists_time {v : HeaderValue} (hd : Describes b m e)
    (hv : slotHeader? b m.headers .time = some v) : ∃ t, v.read? Instant = some t ∧ e.time = some t := by
  rcases slot_eq_ok_iff.1 hd.time with ⟨hnone, -⟩ | ⟨v', t, hv', hread, ht⟩
  · rw [hv] at hnone
    exact absurd hnone (by simp)
  · rw [hv, Option.some.injEq] at hv'
    exact ⟨t, hv' ▸ hread, ht⟩

end Wire.Binary

namespace Validation

open Wire.Binary (slotHeader? slotText? slot timeValue Describes slot_eq_ok_iff readId_eq_ok_iff)

variable {b : Binding} {f : Fresh} {h : Headers} {p : Payload} {e : Event}

/-! ## What is filled in is read -/

theorem slotHeader?_filled_id (b : Binding) (f : Fresh) (h : Headers) :
    slotHeader? b (filled b f h) .id = some ((slotHeader? b h .id).getD (.text f.eventId.toText)) := by
  unfold slotHeader?
  rw [get?_filled, if_pos rfl]

/-- The time is filled in where the header is missing or does not read as a time. -/
theorem slotHeader?_filled_time (b : Binding) (f : Fresh) (h : Headers) :
    slotHeader? b (filled b f h) .time =
      if h.read? Instant (b.headerName WellKnown.time.name) = none then some (timeValue b f.now)
      else slotHeader? b h .time := by
  unfold slotHeader?
  rw [get?_filled, if_neg (idHeader_ne_timeHeader b).symm]
  simp only [true_and]

/-- After validation there is a time. -/
theorem exists_slotHeader?_filled_time (b : Binding) (f : Fresh) (h : Headers) :
    ∃ v, slotHeader? b (filled b f h) .time = some v := by
  rw [slotHeader?_filled_time]
  split
  · exact ⟨_, rfl⟩
  · -- A header that can be read is there.
    rename_i hread
    obtain ⟨t, ht⟩ := Option.ne_none_iff_exists'.1 hread
    obtain ⟨v, hv, -⟩ := Option.bind_eq_some_iff.1 ht
    exact ⟨v, hv⟩

/-- The current time as it is read back. -/
def arrivingNow (b : Binding) (f : Fresh) : Instant := if b = .amqp then f.now else f.now.truncate

/-- The id that is read after the headers were filled is the event's own or the new one. -/
theorem readId_filled (hd : Describes b ⟨p, h⟩ e) :
    Wire.Binary.readId b (filled b f h) = .ok (some (e.idOr f)) := by
  obtain ⟨hid, hne⟩ := readId_eq_ok_iff.1 hd.id
  have htext : slotText? b (filled b f h) .id = some (e.idOr f) := by
    rw [slotText?, slotHeader?_filled_id, Event.idOr, hid, slotText?]
    cases slotHeader? b h .id with
    | none => rfl
    | some v => rfl
  refine readId_eq_ok_iff.2 ⟨htext.symm, ?_⟩
  unfold Event.idOr
  cases hi : e.id with
  | none => exact fun heq => f.eventId.toText_ne_empty (Option.some.inj heq)
  | some i => exact fun heq => hne (hi.trans heq)

/-- The time that is read after the headers were filled is the event's own or the new one, as it arrives. -/
theorem slot_filled_time (hd : Describes b ⟨p, h⟩ e) (hnow : b ≠ .amqp → f.now.InFourDigitYear) :
    slot b (filled b f h) Instant .time = .ok (some (e.time.getD (arrivingNow b f))) := by
  refine slot_eq_ok_iff.2 (.inr ?_)
  rw [slotHeader?_filled_time]
  -- Since the message was read, its time is either missing or can be read: it is never replaced.
  rcases slot_eq_ok_iff.1 hd.time with ⟨hnone, ht⟩ | ⟨v, t, hv, hread, ht⟩
  · have hmissing : h.read? Instant (b.headerName WellKnown.time.name) = none := by
      have hnone : h.get? (b.headerName WellKnown.time.name) = none := hnone
      rw [Headers.read?, hnone, Option.bind_none]
    rw [if_pos hmissing, ht]
    exact ⟨_, _, rfl, Wire.Binary.read?_timeValue hnow, rfl⟩
  · have hthere : h.read? Instant (b.headerName WellKnown.time.name) = some t := by
      have hv : h.get? (b.headerName WellKnown.time.name) = some v := hv
      rw [Headers.read?, hv, Option.bind_some, hread]
    rw [if_neg (by rw [hthere]; simp), ht]
    exact ⟨v, t, hv, hread, rfl⟩

/-- **What validation fills in is all that it changes in the event.** -/
theorem describes_filled (hd : Describes b ⟨p, h⟩ e) (hnow : b ≠ .amqp → f.now.InFourDigitYear) :
    Describes b ⟨p, Validation.filled b f h⟩
      { e with id := some (e.idOr f), time := some (e.time.getD (arrivingNow b f)) } := by
  have hsame : ∀ w : WellKnown, w ≠ .id → w ≠ .time →
      slotHeader? b (Validation.filled b f h) w = slotHeader? b h w :=
    fun w hid htime => slotHeader?_filled hid htime
  have htext : ∀ w : WellKnown, w ≠ .id → w ≠ .time →
      slotText? b (Validation.filled b f h) w = slotText? b h w := fun w hid htime => by
    rw [slotText?, hsame w hid htime, slotText?]
  have hslot : ∀ (α : Type) [HeaderValue.Readable α] (w : WellKnown), w ≠ .id → w ≠ .time →
      slot b (Validation.filled b f h) α w = slot b h α w := fun α _ w hid htime => by
    rw [slot, hsame w hid htime, slot]
  have hother : ∀ n, Wire.Binary.isExtension b n = true →
      (Validation.filled b f h).get? n = h.get? n := fun n hn => by
    have hne := (Wire.Binary.isExtension_iff.1 hn).1
    exact get?_filled_of_ne (hne .id) (hne .time)
  refine ⟨?_, readId_filled hd, ?_, ?_, ?_, ?_, ?_, slot_filled_time hd hnow, ?_, ?_, hd.data, hd.binding⟩
  · show Wire.Binary.checkVersion b (Validation.filled b f h) = _
    rw [Wire.Binary.checkVersion, htext _ (by decide) (by decide)]
    exact hd.version
  · exact (hslot Uri .source (by decide) (by decide)).trans hd.source
  · exact (htext .type (by decide) (by decide)).trans hd.type
  · exact (hslot ContentType .datacontenttype (by decide) (by decide)).trans hd.dataContentType
  · exact (hslot Uri .dataschema (by decide) (by decide)).trans hd.dataSchema
  · exact (htext .subject (by decide) (by decide)).trans hd.subject
  · exact (hother "" (Wire.Binary.isExtension_empty b)).trans hd.nameless
  · intro n
    show e.attribute? n = _
    rw [hd.attributes]
    split
    · rename_i hn
      show _ = ((Validation.filled b f h).get? n).map _
      rw [hother n hn]
    · rfl

/-! ## Both sides -/

/-- **Validation and reading agree.**  Of a message that can be read, the headers are valid if the event keeps
to the rules for events.  What is read after a favourable verdict has id and time and keeps to these rules;
and where there was something to read before, it is the same event, with an id or a time if it had none. -/
theorem validateHeaders_agrees_decode (b : Binding) (f : Fresh) (p : Payload) (h : Headers)
    (hnow : b ≠ .amqp → f.now.InFourDigitYear) :
    (∀ e, Wire.Binary.decode b ⟨p, h⟩ = .ok e →
      ((validateHeaders b f h).2 = .ok () ↔ checkEvent e = .ok ())) ∧
    ∀ h', validateHeaders b f h = (h', .ok ()) →
      (∀ e', Wire.Binary.decode b ⟨p, h'⟩ = .ok e' →
        (∃ id, e'.id = some id) ∧ (∃ t, e'.time = some t) ∧ checkEvent e' = .ok ()) ∧
      ∀ e, Wire.Binary.decode b ⟨p, h⟩ = .ok e →
        Wire.Binary.decode b ⟨p, h'⟩ =
          .ok { e with id := some (e.idOr f), time := some (e.time.getD (arrivingNow b f)) } := by
  refine ⟨?_, ?_⟩
  · intro e hdecode
    rw [validateHeaders_verdict_iff]
    exact (Wire.Binary.decode_eq_ok_iff.1 hdecode).isComplete_iff
  · intro h' hvalid
    have hc : IsComplete b h := validateHeaders_verdict_iff.1 (congrArg Prod.snd hvalid)
    obtain rfl : filled b f h = h' := by
      rw [validateHeaders_of_isComplete hc] at hvalid
      exact congrArg Prod.fst hvalid
    refine ⟨?_, ?_⟩
    · intro e' hdecode
      have hd := Wire.Binary.decode_eq_ok_iff.1 hdecode
      obtain ⟨v, hv⟩ := exists_slotHeader?_filled_time b f h
      obtain ⟨t, -, ht⟩ := hd.exists_time hv
      exact ⟨⟨_, hd.id_eq (slotHeader?_filled_id b f h)⟩, ⟨t, ht⟩, hd.isComplete_iff.1 hc.filled⟩
    · intro e hdecode
      exact Wire.Binary.decode_eq_ok_iff.2 (describes_filled (Wire.Binary.decode_eq_ok_iff.1 hdecode) hnow)

/-- Headers without id and time, with a type that is no text. -/
def bareHeaders : Headers :=
  .ofList [("ce_source", .text "/meters"), ("ce_type", .boolean true), ("trace", .boolean true)]

/-- What they are read as. -/
def bareEvent : Event :=
  { source := some ⟨"/meters", by decide⟩, type := some "true", attributes := .ofList [("trace", "true")],
    data := some (.octets [1]), binding := .kafka }

/-- A message without id and time gets both, and then decodes to the event that has them. -/
theorem validateHeaders_agrees_bareHeaders :
    Wire.Binary.decode .kafka ⟨.octets [1], bareHeaders⟩ = .ok bareEvent ∧
      (validateHeaders .kafka default bareHeaders).2 = .ok () ∧
      Wire.Binary.decode .kafka ⟨.octets [1], (validateHeaders .kafka default bareHeaders).1⟩ =
        .ok { bareEvent with id := some ((default : Fresh).eventId.toText), time := some .epoch } := by
  have hdecode : Wire.Binary.decode .kafka ⟨.octets [1], bareHeaders⟩ = .ok bareEvent := by decide +kernel
  have hagree := validateHeaders_agrees_decode .kafka default (.octets [1]) bareHeaders
    fun _ => by decide +kernel
  have hvalid : (validateHeaders .kafka default bareHeaders).2 = .ok () :=
    (hagree.1 _ hdecode).2 (by decide +kernel)
  exact ⟨hdecode, hvalid, (hagree.2 _ (Prod.ext rfl hvalid)).2 _ hdecode⟩

end Validation
end CloudEvents
