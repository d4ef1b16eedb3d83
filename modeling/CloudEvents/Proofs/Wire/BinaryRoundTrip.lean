/-
  An event that is sent in binary mode comes back.

  What stands under the header of a slot is the value of the slot, because no plain extension attribute
  has that name (`slotHeader?_headers`); and what stands under a plain name is the extension attribute of
  that name, because it is no slot's header.  So the message describes the event slot by slot and name by
  name, and reading gives what is described.

  Three things change on the way: a missing id or time is filled in, data that is absent becomes the empty
  text, and an instant that travels as a text keeps seven digits of its fraction.

  Main statement: `decode_encode_eq_arriving`.
-/
import CloudEvents.Proofs.Time.WireText
import CloudEvents.Proofs.Wire.BinaryReading
import CloudEvents.Proofs.Wire.Framing

namespace CloudEvents.Wire.Binary

variable {b : Binding} {e : Event} {f : Fresh}

/-! ## Slots -/

/-- Among plain names a slot is read from the header that it was written to. -/
theorem slotHeader?_headers (hw : e.WellFormed) (hn : e.HasPlainNames) (w : WellKnown) :
    slotHeader? b (headers b e f) w = slotValue? b e f w := by
  have hnone : e.attribute? (b.headerName w.name) = none := by
    cases ha : e.attribute? (b.headerName w.name) with
    | none => rfl
    | some v => exact absurd rfl ((hn _ v ha).ne_headerName (hw.names _ v ha) b w)
  rw [slotHeader?, get?_headers_headerName, hnone]
  exact Option.or_none

theorem read?_uri (u : Uri) : (HeaderValue.text u.text).read? Uri = some u := by
  show (Uri.parse u.text).toOption = some u
  rw [Uri.parse_text]
  rfl

theorem read?_contentType (c : ContentType) : (HeaderValue.text c.text).read? ContentType = some c := by
  show (ContentType.parse c.text).toOption = some c
  rw [ContentType.parse_text]
  rfl

/-- A slot is read as what it held, if each value reads as itself. -/
theorem slot_of_slotHeader? {α : Type} [HeaderValue.Readable α] {h : Headers} {w : WellKnown}
    {x : Option α} {v : α → HeaderValue} (hh : slotHeader? b h w = x.map v)
    (hv : ∀ a, (v a).read? α = some a) : slot b h α w = .ok x := by
  unfold slot
  rw [hh]
  cases x with
  | none => rfl
  | some a => simp only [Option.map_some, hv a]

/-- The time as it arrives: whole where there are headers for instants, else down to a hundred
nanoseconds. -/
theorem read?_timeValue {t : Instant} (h : b ≠ .amqp → t.InFourDigitYear) :
    (timeValue b t).read? Instant = some (if b = .amqp then t else t.truncate) := by
  by_cases hb : b = .amqp
  · rw [if_pos hb, timeValue, hb]
    rfl
  · have htime : b.hasTimeHeaders = false := by
      revert hb
      cases b <;> decide
    rw [if_neg hb, timeValue, htime, if_neg (by decide), HeaderValue.read?_text_instant]
    exact Instant.read?_wireText (h hb)

/-! ## The whole event -/

/-- The event that arrives in binary mode under a binding. -/
def arriving (b : Binding) (e : Event) (f : Fresh) : Event :=
  { e.stamp f with
    time := some (if b = .amqp then e.timeOr f else (e.timeOr f).truncate)
    data := some (e.data.getD .empty)
    binding := b }

/-- **The message of an event describes the event**, as it arrives. -/
theorem describes_encode (hw : e.WellFormed) (hn : e.HasPlainNames)
    (ht : b ≠ .amqp → (e.timeOr f).InFourDigitYear) :
    Describes b (encode b e f).received (arriving b e f) := by
  have hs := slotHeader?_headers (b := b) (f := f) hw hn
  have htext : ∀ w, slotText? b (headers b e f) w = (slotValue? b e f w).map HeaderValue.display :=
    fun w => congrArg _ (hs w)
  refine ⟨?_, ?_, ?_, ?_, ?_, ?_, ?_, ?_, ?_, ?_, rfl, rfl⟩
  · show checkVersion b (headers b e f) = _
    unfold checkVersion
    rw [htext]
    rfl
  · show readId b (headers b e f) = _
    unfold readId
    rw [htext]
    simp only [slotValue?, Option.map_some, HeaderValue.display]
    split
    · rename_i heq
      exact absurd (Option.some.inj heq) (hw.idOr_ne f)
    · rfl
  · exact slot_of_slotHeader? (hs .source) read?_uri
  · show slotText? b (headers b e f) .type = e.type
    rw [htext]
    simp only [slotValue?, Option.map_map]
    exact Option.map_id'
  · exact slot_of_slotHeader? (hs .datacontenttype) read?_contentType
  · exact slot_of_slotHeader? (hs .dataschema) read?_uri
  · show slotText? b (headers b e f) .subject = e.subject
    rw [htext]
    simp only [slotValue?, Option.map_map]
    exact Option.map_id'
  · show slot b (headers b e f) Instant .time = _
    unfold slot
    rw [hs]
    simp only [slotValue?, read?_timeValue ht]
    rfl
  · show (headers b e f).get? "" = none
    rw [get?_headers_of_ne _ _ _ (isExtension_iff.1 (isExtension_empty b)).1,
      Event.attribute?_eq_none hw.names (by decide)]
    rfl
  -- A plain name is nobody else's header, so the reader takes every attribute for one.
  · intro n
    show e.attribute? n = if _ then ((headers b e f).get? n).map _ else none
    split
    · rename_i hx
      rw [get?_headers_of_ne _ _ _ (isExtension_iff.1 hx).1, Option.map_map]
      exact Option.map_id'.symm
    · rename_i hx
      cases ha : e.attribute? n with
      | none => rfl
      | some v =>
        have hname := hw.names n v ha
        exact absurd (isExtension_iff.2 ⟨(hn n v ha).ne_headerName hname b, hname.2⟩) hx

end CloudEvents.Wire.Binary

namespace CloudEvents.Wire

/-- **An event that is sent in binary mode comes back**: slot by slot, with its extension attributes and
data, under every binding.  A record must not have data that is itself declared an envelope. -/
theorem decode_encode_eq_arriving (b : Binding) (pretty : Bool) (e : Event) (f : Fresh)
    (hw : e.WellFormed) (hn : e.HasPlainNames) (ht : b ≠ .amqp → (e.timeOr f).InFourDigitYear)
    (hd : b = .kafka → ¬e.DeclaresEnvelope) :
    decode b (encode ⟨b, .binary, pretty⟩ e f).received =
      .ok { e.stamp f with
        time := some (if b = .amqp then e.timeOr f else (e.timeOr f).truncate)
        data := some (e.data.getD .empty)
        binding := b } := by
  have hcodec := decode_encode_binary (c := ⟨b, .binary, pretty⟩) (f := f) hn rfl fun h => hd h.1 h.2
  rw [hcodec]
  exact Binary.decode_eq_ok_iff.2 (Binary.describes_encode hw hn ht)

/-- An event with a partition key comes back from a record, with the time at the precision of its text. -/
theorem decode_encode_keyedEvent :
    keyedEvent.WellFormed ∧ keyedEvent.HasPlainNames ∧
      (keyedEvent.timeOr default).InFourDigitYear ∧ ¬keyedEvent.DeclaresEnvelope ∧
      decode .kafka (encode ⟨.kafka, .binary, false⟩ keyedEvent default).received =
        .ok { keyedEvent with
          time := Instant.of? 1704067200 123456700
          binding := .kafka } := by
  have hw : keyedEvent.WellFormed := by decide +kernel
  have hn : keyedEvent.HasPlainNames := by decide +kernel
  have ht : (keyedEvent.timeOr default).InFourDigitYear := by decide +kernel
  have hd : ¬keyedEvent.DeclaresEnvelope := by decide +kernel
  have h := decode_encode_eq_arriving .kafka false keyedEvent default hw hn (fun _ => ht) fun _ => hd
  rw [if_neg (by decide)] at h
  exact ⟨hw, hn, ht, hd, h⟩

end CloudEvents.Wire
