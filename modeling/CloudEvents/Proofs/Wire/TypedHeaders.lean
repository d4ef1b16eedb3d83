/-
  Headers that are no texts, when a message in binary mode is sent on.

  A header that is no slot's becomes an extension attribute, and attributes are texts: a number, a truth value, an
  instant or an identifier is kept by its display form, and when the event is written again, that form is the
  header.  The type is gone, but nothing else is.  A text can be read at any type, and the reader of each type
  takes the display form of a value back to the value (`readLike?_display`); only of an instant there are no more
  than seven digits of fraction left.

  Main statement: `encode_decode_typedHeader`.
-/
import CloudEvents.Proofs.Text.Decimal
import CloudEvents.Proofs.Text.Hexadecimal
import CloudEvents.Proofs.Text.Trim
import CloudEvents.Proofs.Time.WireText
import CloudEvents.Proofs.Wire.Accounting

namespace CloudEvents

/-! ## Display forms -/

namespace HeaderValue

/-- A header, read at the type that another value has. -/
def readLike? (like v : HeaderValue) : Option HeaderValue :=
  match like with
  | text _ => (v.read? String).map text
  | integer _ => (v.read? Int64).map integer
  | boolean _ => (v.read? Bool).map boolean
  | time _ => (v.read? Instant).map time
  | uuid _ => (v.read? Uuid).map uuid

/-- What the display form of a value still tells: all of it, but of an instant only its last tick. -/
def displayed : HeaderValue → HeaderValue
  | time t => time t.truncate
  | v => v

theorem read?_integerString (i : Int64) : (text (Text.integerString i.toInt)).read? Int64 = some i := by
  have htrim : Text.trim (Text.integerString i.toInt).toList = (Text.integerString i.toInt).toList := by
    rw [Text.integerString, String.toList_ofList]
    exact Text.trim_eq_self_of_forall fun c hc => Text.isBlank_of_mem_integer hc
  rw [read?_text_int64, htrim, Text.int64?_integerString]

theorem read?_booleanWord (x : Bool) : (text (booleanWord x)).read? Bool = some x := by
  cases x <;> decide

/-- **Every value is read from its display form**, at its own type. -/
theorem readLike?_display {v : HeaderValue} (hy : ∀ t, v = time t → t.InFourDigitYear) :
    v.readLike? (text v.display) = some v.displayed := by
  cases v with
  | text s => rfl
  | integer i =>
    rw [readLike?, display, read?_integerString]
    rfl
  | boolean x =>
    rw [readLike?, display, read?_booleanWord]
    rfl
  | time t =>
    rw [readLike?, display, read?_text_instant, Instant.read?_wireText (hy t rfl)]
    rfl
  | uuid u =>
    rw [readLike?, display, read?_text_uuid, Uuid.read?_toText]
    rfl

end HeaderValue

namespace Wire.Binary

variable {b : Binding} {m : Message} {e : Event} {n : String} {v : HeaderValue}

/-! ## There and back -/

/-- A header with a name of its own is received as its display form. -/
theorem attribute?_of_decode (hd : decode b m = .ok e) (hv : m.headers.get? n = some v) (hs : ¬IsSlotName b n)
    (hr : isReserved n = false) : e.attribute? n = some v.display := by
  have hextension : isExtension b n = true := by
    rw [isExtension_eq, hr, decide_eq_false hs]
    rfl
  rw [(decode_eq_ok_iff.1 hd).attributes n, if_pos hextension, hv]
  rfl

/-- **A header that is no text comes back as one that reads the same.**  Where a message has a header with a name of
its own, the event that is read from the message is written with a text under that name, and at the type of the
header that text is read as the header's value; an instant is cut to its last tick. -/
theorem encode_decode_typedHeader (f : Fresh) (hd : decode b m = .ok e) (hv : m.headers.get? n = some v)
    (hs : ¬IsSlotName b n) (hr : isReserved n = false) (hy : ∀ t, v = .time t → t.InFourDigitYear) :
    (encode b e f).headers.get? n = some (.text v.display) ∧
      v.readLike? (.text v.display) = some v.displayed := by
  refine ⟨?_, HeaderValue.readLike?_display hy⟩
  show (headers b e f).get? n = _
  rw [get?_headers_of_ne b e f fun w hw => hs ⟨w, hw⟩, attribute?_of_decode hd hv hs hr]
  rfl

/-- Headers of every type, on a transport that has headers for instants. -/
def typedHeaders : Headers :=
  .ofList [("cloudEvents:id", .integer 7), ("attempts", .integer (-9223372036854775808)), ("final", .boolean false),
    ("received", .time Instant.endOfLeapSecond), ("trace", .uuid ⟨0xFEDCBA98765432100123456789ABCDEF⟩)]

/-- What they are read as. -/
def typedHeadersEvent : Event :=
  { id := some "7",
    attributes := .ofList [("attempts", "-9223372036854775808"), ("final", "false"),
      ("received", "2016-12-31T23:59:60.9999999Z"), ("trace", "fedcba98-7654-3210-0123-456789abcdef")],
    data := some .empty, binding := .amqp }

/-- The end of a leap second is read at its own type from the text that is sent on, at the last tick. -/
theorem encode_decode_typedHeadersEvent :
    decode .amqp ⟨.empty, typedHeaders⟩ = .ok typedHeadersEvent ∧
      typedHeaders.get? "received" = some (.time Instant.endOfLeapSecond) ∧
      ¬IsSlotName .amqp "received" ∧ isReserved "received" = false ∧ Instant.endOfLeapSecond.InFourDigitYear ∧
      (encode .amqp typedHeadersEvent default).headers.get? "received" =
        some (.text "2016-12-31T23:59:60.9999999Z") ∧
      (HeaderValue.time Instant.endOfLeapSecond).readLike? (.text "2016-12-31T23:59:60.9999999Z") =
        some (.time ⟨1483228799, 1999999900, by decide, by decide⟩) := by
  have hdecode : decode .amqp ⟨.empty, typedHeaders⟩ = .ok typedHeadersEvent := by decide +kernel
  have hheader : typedHeaders.get? "received" = some (.time Instant.endOfLeapSecond) := by decide +kernel
  have hslot : ¬IsSlotName .amqp "received" := by decide +kernel
  have hreserved : isReserved "received" = false := by decide
  have hyear : Instant.endOfLeapSecond.InFourDigitYear := by decide +kernel
  have hdisplay : (HeaderValue.time Instant.endOfLeapSecond).display = "2016-12-31T23:59:60.9999999Z" := by
    decide +kernel
  have h := encode_decode_typedHeader default hdecode hheader hslot hreserved fun t ht => by
    cases ht
    exact hyear
  rw [hdisplay] at h
  exact ⟨hdecode, hheader, hslot, hreserved, hyear, h⟩

end Wire.Binary

end CloudEvents
