/-
  Messages as keyed records.

  One transport stores records with a key and names the content type of the payload in a header of its
  own.  On the way out the partition key moves from its header to the key, and the data content type
  to that header; on the way in both move back.  A document's content type stays where it is, because
  the message is recognised by it.
-/
import CloudEvents.Wire.Framing
import CloudEvents.Event
import CloudEvents.Message

namespace CloudEvents.Wire.Record

/-- The header of the data content type. -/
def dataContentTypeHeader (b : Binding) : String := b.headerName WellKnown.datacontenttype.name

/-- Moves the partition key of an event to the key of the record. -/
def keyOut (e : Event) (h : Headers) : Headers :=
  let h := h.erase partitionKeyName
  match e.attribute? partitionKeyName with
  | some key => h.insert Binding.recordKey (.text key)
  | none => h

/-- Moves the data content type to the header of the payload. -/
def contentTypeOut (b : Binding) (h : Headers) : Headers :=
  match h.get? (dataContentTypeHeader b) with
  | some v => (h.erase (dataContentTypeHeader b)).insert contentTypeHeader v
  | none => h

/-- The headers of a record. -/
def outgoing (b : Binding) (e : Event) (h : Headers) : Headers := contentTypeOut b (keyOut e h)

/-- Moves the key of a record to the partition key, as a text. -/
def keyIn (h : Headers) : Headers :=
  match h.get? Binding.recordKey with
  | some key => (h.erase Binding.recordKey).insert partitionKeyName (.text key.display)
  | none => h

/-- The headers of a message that came as a record, and its content mode.  A record whose content type
is refused has its key moved all the same. -/
def incoming (b : Binding) (h : Headers) : Headers × Except Error ContentMode :=
  let h := keyIn h
  match (h.get? contentTypeHeader).map HeaderValue.display with
  | none => (h, .ok .binary)
  | some contentType =>
    match modeOf contentType with
    | .error err => (h, .error err)
    | .ok .structured => (h, .ok .structured)
    | .ok .binary =>
      ((h.erase contentTypeHeader).insert (dataContentTypeHeader b) (.text contentType), .ok .binary)

end CloudEvents.Wire.Record
