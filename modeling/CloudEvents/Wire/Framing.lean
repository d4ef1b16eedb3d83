/-
  Framing: how a received message tells its content mode.

  A message is structured if its content type says so, and its content type says so by its media type
  alone: it begins with `application/cloudevents` and ends with `+json`.  Any other format under that
  beginning, batches included, is refused instead of being taken for binary mode.
-/
import CloudEvents.ContentMode
import CloudEvents.ContentType
import CloudEvents.Header

namespace CloudEvents.Wire

/-- The beginning of the media types of envelopes. -/
def envelopeMediaType : List Char := "application/cloudevents".toList

/-- The beginning of the media types of several envelopes in one message. -/
def batchMediaType : List Char := "application/cloudevents-batch".toList

/-- What the media type of a message says. -/
inductive Announcement where
  /-- Nothing about envelopes. -/
  | other
  | structured
  /-- An envelope in a format that is not known. -/
  | unsupported
  deriving DecidableEq, Repr

/-- What a media type in small letters says. -/
def announcement (mediaType : List Char) : Announcement :=
  if !envelopeMediaType.isPrefixOf mediaType then .other
  else if !ContentType.jsonEnding.isSuffixOf mediaType || batchMediaType.isPrefixOf mediaType then
    .unsupported
  else .structured

/-- Whether a content type announces a document. -/
def announcesStructured (contentType : String) : Except Error Bool :=
  match announcement (mediaTypeOf contentType) with
  | .other => .ok false
  | .structured => .ok true
  | .unsupported => .error (.unsupportedMediaType contentType)

/-- The content mode that a content type announces. -/
def modeOf (contentType : String) : Except Error ContentMode :=
  (announcesStructured contentType).map fun structured => if structured then .structured else .binary

/-- The content mode of a message, by its content type; the case of the header's name does not
count.  Without one it is binary. -/
def detectMode (h : Headers) : Except Error ContentMode :=
  match h.findIgnoringCase? contentTypeHeader with
  | none => .ok .binary
  | some (_, v) => modeOf v.display

end CloudEvents.Wire
