/-
  Events to messages and back.

  A configuration picks the content mode for what is sent; what is received says by itself which mode
  it is in.  Where messages are keyed records, they are rewritten on the outer side of both.
-/
import CloudEvents.Config
import CloudEvents.Wire.Binary
import CloudEvents.Wire.Structured
import CloudEvents.Wire.Record

namespace CloudEvents.Wire

/-- The message of an event in structured mode. -/
def structuredMessage (style : Json.Style) (e : Event) (f : Fresh) : Outgoing :=
  { payload := .text (Structured.encode style e f)
    headers := NameMap.empty.insert contentTypeHeader (.text Structured.contentType) }

/-- The message of an event. -/
def encode (c : Config) (e : Event) (f : Fresh) : Outgoing :=
  let m := match c.mode with
    | .binary => Binary.encode c.binding e f
    | .structured => structuredMessage c.style e f
  if c.binding.rewrites then { m with headers := Record.outgoing c.binding e m.headers } else m

/-- What a message looks like behind the transport, and its content mode. -/
def receive (b : Binding) (m : Message) : Message × Except Error ContentMode :=
  if b.rewrites then
    let (h, mode) := Record.incoming b m.headers
    ({ m with headers := h }, mode)
  else (m, detectMode m.headers)

/-- The event of a message. -/
def decode (b : Binding) (m : Message) : Except Error Event :=
  match receive b m with
  | (_, .error err) => .error err
  | (m, .ok .binary) => Binary.decode b m
  | (m, .ok .structured) => Structured.decode b m.payload.asText

end CloudEvents.Wire
