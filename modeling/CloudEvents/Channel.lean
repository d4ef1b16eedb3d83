/-
  Channels: events sent and received over a medium.

  Publishing checks an event, encodes it and, in binary mode, validates the headers; only then is
  anything sent.  A subscription takes message after message from a mailbox of its own and decodes it
  under the binding of the channel, and by the rules of a kind if it was made for one.  A message that
  cannot be decoded is taken all the same, and the next one is not affected.
-/
import CloudEvents.Medium
import CloudEvents.Registry
import CloudEvents.Time.Duration

namespace CloudEvents

/-- Why an event was not published. -/
inductive PublishError where
  /-- The event is incomplete. -/
  | envelope (err : Error)
  /-- The medium refused the message. -/
  | refused (reason : String)
  deriving DecidableEq, Repr

/-- The text of a refusal: the reason, in quotes. -/
def refusalText (reason : String) : String := "\"" ++ reason ++ "\""

/-- The text of an error. -/
def PublishError.message : PublishError → String
  | envelope err => err.message
  | refused reason => "transport rejected the message: " ++ refusalText reason

/-- Why no event was received. -/
inductive ReceiveError where
  | timeout (d : Duration)
  /-- No message will come any more. -/
  | closed
  /-- A message came that is no envelope. -/
  | envelope (err : Error)
  deriving DecidableEq, Repr

/-- The text of an error. -/
def ReceiveError.message : ReceiveError → String
  | timeout d => "no message within " ++ d.toText
  | closed => "transport closed"
  | envelope err => err.message

namespace Channel

/-! ## Publishing -/

/-- The message that publishing an event sends. -/
def outgoing (c : Config) (e : Event) (f : Fresh) : Except Error Outgoing := do
  Validation.checkEvent e
  let m := Wire.encode c e f
  match c.mode with
  | .structured => return m
  | .binary =>
    let (h, verdict) := Validation.validateHeaders c.binding f m.headers
    verdict
    return { m with headers := h }

/-- Publishes an event. -/
def publish (c : Config) (e : Event) (f : Fresh) (m : Medium) : Except PublishError Medium :=
  match outgoing c e f with
  | .error err => .error (.envelope err)
  | .ok x => (m.send x.received).mapError .refused

/-! ## Receiving -/

/-- A mailbox whose messages are decoded. -/
structure Subscription where
  mailbox : Nat
  binding : Binding
  /-- The kind whose rules the events have to satisfy. -/
  kind : Option Kind := none

/-- Subscribes to the events of a channel. -/
def subscribe (c : Config) (m : Medium) : Medium × Subscription :=
  let (m, box) := m.openMailbox
  (m, { mailbox := box, binding := c.binding })

/-- Subscribes to the events of a channel that are of a kind. -/
def subscribeKind (c : Config) (r : Registry) (tag : String) (m : Medium) :
    Except Error (Medium × Subscription) :=
  (r.find tag).map fun k =>
    let (m, s) := subscribe c m
    (m, { s with kind := some k })

namespace Subscription

/-- The event of a message. -/
def decode (s : Subscription) (f : Fresh) (x : Message) : Except Error Event :=
  match s.kind with
  | some k => k.decode s.binding f x
  | none => Wire.decode s.binding x

/-- The next event, if a message waits. -/
def next (s : Subscription) (f : Fresh) (m : Medium) : Medium × Except ReceiveError (Option Event) :=
  match m.take s.mailbox with
  | (m, .message x) => (m, ((s.decode f x).map some).mapError .envelope)
  | (m, .nothing) => (m, .ok none)
  | (m, .closed) => (m, .error .closed)

/-- The next event, waiting for it; in memory nothing comes while one waits. -/
def nextWithin (s : Subscription) (d : Duration) (f : Fresh) (m : Medium) :
    Medium × Except ReceiveError Event :=
  match s.next f m with
  | (m, .ok (some e)) => (m, .ok e)
  | (m, .ok none) => (m, .error (.timeout d))
  | (m, .error err) => (m, .error err)

end Subscription

end Channel

end CloudEvents
