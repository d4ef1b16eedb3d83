/-
  Messages: a payload with headers.

  What a sender hands to a transport has two options more than what a receiver gets from it, a
  priority and whether to compress.  They stay with the transport: the receiver sees payload and
  headers.
-/
import CloudEvents.Payload
import CloudEvents.Header

namespace CloudEvents

/-- A message as it is received. -/
structure Message where
  payload : Payload
  headers : Headers
  deriving DecidableEq

instance : Inhabited Message := ⟨⟨.empty, .empty⟩⟩

/-- A message to be sent. -/
structure Outgoing extends Message where
  priority : Option UInt8 := none
  compress : Bool := false
  deriving DecidableEq

namespace Outgoing

/-- A message without headers. -/
def ofPayload (p : Payload) : Outgoing := { payload := p, headers := .empty }

/-- What a receiver gets. -/
def received (m : Outgoing) : Message := m.toMessage

/-- The message as a document; options that are not used are left out. -/
def tree (m : Outgoing) : Json.Tree :=
  .object <|
    [("payload", m.payload.tree), ("headers", m.headers.tree)] ++
      (m.priority.map fun p => ("priority", Json.Tree.integer p.toNat)).toList ++
      (if m.compress then [("compress", .boolean true)] else [])

end Outgoing

end CloudEvents
