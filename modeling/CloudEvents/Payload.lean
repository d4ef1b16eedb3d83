/-
  Payloads: what an event or a message carries.

  A payload is a text or a sequence of octets, never both, and the two are kept apart: a text is not
  equal to its own octets.  Either can be looked at as the other.  Octets that are not UTF-8 are then
  replaced, so the view of a text as octets loses nothing and the one of octets as a text may.
-/
import CloudEvents.Text.Utf8
import CloudEvents.Json.Layout

namespace CloudEvents

/-- A text or octets. -/
inductive Payload where
  | text (s : String)
  | octets (bytes : List UInt8)
  deriving DecidableEq, Repr

namespace Payload

/-- The payload of a message that carries nothing. -/
def empty : Payload := text ""

instance : Inhabited Payload := ⟨empty⟩

/-- The payload, if it is a text. -/
def text? : Payload → Option String
  | text s => some s
  | octets _ => none

/-- The payload as a text. -/
def asText : Payload → String
  | text s => s
  | octets bytes => String.ofList (Text.Utf8.decodeLossy bytes)

/-- The payload as octets. -/
def asOctets : Payload → List UInt8
  | text s => Text.Utf8.encode s.toList
  | octets bytes => bytes

/-- Whether the payload is octets. -/
def isBinary : Payload → Bool
  | text _ => false
  | octets _ => true

/-- Whether there is nothing in it. -/
def isEmpty (p : Payload) : Bool := p.asOctets.isEmpty

/-- The payload as a piece of a document: a text, or the numbers of the octets. -/
def tree : Payload → Json.Tree
  | text s => .text s
  | octets bytes => .array (bytes.map fun b => .integer b.toNat)

/-- A text that travels as octets arrives as the same text. -/
theorem asText_octets_asOctets (s : String) : (octets (text s).asOctets).asText = s := by
  simp [asText, asOctets, Text.Utf8.decodeLossy_encode]

end Payload

end CloudEvents
