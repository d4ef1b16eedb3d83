/-
  Headers: what a transport carries beside a payload.

  A header value is a text, a number, a truth value, an instant or an identifier.  Attributes with
  more structure than that travel as texts.  Reading a header as something else therefore has two
  steps, in this order: the value is of the type asked for already, or it is a text that can be parsed
  as that type.  A value of a third type is not converted: the number 7 does not read as the text `7`.
-/
import CloudEvents.Time.Instant
import CloudEvents.Uuid
import CloudEvents.Uri
import CloudEvents.ContentType
import CloudEvents.Json.Value

namespace CloudEvents

/-- The value of a header. -/
inductive HeaderValue where
  | text (s : String)
  | integer (i : Int64)
  | boolean (b : Bool)
  | time (t : Instant)
  | uuid (u : Uuid)
  deriving DecidableEq, Repr

namespace HeaderValue

/-- The value, if it is a text. -/
def text? : HeaderValue → Option String
  | text s => some s
  | _ => none

/-- The word of a truth value. -/
def booleanWord (b : Bool) : String := if b then "true" else "false"

/-- Any value as a text.  An instant is written as it is on the wire. -/
def display : HeaderValue → String
  | text s => s
  | integer i => Text.integerString i.toInt
  | boolean b => booleanWord b
  | time t => t.wireText
  | uuid u => u.toText

/-! ## Reading a header as a type -/

/-- The types that a header can be read as. -/
class Readable (α : Type) where
  /-- The value, if it is of this type as it stands. -/
  typed? : HeaderValue → Option α
  /-- The value that a text stands for. -/
  parse? : String → Option α

/-- Reads a header: a value of the type itself, or else a text that parses. -/
def read? (α : Type) [Readable α] (v : HeaderValue) : Option α :=
  match Readable.typed? v with
  | some a => some a
  | none => v.text?.bind Readable.parse?

instance : Readable String := ⟨text?, some⟩

instance : Readable Instant := ⟨fun | time t => some t | _ => none, Instant.read?⟩

instance : Readable Uuid := ⟨fun | uuid u => some u | _ => none, Uuid.read?⟩

instance : Readable Int64 :=
  ⟨fun | integer i => some i | _ => none, fun s => Text.int64? (Text.trim s.toList)⟩

/-- A truth value is one of two words, in small letters; blanks around it do not count. -/
def parseBoolean? (s : String) : Option Bool :=
  let word := Text.trimString s
  if word = booleanWord true then some true
  else if word = booleanWord false then some false
  else none

instance : Readable Bool := ⟨fun | boolean b => some b | _ => none, parseBoolean?⟩

instance : Readable Uri := ⟨fun _ => none, fun s => (Uri.parse s).toOption⟩

instance : Readable ContentType := ⟨fun _ => none, fun s => (ContentType.parse s).toOption⟩

/-- A text reads as whatever it parses as: no type but that of texts takes it as it stands. -/
theorem read?_text_instant (s : String) : (text s).read? Instant = Instant.read? s := rfl

theorem read?_text_uuid (s : String) : (text s).read? Uuid = Uuid.read? s := rfl

theorem read?_text_int64 (s : String) : (text s).read? Int64 = Text.int64? (Text.trim s.toList) := rfl

/-- As a text a header is read only if it is one. -/
theorem read?_string (v : HeaderValue) : v.read? String = v.text? := by
  cases v <;> rfl

/-! ## Documents -/

/-- The value as a piece of a document.  An instant has no more decimals here than it needs. -/
def tree : HeaderValue → Json.Tree
  | text s => .text s
  | integer i => .integer i.toInt
  | boolean b => .boolean b
  | time t => .text (t.toText .fewest)
  | uuid u => .text u.toText

/-- The value that a JSON text is: a text, a number of 64 bits or a truth value.  Instants and
identifiers are texts there, and stay texts. -/
def ofJson (s : String) : Except Error HeaderValue :=
  match Json.Value.readScalar? .text s.toList with
  | some (.text t) => .ok (text t)
  | some (.boolean b) => .ok (boolean b)
  | some (.number (.whole i)) =>
    if -9223372036854775808 ≤ i ∧ i ≤ 9223372036854775807 then .ok (integer (Int64.ofInt i))
    else .error .json
  | _ => .error .json

end HeaderValue

/-! ## Header maps -/

/-- The headers of a message, in the order of their names.  Capital and small letters differ. -/
abbrev Headers := NameMap HeaderValue

namespace Headers

/-- The header of a name, read as a type. -/
def read? (h : Headers) (α : Type) [HeaderValue.Readable α] (name : String) : Option α :=
  (h.get? name).bind (·.read? α)

/-- The first header whose name is equal but for the case of its letters. -/
def findIgnoringCase? (h : Headers) (name : String) : Option (String × HeaderValue) :=
  h.findName? fun n => Text.sameIgnoringCase n.toList name.toList

/-- The headers as a piece of a document. -/
def tree (h : Headers) : Json.Tree := .object (h.entries.map fun e => (e.1, e.2.tree))

end Headers

/-- The header that announces what a payload is. -/
def contentTypeHeader : String := "content-type"

end CloudEvents
