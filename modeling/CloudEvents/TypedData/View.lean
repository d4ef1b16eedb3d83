/-
  Typed views of an event's data.

  Data is read as a type when it is asked for, as XML if the content type says so and as JSON otherwise,
  and the value is remembered until the data changes.  Asking for another type while a value is
  remembered is an error.  Data that is written from a value remembers that value.

  What the types are and how their values are read and written does not matter for this, so it is a
  parameter: `Forms`.
-/
import CloudEvents.Event
import CloudEvents.TypedData.JsonForm
import CloudEvents.TypedData.XmlForm

namespace CloudEvents

/-- The two languages of typed data. -/
inductive DataLanguage where
  | json
  | xml
  deriving DecidableEq, Repr

/-- How the values of types are read from data and written as text. -/
structure Forms (τ ν : Type) where
  read : τ → DataLanguage → Payload → Except Error ν
  write : τ → DataLanguage → ν → Except Error String

/-- An event, and the value that its data was last read or written as. -/
structure TypedEvent (τ ν : Type) where
  event : Event
  cache : Option (τ × ν) := none

namespace Event

/-- The language of an event's typed data. -/
def dataLanguage (e : Event) : DataLanguage :=
  if (e.dataContentType.map ContentType.isXml).getD false then .xml else .json

end Event

namespace TypedEvent

variable {τ ν : Type}

/-- Changes something other than the data. -/
def update (e : TypedEvent τ ν) (change : Event → Event) : TypedEvent τ ν :=
  { e with event := { change e.event with data := e.event.data } }

/-- Sets the data.  Setting what is there already changes nothing. -/
def setData (e : TypedEvent τ ν) (p : Payload) : TypedEvent τ ν :=
  if e.event.data = some p then e else { event := { e.event with data := some p }, cache := none }

/-- Removes the data. -/
def clearData (e : TypedEvent τ ν) : TypedEvent τ ν :=
  match e.event.data with
  | some _ => { event := { e.event with data := none }, cache := none }
  | none => e

/-- The data as a value of a type, and the event that remembers it. -/
def dataAs [DecidableEq τ] (forms : Forms τ ν) (e : TypedEvent τ ν) (t : τ) :
    Except Error (ν × TypedEvent τ ν) :=
  match e.cache with
  | some (t', v) => if t' = t then .ok (v, e) else .error .otherType
  | none =>
    match e.event.data with
    | none => .error .missingData
    | some p =>
      match forms.read t e.event.dataLanguage p with
      | .ok v => .ok (v, { e with cache := some (t, v) })
      | .error err => .error err

/-- Like `dataAs`, but whatever goes wrong, there is no value. -/
def tryDataAs [DecidableEq τ] (forms : Forms τ ν) (e : TypedEvent τ ν) (t : τ) :
    Option ν × TypedEvent τ ν :=
  match e.dataAs forms t with
  | .ok (v, e) => (some v, e)
  | .error _ => (none, e)

/-- Sets the data to the text of a value. -/
def setDataAs (forms : Forms τ ν) (e : TypedEvent τ ν) (t : τ) (v : ν) :
    Except Error (TypedEvent τ ν) :=
  match forms.write t e.event.dataLanguage v with
  | .ok s => .ok { e.setData (.text s) with cache := some (t, v) }
  | .error err => .error err

end TypedEvent

namespace DataType

/-- Reads data as a type. -/
def read (t : DataType) (language : DataLanguage) (p : Payload) : Except Error Json.Value :=
  match language with
  | .xml =>
    match (Text.Utf8.decode? p.asOctets).bind t.readXml? with
    | some v => .ok v
    | none => .error .xml
  | .json =>
    let value := match p with
      | .text s => t.readJson? .text s.toList
      | .octets bytes => t.readJson? .octets (Json.ofOctets bytes)
    match value with
    | some v => .ok v
    | none => .error .json

/-- Writes a value of a type. -/
def write (t : DataType) (language : DataLanguage) (v : Json.Value) : Except Error String :=
  match language with
  | .xml =>
    match t.writeXml? v with
    | some s => .ok s
    | none => .error .xml
  | .json => .ok (writeJson v)

/-- How values are read and written. -/
def forms : Forms DataType Json.Value := ⟨read, write⟩

end DataType

end CloudEvents
