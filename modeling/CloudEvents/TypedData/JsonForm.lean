/-
  Typed data as JSON.

  A record is an object with its fields as members, in any order, or an array with its fields in order.
  In an object every field stands at most once, and members that are no fields do not count; what they
  hold is not looked into.  Numbers have neither fraction nor exponent and lie in their range.
-/
import CloudEvents.TypedData.DataType

namespace CloudEvents

open Json (Value Source)

/-- A value that is of a type. -/
def ScalarType.ofValue? (t : ScalarType) (v : Value) : Option Value :=
  match t, v with
  | integer low high, .number (.whole i) => if low ≤ i ∧ i ≤ high then some v else none
  | text, .text _ => some v
  | boolean, .boolean _ => some v
  | _, _ => none

/-- A single value. -/
def ScalarType.readJson? (t : ScalarType) (source : Source) (s : List Char) : Option Value :=
  (Value.readScalar? source s).bind t.ofValue?

/-- A single value, or `null`. -/
def ScalarType.readJsonOrNull? (t : ScalarType) (source : Source) (s : List Char) : Option Value :=
  match Value.readScalar? source s with
  | some .null => some .null
  | some v => t.ofValue? v
  | none => none

/-- A list of values. -/
def ScalarType.readJsonList? (t : ScalarType) (source : Source) (s : List Char) : Option Value :=
  ((Json.arrayItems? s).bind fun items => items.mapM (t.readJson? source)).map .array

namespace FieldType

/-- The value of a field that is there. -/
def readJson? (t : FieldType) (source : Source) (s : List Char) : Option Value :=
  match t with
  | one t => t.readJson? source s
  | optional t => t.readJsonOrNull? source s
  | many t => t.readJsonList? source s

end FieldType

namespace Field

/-- The field in a list of members. -/
def inMembers? (f : Field) (source : Source) (members : List (String × List Char)) :
    Option (String × Value) :=
  match members.filter fun m => m.1 == f.name with
  | [] => f.type.absent?.map (f.name, ·)
  | [m] => (f.type.readJson? source m.2).map (f.name, ·)
  | _ => none

/-- Fields in a list of items, one after the other; where the items end, only a list may be absent. -/
def inItems? (source : Source) : List Field → List (List Char) → Option (List (String × Value))
  | [], [] => some []
  | [], _ :: _ => none
  | f :: fs, [] =>
    match f.type with
    | .many _ => (inItems? source fs []).map ((f.name, .array []) :: ·)
    | _ => none
  | f :: fs, s :: r => do
    let v ← f.type.readJson? source s
    let rest ← inItems? source fs r
    some ((f.name, v) :: rest)

end Field

namespace DataType

/-- The value of a JSON text. -/
def readJson? (t : DataType) (source : Source) (s : List Char) : Option Value :=
  match t with
  | scalar t => t.readJson? source s
  | optional t => t.readJsonOrNull? source s
  | list t => t.readJsonList? source s
  | any => Value.read? source s
  | textMap => do
    let members ← source.members? s
    let texts ← members.mapM fun m => (ScalarType.text.readJson? source m.2).map (m.1, ·)
    some (.object (NameMap.ofList texts).entries)
  | record _ fields =>
    match Json.arrayItems? s with
    | some items => (Field.inItems? source fields items).map .object
    | none => do
      let members ← source.members? s
      (fields.mapM fun f : Field => f.inMembers? source members).map .object

/-- The JSON text of a value. -/
def writeJson (v : Value) : String := v.render .compact

end DataType

end CloudEvents
