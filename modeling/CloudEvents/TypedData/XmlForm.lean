/-
  Typed data as XML.

  A record is an element: its own name does not count when it is read, and its fields are elements
  inside it, found by the local part of their names.  The elements of a list stand next to each other; a
  text between them is an item as well.  Attributes and elements that are no fields do not count, but a
  text has to be readable where it stands in the record or at the beginning of such an element.  Only
  records can be written.
-/
import CloudEvents.TypedData.XmlValue
import CloudEvents.Text.Integer

namespace CloudEvents

open Json (Value)
open Xml (Node Document)

/-! ## Reading -/

/-- The words for truth. -/
def trueWords : List String := ["true", "1", "True", "TRUE", "t", "Yes", "YES", "yes", "y"]

/-- The words for falsehood. -/
def falseWords : List String := ["false", "0", "False", "FALSE", "f", "No", "NO", "no", "n"]

/-- The value of a text. -/
def ScalarType.ofText? (t : ScalarType) (s : List Char) : Option Value :=
  match t with
  | integer low high => (Text.integer? low high s).map fun i => .number (.whole i)
  | text => some (.text (String.ofList s))
  | boolean =>
    if String.ofList s ∈ trueWords then some (.boolean true)
    else if String.ofList s ∈ falseWords then some (.boolean false)
    else none

/-- The value of a text or of an element that holds one. -/
def ScalarType.ofNode? (t : ScalarType) (n : Node) : Option Value :=
  match n with
  | .text s => s.bind t.ofText?
  | .element _ children true => (Xml.soleText? children).bind t.ofText?
  | .element _ _ false => none

namespace FieldType

/-- The value of a field from the nodes that belong to it. -/
def ofNodes? (t : FieldType) (nodes : List Node) : Option Value :=
  match t with
  | one t | optional t =>
    match nodes with
    | [n] => t.ofNode? n
    | _ => none
  | many t => (nodes.mapM t.ofNode?).map .array

/-- Whether a field can have several elements. -/
def isMany : FieldType → Bool
  | many _ => true
  | one _ | optional _ => false

end FieldType

/-- Whether a node goes on with a list of elements of a name. -/
def continuesList (name : List Char) : Node → Bool
  | .text _ => true
  | .element tag _ _ => Xml.tagName tag == name

/-- The contents of an element by their keys; where `isList` holds of a key, with all that continues
the list.  A text has to be readable, whoever it belongs to. -/
def keyedNodes? (isList : List Char → Bool) : List Node → Option (List (List Char × List Node))
  | [] => some []
  | .text none :: _ => none
  | .text (some s) :: r => (keyedNodes? isList r).map ((Xml.textKey, [.text (some s)]) :: ·)
  | .element tag children ended :: r =>
    let key := Xml.localName (Xml.tagName tag)
    if isList key then
      let more := continuesList (Xml.tagName tag)
      (keyedNodes? isList (r.dropWhile more)).map
        ((key, .element tag children ended :: r.takeWhile more) :: ·)
    else (keyedNodes? isList r).map ((key, [.element tag children ended]) :: ·)
termination_by nodes => nodes.length
decreasing_by
  · simp
  · have := (List.dropWhile_sublist (l := r) (continuesList (Xml.tagName tag))).length_le
    simp only [List.length_cons]
    omega
  · simp

namespace Field

/-- The field among the contents of an element. -/
def inNodes? (f : Field) (keyed : List (List Char × List Node)) : Option (String × Value) :=
  match keyed.filter fun e => String.ofList e.1 == f.name with
  | [] => f.type.absent?.map (f.name, ·)
  | [e] => (f.type.ofNodes? e.2).map (f.name, ·)
  | _ => none

end Field

/-- Whether a node can be passed over.  An element is not looked into, except that a text it begins
with has to be readable. -/
def canSkip : Node → Bool
  | .element _ (.text none :: _) _ => false
  | _ => true

namespace DataType

/-- The record that an element holds. -/
def recordOf? (fields : List Field) (tag : List Char) (children : List Node) : Option Value := do
  -- Attributes do not count, but they have to be in order.
  let _ ← Xml.attributes? tag
  let isList := fun key => fields.any fun f => f.type.isMany && f.name == String.ofList key
  let keyed ← keyedNodes? isList children
  let isField := fun key => fields.any fun f => f.name == String.ofList key
  if keyed.all fun e => isField e.1 || e.2.all canSkip then
    (fields.mapM fun f : Field => f.inNodes? keyed).map .object
  else none

/-- The map of texts that an element holds. -/
def textMapOf? (tag : List Char) (children : List Node) : Option Value := do
  let attrs ← XmlValue.attributeMembers? tag
  let keyed ← keyedNodes? (fun _ => false) children
  let texts ← keyed.mapM fun e =>
    ((FieldType.one .text).ofNodes? e.2).map (String.ofList e.1, ·)
  some (.object (NameMap.ofList (attrs ++ texts)).entries)

/-- The value of an XML text.  What follows the first node counts only for a list.  A value that may be
absent is absent where there is no node or an empty text, which only a verbatim section can be. -/
def readXml? (t : DataType) (s : List Char) : Option Value :=
  let d := Xml.document s
  match t with
  | list t => if d.complete then (d.nodes.mapM t.ofNode?).map .array else none
  | optional t =>
    match d.nodes with
    | [] => if d.complete then some .null else none
    | .text (some []) :: _ => some .null
    | n :: _ => t.ofNode? n
  | scalar t => d.nodes.head?.bind t.ofNode?
  | any => d.nodes.head?.bind (XmlValue.ofNode? s.length)
  | textMap =>
    match d.nodes with
    | .element tag children true :: _ => textMapOf? tag children
    | _ => none
  | record _ fields =>
    match d.nodes with
    | .element tag children true :: _ => recordOf? fields tag children
    | _ => none

/-! ## Writing -/

/-- An element; without contents it is one tag. -/
def xmlElement (name : String) (contents : List Char) : List Char :=
  if contents.isEmpty then '<' :: name.toList ++ ['/', '>']
  else '<' :: name.toList ++ '>' :: contents ++ '<' :: '/' :: name.toList ++ ['>']

/-- A single value as character data. -/
def xmlText : Value → List Char
  | .text s => Xml.escape s.toList
  | .number n => n.write
  | .boolean b => (if b then "true" else "false").toList
  | .null | .array _ | .object _ => []

/-- A field: one element for a single value or an absent one, one for each item of a list. -/
def xmlField (name : String) : Value → List Char
  | .array items => items.flatMap fun v => xmlElement name (xmlText v)
  | v => xmlElement name (xmlText v)

/-- The XML text of a value. -/
def writeXml? (t : DataType) (v : Value) : Option String :=
  match t, v with
  | record name _, .object members =>
    some (String.ofList (xmlElement name (members.flatMap fun m => xmlField m.1 m.2)))
  | optional _, .null => some ""
  | _, _ => none

end DataType

end CloudEvents
