/-
  XML elements as values of any kind.

  An element is an object: attributes under names with an at sign, texts under a name of their own, and
  elements under the local parts of their names.  An element without attributes that begins with one of
  the name set aside for it holds a value that is spelled out, as a JSON text.

  Reading is a walk with a stack of the elements that are open.  A value that is spelled out is
  complete as soon as its text has been read, and nothing is asked for the end tag of the element that
  holds it.  So **whatever follows it there falls to the element around**, and the end tag that comes
  next ends that one.
-/
import CloudEvents.TypedData.DataType
import CloudEvents.Xml.Node

namespace CloudEvents.XmlValue

open Json (Value)
open Xml (Node)

/-- The members of an object, names and values. -/
abbrev Members := List (String × Value)

/-- An element that is open: what of it has not been read yet, and whether an end tag comes then. -/
structure Level where
  nodes : List Node
  ended : Bool

/-- The attributes of a tag as members. -/
def attributeMembers? (tag : List Char) : Option Members :=
  (Xml.attributes? tag).bind fun attrs =>
    attrs.mapM fun a =>
      (Xml.resolve? a.2).map fun s => (String.ofList (Xml.attributeKey a.1), .text (String.ofList s))

/-- If some nodes begin with an element that spells a value out, the contents of that element and the
nodes behind it. -/
def spelled? : List Node → Option (List Node × List Node)
  | .element tag children true :: r =>
    if Xml.localName (Xml.tagName tag) = Value.spelledName.toList then some (children, r) else none
  | _ => none

/-- The value of an element, and what is open behind it: `inner` is the element, `outer` what it stands
in, and `members` reads what is left of the innermost element. -/
def elementValue? (members : List Level → Option (Members × List Level)) (tag : List Char)
    (inner : Level) (outer : List Level) : Option (Value × List Level) := do
  let attrs ← attributeMembers? tag
  match attrs, spelled? inner.nodes with
  | [], some (contents, r) =>
    let s ← Xml.soleText? contents
    let v ← Value.read? .text s
    some (v, { inner with nodes := r } :: outer)
  | _, _ =>
    let (ms, behind) ← members (inner :: outer)
    some (.object (NameMap.ofList (attrs ++ ms)).entries, behind)

/-- The members that are left of the innermost element, and what is open behind its end.  Each step
reads a node or an end tag. -/
def members? : (fuel : Nat) → List Level → Option (Members × List Level)
  | 0, _ => none
  | _ + 1, [] => none
  | fuel + 1, level :: outer =>
    match level.nodes with
    | [] => if level.ended then some ([], outer) else none
    | .text s :: r => do
      let s ← s
      let (ms, behind) ← members? fuel ({ level with nodes := r } :: outer)
      some ((String.ofList Xml.textKey, .text (String.ofList s)) :: ms, behind)
    | .element tag children ended :: r => do
      let (v, behind) ←
        elementValue? (members? fuel) tag ⟨children, ended⟩ ({ level with nodes := r } :: outer)
      let (ms, behind) ← members? fuel behind
      some ((String.ofList (Xml.localName (Xml.tagName tag)), v) :: ms, behind)

/-- The value of a node in a text of a length: a text as it is, an element as an object or as what it
spells out.  No text has more nodes and end tags than characters. -/
def ofNode? (length : Nat) : Node → Option Value
  | .text s => s.map fun s => .text (String.ofList s)
  | .element tag children ended =>
    (elementValue? (members? (length + 1)) tag ⟨children, ended⟩ []).map Prod.fst

end CloudEvents.XmlValue
