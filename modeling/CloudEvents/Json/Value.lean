/-
  JSON values of any kind.

  A value is read from a text or from octets.  In octets the grammar is looked for octet by octet,
  and only a string that is read as text has to be well-formed UTF-8.  An object keeps one value for
  a name, the last one, and its members in the order of their names.  Containers may be nested a
  hundred and twenty-seven deep.

  A value can also be spelled out, as the text of an only member with a name that is set aside for it.
  It is the first member that decides: behind another one the name is a name like any other.
-/
import CloudEvents.Json.Scan
import CloudEvents.Json.Number
import CloudEvents.NameMap
import CloudEvents.Text.Utf8

namespace CloudEvents.Json

/-! ## Where a text comes from -/

/-- What the characters of a scanned text are: characters, or octets that stand for themselves. -/
inductive Source where
  | text
  | octets
  deriving DecidableEq, Repr

/-- Octets as characters, for the scanner. -/
def ofOctets (bytes : List UInt8) : List Char := bytes.map fun b => Char.ofNat b.toNat

/-- The text between the quotes of a literal. -/
def Source.string? (source : Source) (body : List Char) : Option String :=
  match source with
  | .text => (unescape? body).map String.ofList
  | .octets =>
    ((Text.Utf8.decode? (body.map fun c => UInt8.ofNat c.toNat)).bind unescape?).map String.ofList

/-- The text of a value that is a string. -/
def Source.literal? (source : Source) (s : List Char) : Option String :=
  (literalBody? s).bind source.string?

/-- The members of an object, with their names read. -/
def Source.members? (source : Source) (s : List Char) : Option (List (String × List Char)) :=
  (objectMembers? s).bind fun ms => ms.mapM fun m => (source.string? m.name).map (·, m.value)

/-! ## Values -/

/-- A JSON value. -/
inductive Value where
  | null
  | boolean (b : Bool)
  | number (n : Number)
  | text (s : String)
  | array (items : List Value)
  | object (members : List (String × Value))
  deriving Inhabited

namespace Value

/-- How deep containers may be nested. -/
def depthLimit : Nat := 127

/-- The name that marks a value which is spelled out: an object with this member alone stands for the
value that the text of the member spells. -/
def spelledName : String := "$serde_json::private::RawValue"

/-- The value of a text that has no gaps around it and is no container. -/
def scalarOf? (source : Source) (u : List Char) : Option Value :=
  match u with
  | '"' :: _ => (source.literal? u).map .text
  | 't' :: _ => some (.boolean true)
  | 'f' :: _ => some (.boolean false)
  | 'n' :: _ => some .null
  | _ => ((numeralOf? u).bind Numeral.number?).map .number

/-- The value of a text that holds a single value. -/
def readScalar? (source : Source) (s : List Char) : Option Value :=
  (document? s).bind (scalarOf? source)

/-- The value of a text, in which containers may still be nested `depth` deep.  The text of a part is
shorter than the whole, and so is a text that is spelled out, so the length of the text is fuel
enough. -/
def readWithin? : (fuel : Nat) → Source → (depth : Nat) → List Char → Option Value
  | 0, _, _, _ => none
  | fuel + 1, source, depth, s =>
    match document? s with
    | none => none
    | some u =>
      match u with
      | '[' :: _ =>
        if depth = 0 then none
        else
          (arrayItems? u).bind fun xs =>
            (xs.mapM (readWithin? fuel source (depth - 1))).map .array
      | '{' :: _ =>
        if depth = 0 then none
        else
          match source.members? u with
          | none => none
          | some ms =>
            if (ms.head?.map Prod.fst) = some spelledName then
              match ms with
              -- A text that is spelled out starts afresh: the depth of what is around it does not count.
              | [m] =>
                (source.literal? m.2).bind fun t => readWithin? fuel .text depthLimit t.toList
              | _ => none
            else
              (ms.mapM fun m => (readWithin? fuel source (depth - 1) m.2).map (m.1, ·)).map fun ms =>
                .object (NameMap.ofList ms).entries
      | u => scalarOf? source u

/-- The value of a text. -/
def read? (source : Source) (s : List Char) : Option Value :=
  readWithin? (s.length + 1) source depthLimit s

mutual

/-- The document of a value. -/
def tree : Value → Tree
  | .null => .null
  | .boolean b => .boolean b
  | .number n => .verbatim n.write
  | .text s => .text s
  | .array xs => .array (trees xs)
  | .object ms => .object (memberTrees ms)

/-- The documents of the items of an array. -/
def trees : List Value → List Tree
  | [] => []
  | x :: xs => tree x :: trees xs

/-- The document of a member. -/
def memberTree : String × Value → String × Tree
  | (name, v) => (name, tree v)

/-- The documents of the members of an object. -/
def memberTrees : List (String × Value) → List (String × Tree)
  | [] => []
  | m :: ms => memberTree m :: memberTrees ms

end

/-- The text of a value. -/
def render (style : Style) (v : Value) : String := v.tree.render style

/-- The whole number that a value is. -/
def int? : Value → Option Int
  | .number (.whole i) => some i
  | _ => none

/-- The text that a value is. -/
def text? : Value → Option String
  | .text s => some s
  | _ => none

end Value

end CloudEvents.Json
