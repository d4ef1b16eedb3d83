/-
  Elements and texts.

  Tokens are put together with a stack of the elements that are open.  Character data and verbatim
  sections that stand next to each other make one text; white space is dropped where such a text begins
  and ends with character data, and what is empty then is no text at all.  References are resolved only
  when a text is asked for, so a bad one in a part that nobody reads does no harm.

  Elements that end are kept even if the text goes wrong later on, and so is what there is of elements
  that do not end; they are marked.
-/
import CloudEvents.Xml.Token
import CloudEvents.Xml.Reference

namespace CloudEvents.Xml

/-- A text or an element. -/
inductive Node where
  /-- The text, unless a reference in it is bad. -/
  | text (s : Option (List Char))
  /-- An element: what stands in its start tag, its contents, and whether it ends. -/
  | element (tag : List Char) (children : List Node) (ended : Bool)
  deriving Inhabited

/-! ## Texts -/

/-- A piece of a text: character data, or characters that stand for themselves. -/
inductive Piece where
  | data (raw : List Char)
  | verbatim (s : List Char)
  deriving DecidableEq, Repr

namespace Piece

/-- Drops white space at the start of a run of pieces. -/
def trimFirst : List Piece → List Piece
  | [] => []
  | data raw :: r => if (trimStart raw).isEmpty then trimFirst r else data (trimStart raw) :: r
  | r => r

/-- Drops white space at the end of a run of pieces. -/
def trimLast : List Piece → List Piece
  | [] => []
  | [data raw] => [data (trimEnd raw)]
  | p :: r => p :: trimLast r

/-- The characters of a piece. -/
def text? : Piece → Option (List Char)
  | data raw => resolve? raw
  | verbatim s => some s

/-- The node of a run of pieces, if there is anything in it. -/
def nodes (run : List Piece) : List Node :=
  match trimLast (trimFirst run) with
  | [] => []
  | pieces => [.text ((pieces.mapM text?).map List.flatten)]

end Piece

/-! ## Elements -/

/-- An element that is open, or the text as a whole: what has been read of it, backwards. -/
structure Frame where
  tag : List Char
  nodes : List Node := []
  run : List Piece := []

namespace Frame

/-- Ends the text that is being read. -/
def flush (f : Frame) : Frame := { f with nodes := Piece.nodes f.run.reverse ++ f.nodes, run := [] }

/-- What has been read, forwards. -/
def contents (f : Frame) : List Node := f.flush.nodes.reverse

/-- Adds a node. -/
def push (f : Frame) (n : Node) : Frame := { f.flush with nodes := n :: f.flush.nodes }

end Frame

/-- A text as far as it can be read. -/
structure Document where
  nodes : List Node
  /-- Whether there is nothing behind the last node. -/
  complete : Bool

/-- Tokens being put together: the text as a whole, and the elements that are open, the innermost one
first. -/
structure Assembly where
  whole : Frame := { tag := [] }
  opened : List Frame := []

namespace Assembly

/-- Changes the innermost element that is open, or else the whole. -/
def update (a : Assembly) (change : Frame → Frame) : Assembly :=
  match a.opened with
  | [] => { a with whole := change a.whole }
  | f :: fs => { a with opened := change f :: fs }

/-- Adds a token, unless it closes an element that is not the innermost one. -/
def step? (a : Assembly) : Token → Option Assembly
  | .data raw => some (a.update fun f => { f with run := .data raw :: f.run })
  | .verbatim s => some (a.update fun f => { f with run := .verbatim s :: f.run })
  | .doctype => some (a.update Frame.flush)
  | .opening tag =>
    let a := a.update Frame.flush
    some { a with opened := { tag } :: a.opened }
  | .closing name =>
    match a.opened with
    | [] => none
    | f :: fs =>
      if name = tagName f.tag then
        some ({ a with opened := fs }.update fun g => g.push (.element f.tag f.contents true))
      else none

/-- What there is of the elements that are open, if any is; the innermost one stands last in the one
around it. -/
def unended? (opened : List Frame) : Option Node :=
  opened.foldl (fun inner f => some (.element f.tag (f.contents ++ inner.toList) false)) none

/-- What there is of the text. -/
def nodes (a : Assembly) : List Node := a.whole.contents ++ (unended? a.opened).toList

/-- Adds tokens as long as they fit; `complete` says whether anything unreadable follows them. -/
def document (complete : Bool) (a : Assembly) : List Token → Document
  | [] => ⟨a.nodes, complete && a.opened.isEmpty⟩
  | t :: r =>
    match a.step? t with
    | some a => document complete a r
    | none => ⟨a.nodes, false⟩

end Assembly

/-- The document of a text. -/
def document (s : List Char) : Document :=
  let (ts, complete) := tokens s
  ({} : Assembly).document complete ts

/-! ## Parts of an element -/

/-- The part of a name behind its first colon; all of it if there is none. -/
def localName (name : List Char) : List Char :=
  match Text.cutFirst? ':' name with
  | some (_, r) => r
  | none => name

/-- The text of an element that holds nothing else; without contents it is empty. -/
def soleText? : List Node → Option (List Char)
  | [] => some []
  | [.text s] => s
  | _ => none

/-- The attributes that follow the name of a tag: names and values as they stand. -/
def attributesFrom? : (fuel : Nat) → List (List Char) → List Char → Option (List (List Char × List Char))
  | 0, _, _ => none
  | fuel + 1, seen, s =>
    match trimStart s with
    | [] => some []
    | c :: r =>
      let isPart := fun x => x != '=' && !isGap x
      let name := c :: r.takeWhile isPart
      if name ∈ seen then none
      else
        match trimStart (r.dropWhile isPart) with
        | '=' :: r =>
          match trimStart r with
          | q :: r =>
            if q = '"' ∨ q = '\'' then
              match Text.cutFirst? q r with
              | some (value, r) =>
                (attributesFrom? fuel (name :: seen) r).map fun rest => (name, value) :: rest
              | none => none
            else none
          | [] => none
        | _ => none

/-- The attributes of a tag; no name may stand twice. -/
def attributes? (tag : List Char) : Option (List (List Char × List Char)) :=
  attributesFrom? (tag.length + 1) [] (tag.drop (tagName tag).length)

/-- Whether an attribute declares a namespace. -/
def isNamespaceDeclaration (name : List Char) : Bool :=
  name == "xmlns".toList || "xmlns:".toList.isPrefixOf name

/-- The key of an attribute beside the names of elements. -/
def attributeKey (name : List Char) : List Char :=
  '@' :: if isNamespaceDeclaration name then name else localName name

/-- The key of a text beside the names of elements. -/
def textKey : List Char := "$text".toList

end CloudEvents.Xml
