/-
  Writing JSON documents.

  A document to be written is a tree whose leaves are texts, which get quoted, and pieces that are
  JSON already, which go out as they are.  There are two styles: the compact one puts nothing between
  tokens, the pretty one puts every item on a line of its own, two spaces further in than the
  brackets around it, and a space behind each colon.  Empty brackets stay on one line in both.
-/
import CloudEvents.Json.Quoted
import CloudEvents.Text.Integer

namespace CloudEvents.Json

/-- A document to be written. -/
inductive Tree where
  | text (s : String)
  /-- Something that is a JSON text already: a number, a literal, data that is carried through. -/
  | verbatim (s : List Char)
  | array (items : List Tree)
  | object (members : List (String × Tree))

/-- The two ways to lay a document out. -/
inductive Style where
  | compact
  | pretty
  deriving DecidableEq, Repr

/-- What stands in front of an item at a depth: nothing, or a new line and the indentation. -/
def Style.line : Style → Nat → List Char
  | .compact, _ => []
  | .pretty, depth => '\n' :: List.replicate (2 * depth) ' '

/-- What stands between a name and its value. -/
def Style.colon : Style → List Char
  | .compact => [':']
  | .pretty => [':', ' ']

namespace Tree

mutual

/-- The text of a document whose brackets stand at a depth. -/
def renderAt (style : Style) (depth : Nat) : Tree → List Char
  | .text s => quote s.toList
  | .verbatim s => s
  | .array [] => ['[', ']']
  | .array (x :: xs) =>
    '[' :: (style.line (depth + 1) ++ renderAt style (depth + 1) x ++
      renderItems style (depth + 1) xs ++ style.line depth ++ [']'])
  | .object [] => ['{', '}']
  | .object (m :: ms) =>
    '{' :: (style.line (depth + 1) ++ renderMember style (depth + 1) m ++
      renderMembers style (depth + 1) ms ++ style.line depth ++ ['}'])

/-- The items behind the first one. -/
def renderItems (style : Style) (depth : Nat) : List Tree → List Char
  | [] => []
  | x :: xs => ',' :: (style.line depth ++ renderAt style depth x ++ renderItems style depth xs)

/-- One member. -/
def renderMember (style : Style) (depth : Nat) : String × Tree → List Char
  | (name, t) => quote name.toList ++ style.colon ++ renderAt style depth t

/-- The members behind the first one. -/
def renderMembers (style : Style) (depth : Nat) : List (String × Tree) → List Char
  | [] => []
  | m :: ms => ',' :: (style.line depth ++ renderMember style depth m ++ renderMembers style depth ms)

end

/-- The text of a document. -/
def render (style : Style) (t : Tree) : String := String.ofList (renderAt style 0 t)

/-- A whole number. -/
def integer (i : Int) : Tree := .verbatim (Text.integer i)

/-- A truth value. -/
def boolean (b : Bool) : Tree := .verbatim (if b then ['t', 'r', 'u', 'e'] else ['f', 'a', 'l', 's', 'e'])

/-- The absent value. -/
def null : Tree := .verbatim ['n', 'u', 'l', 'l']

end Tree

example : Tree.render .compact (.object [("a", .integer 1), ("b", .array [.null, .text "x"])]) =
    "\x7b\"a\":1,\"b\":[null,\"x\"]\x7d" := by cbv

example : Tree.render .pretty (.array [.array [], .integer 7]) = "[\n  [],\n  7\n]" := by cbv

end CloudEvents.Json
