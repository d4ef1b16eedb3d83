/-
  Content modes: the two ways to lay an envelope out in a message.
-/
import CloudEvents.Error
import CloudEvents.Text.Ascii
import CloudEvents.Text.Blank
import CloudEvents.Json.Choice

namespace CloudEvents

/-- The layout of a message. -/
inductive ContentMode where
  /-- Attributes as headers, data as the payload. -/
  | binary
  /-- The whole envelope as one JSON document in the payload. -/
  | structured
  deriving DecidableEq, Repr, Inhabited

namespace ContentMode

/-- Both of them. -/
def all : List ContentMode := [binary, structured]

/-- The name of a mode. -/
def name : ContentMode → String
  | binary => "binary"
  | structured => "structured"

/-- The mode of a word; the case of letters and blanks around it do not count. -/
def parse (s : String) : Except Error ContentMode :=
  let word := Text.lowerString (Text.trimString s)
  match all.find? fun m => m.name == word with
  | some m => .ok m
  | none => .error (.config (.unknownMode word))

/-- The mode that a JSON text chooses, in small letters. -/
def ofJson (s : String) : Except Error ContentMode :=
  match (Json.choice? s.toList).bind fun word => all.find? fun m => m.name == word with
  | some m => .ok m
  | none => .error .json

end ContentMode

end CloudEvents
