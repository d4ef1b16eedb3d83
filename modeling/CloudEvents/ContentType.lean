/-
  Content types: a media type, and parameters behind semicolons.

  The media type is what stands in front of the first semicolon, without blanks around it; it has a
  type and a subtype with one slash between them.  It is compared in small letters, while the text is
  kept as it was given.
-/
import CloudEvents.Error
import CloudEvents.Text.Blank
import CloudEvents.Text.Ascii
import CloudEvents.Text.Split
import CloudEvents.Json.Value

namespace CloudEvents

/-- The media type of a content type, as it is written. -/
def writtenMediaType (s : List Char) : List Char := Text.trim (Text.before ';' s)

/-- The media type of a content type, in small letters. -/
def mediaTypeOf (s : String) : List Char := Text.lower (writtenMediaType s.toList)

/-- A text that can be a content type. -/
def isContentType (s : String) : Bool :=
  match Text.cutFirst? '/' (writtenMediaType s.toList) with
  | some (type, subtype) => !type.isEmpty && !subtype.isEmpty && !subtype.contains '/'
  | none => false

/-- A content type. -/
structure ContentType where
  text : String
  isContentType : isContentType text = true
  deriving DecidableEq, Repr

namespace ContentType

/-- Reads a content type. -/
def parse (s : String) : Except Error ContentType :=
  if h : CloudEvents.isContentType s = true then .ok ⟨s, h⟩
  else .error (.invalid (.notContentType s))

/-- The content type that a JSON text holds. -/
def ofJson (s : String) : Except Error ContentType :=
  match (Json.Source.text.literal? s.toList).map parse with
  | some (.ok c) => .ok c
  | _ => .error .json

/-- Type and subtype, without parameters, in small letters. -/
def mediaType (c : ContentType) : String := String.ofList (mediaTypeOf c.text)

/-- The value of a parameter; the case of its name does not count, nor do quotes around the value. -/
def parameter? (c : ContentType) (name : String) : Option String :=
  (Text.pieces ';' c.text.toList).tail.findSome? fun p =>
    match Text.cutFirst? '=' p with
    | some (key, value) =>
      if Text.sameIgnoringCase (Text.trim key) name.toList then
        some (String.ofList (Text.strip (· == '"') (Text.trim value)))
      else none
    | none => none

/-- The ending of the media types that are JSON underneath. -/
def jsonEnding : List Char := "+json".toList

/-- The ending of the media types that are XML underneath. -/
def xmlEnding : List Char := "+xml".toList

/-- Whether data of this type is JSON. -/
def isJson (c : ContentType) : Bool :=
  mediaTypeOf c.text == "application/json".toList || jsonEnding.isSuffixOf (mediaTypeOf c.text)

/-- Whether data of this type is XML. -/
def isXml (c : ContentType) : Bool :=
  mediaTypeOf c.text == "application/xml".toList || mediaTypeOf c.text == "text/xml".toList ||
    xmlEnding.isSuffixOf (mediaTypeOf c.text)

/-- A content type reads as itself. -/
theorem parse_text (c : ContentType) : parse c.text = .ok c := by
  simp [parse, c.isContentType]

/-- What is parsed keeps its text, so a content type is read from no text but its own. -/
theorem parse_eq_ok_iff {s : String} {c : ContentType} : parse s = .ok c ↔ c.text = s := by
  constructor
  · intro h
    unfold parse at h
    split at h
    · cases h; rfl
    · simp at h
  · rintro rfl
    exact parse_text c

end ContentType

end CloudEvents
