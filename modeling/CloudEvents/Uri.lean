/-
  URI references, as the attributes `source` and `dataschema` hold them.

  Only what holds of every reference is asked for: it is not empty, and it has neither white space nor
  control characters.  The text is kept as it was given, so that nothing a sender wrote is changed.
-/
import CloudEvents.Error
import CloudEvents.Text.Blank
import CloudEvents.Text.Ascii
import CloudEvents.Text.Split
import CloudEvents.Json.Value

namespace CloudEvents

/-- A text that can be a URI reference. -/
def isUriReference (s : String) : Bool :=
  !s.toList.isEmpty && s.toList.all fun c => !Text.isBlank c && !Text.isControl c

/-- A URI reference. -/
structure Uri where
  text : String
  isReference : isUriReference text = true
  deriving DecidableEq, Repr

namespace Uri

/-- Reads a reference. -/
def parse (s : String) : Except Error Uri :=
  if h : isUriReference s = true then .ok ⟨s, h⟩
  else .error (.invalid (if s.toList.isEmpty then .emptyUri else .notUri s))

/-- The reference that a JSON text holds. -/
def ofJson (s : String) : Except Error Uri :=
  match (Json.Source.text.literal? s.toList).map parse with
  | some (.ok u) => .ok u
  | _ => .error .json

/-- What may follow the first letter of a scheme. -/
def isSchemeCharacter (c : Char) : Bool := Text.isAlphanumeric c || c == '+' || c == '-' || c == '.'

/-- The scheme, if the reference is absolute. -/
def scheme? (u : Uri) : Option String :=
  match Text.cutFirst? ':' u.text.toList with
  | some (c :: r, _) =>
    if Text.isLetter c && r.all isSchemeCharacter then some (String.ofList (c :: r)) else none
  | _ => none

/-- Whether the reference has a scheme. -/
def isAbsolute (u : Uri) : Bool := u.scheme?.isSome

/-- A reference reads as itself. -/
theorem parse_text (u : Uri) : parse u.text = .ok u := by
  simp [parse, u.isReference]

/-- What is parsed keeps its text, so a reference is read from no text but its own. -/
theorem parse_eq_ok_iff {s : String} {u : Uri} : parse s = .ok u ↔ u.text = s := by
  constructor
  · intro h
    unfold parse at h
    split at h
    · cases h; rfl
    · simp at h
  · rintro rfl
    exact parse_text u

end Uri

end CloudEvents
