/-
  Configuration: how envelopes are put on the wire and read from it.

  A configuration is read from named variables through a lookup, whatever stands behind it.  A variable
  that is not set leaves the default; one that cannot be understood is an error that names it.  Of
  several such variables the first counts, in the order binding, content mode, layout.
-/
import CloudEvents.Binding
import CloudEvents.ContentMode
import CloudEvents.Json.Layout

namespace CloudEvents

/-- How envelopes are put on the wire. -/
structure Config where
  binding : Binding
  mode : ContentMode := .binary
  /-- Whether documents are laid out on several lines. -/
  pretty : Bool := false
  deriving DecidableEq, Repr

/-- The values of variables. -/
abbrev Lookup := String → Option String

namespace Config

/-- The layout of documents. -/
def style (c : Config) : Json.Style := if c.pretty then .pretty else .compact

/-- The variable that names the binding. -/
def bindingVariable : String := "COURIER_BINDING"

/-- The variable that names the content mode. -/
def modeVariable : String := "COURIER_CONTENT_MODE"

/-- The variable that asks for documents on several lines. -/
def prettyVariable : String := "COURIER_JSON_PRETTY"

/-- The value of a switch; the case of letters and blanks around it do not count. -/
def parseSwitch? (s : String) : Option Bool :=
  let word := Text.lowerString (Text.trimString s)
  if word ∈ ["true", "1", "yes"] then some true
  else if word ∈ ["false", "0", "no"] then some false
  else none

/-- The binding of its variable. -/
def readBinding (lookup : Lookup) (initial : Binding) : Except Error Binding :=
  match lookup bindingVariable with
  | none => .ok initial
  | some s =>
    match Binding.parse s with
    | .ok b => .ok b
    | .error _ => .error (.config (.bindingVariable s))

/-- The content mode of its variable. -/
def readMode (lookup : Lookup) : Except Error ContentMode :=
  match lookup modeVariable with
  | none => .ok .binary
  | some s =>
    match ContentMode.parse s with
    | .ok m => .ok m
    | .error _ => .error (.config (.modeVariable (Text.lowerString (Text.trimString s))))

/-- The layout of its variable. -/
def readPretty (lookup : Lookup) : Except Error Bool :=
  match lookup prettyVariable with
  | none => .ok false
  | some s =>
    match parseSwitch? s with
    | some b => .ok b
    | none => .error (.config (.prettyVariable s))

/-- The configuration of a lookup, with a binding for the case that none is named. -/
def ofLookup (lookup : Lookup) (initial : Binding) : Except Error Config := do
  let binding ← readBinding lookup initial
  let mode ← readMode lookup
  let pretty ← readPretty lookup
  return { binding, mode, pretty }

end Config

/-! ## Logs -/

/-- The two shapes of log lines. -/
inductive LogFormat where
  | json
  | text
  deriving DecidableEq, Repr

namespace LogFormat

/-- The variable that names the shape. -/
def variableName : String := "COURIER_LOG_FORMAT"

/-- The shape of a word; whatever is not a word for texts means JSON. -/
def parse (s : String) : LogFormat :=
  if Text.lowerString (Text.trimString s) ∈ ["text", "pretty", "plain"] then text else json

/-- The shape of a lookup. -/
def ofLookup (lookup : Lookup) : LogFormat := ((lookup variableName).map parse).getD json

end LogFormat

end CloudEvents
