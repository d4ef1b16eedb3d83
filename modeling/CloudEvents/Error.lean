/-
  What can go wrong with an envelope.

  `Fault` lists the ways in which attributes, headers or a document can be wrong, all of which the
  sender can mend by changing a value.  `Error` adds what is not about values: an empty argument, data
  of the wrong type, a framing, kind, binding or configuration that does not exist.  The wording is in
  `Fault.message` and `Error.message` and nowhere else.
-/
import CloudEvents.Attribute

namespace CloudEvents

/-- A value of an envelope, a message or a document that is not allowed. -/
inductive Fault where
  | emptyUri
  | notUri (value : String)
  | notContentType (value : String)
  /-- A reserved name, used for an extension attribute. -/
  | reservedName (name : String)
  | missingAttribute (name : String)
  | notInt32Sequence (value : String)
  | missingHeader (header : String)
  | wrongVersionHeader (header : String) (value : String)
  | invalidHeader (header : String) (value : String)
  | emptyIdHeader
  /-- The version of a message that is being decoded. -/
  | unsupportedVersion (value : String)
  /-- The version member of a document, as it is written there. -/
  | unsupportedVersionMember (json : String)
  | malformedDocument
  | notAnObject
  | base64NotText
  | notBase64
  | twoData
  | invalidMember (name : String)
  /-- A rule that an application brought along. -/
  | custom (text : String)
  deriving DecidableEq, Repr

/-- The text of a fault. -/
def Fault.message : Fault → String
  | emptyUri => "URI must not be empty"
  | notUri value => s!"'{value}' is not a valid URI reference"
  | notContentType value => s!"'{value}' is not a valid content type"
  | reservedName name => s!"'{name}' cannot be used as an extension attribute"
  | missingAttribute name => s!"missing required '{name}' attribute"
  | notInt32Sequence value => s!"'sequence' value '{value}' is not a 32-bit integer"
  | missingHeader header => s!"missing required '{header}' header"
  | wrongVersionHeader header value =>
    s!"invalid '{header}' header value '{value}' (expected '{specVersion}')"
  | invalidHeader header value => s!"invalid value '{value}' for '{header}' header"
  | emptyIdHeader => "'id' header must not be empty"
  | unsupportedVersion value => s!"unsupported specversion '{value}' (expected '{specVersion}')"
  | unsupportedVersionMember json => s!"unsupported specversion {json} (expected '{specVersion}')"
  | malformedDocument => "malformed structured event"
  | notAnObject => "structured event must be a JSON object"
  | base64NotText => "'data_base64' member must have a string value"
  | notBase64 => "'data_base64' member must have a valid base-64 encoded binary value"
  | twoData => "'data' and 'data_base64' members cannot both have values"
  | invalidMember name => s!"Invalid value for '{name}' member"
  | custom text => text

/-- A configuration that cannot be understood. -/
inductive ConfigFault where
  /-- A word that names no content mode, in small letters and without blanks around it. -/
  | unknownMode (word : String)
  | bindingVariable (value : String)
  | modeVariable (word : String)
  | prettyVariable (value : String)
  deriving DecidableEq, Repr

/-- An argument that must not be empty. -/
inductive Argument where
  | id
  | attributeName
  | correlationId
  | partitionKey
  | json
  deriving DecidableEq, Repr

/-- The text of an argument's name. -/
def Argument.name : Argument → String
  | id => "id"
  | attributeName => "attribute name"
  | correlationId => "correlation id"
  | partitionKey => "partition key"
  | json => "json"

/-- What went wrong. -/
inductive Error where
  | invalid (fault : Fault)
  | emptyArgument (argument : Argument)
  | unsupportedMediaType (contentType : String)
  /-- The typed view that is remembered is of another type than the one asked for. -/
  | otherType
  | missingData
  /-- Data that is not JSON of the type asked for, or a type that JSON cannot hold. -/
  | json
  /-- Data that is not XML of the type asked for, or a type that XML cannot hold. -/
  | xml
  | defaultBindingAlreadySet
  | unknownKind (tag : String)
  | unknownBinding (name : String)
  | config (fault : ConfigFault)
  deriving DecidableEq, Repr

/-- The text of a mode that does not exist. -/
def unknownModeText (word : String) : String := s!"invalid configuration: unknown content mode '{word}'"

/-- The text of a binding that does not exist. -/
def unknownBindingText (name : String) : String := s!"unknown protocol binding: {name}"

/-- The text of a configuration that cannot be understood. -/
def ConfigFault.message : ConfigFault → String
  | unknownMode word => unknownModeText word
  | bindingVariable value => "invalid configuration: COURIER_BINDING: " ++ unknownBindingText value
  | modeVariable word => "invalid configuration: COURIER_CONTENT_MODE: " ++ unknownModeText word
  | prettyVariable value =>
    s!"invalid configuration: COURIER_JSON_PRETTY: expected a boolean, got '{value}'"

/-- The text of an error. -/
def Error.message : Error → String
  | invalid fault => "validation failed: " ++ fault.message
  | emptyArgument argument => "argument must not be empty: " ++ argument.name
  | unsupportedMediaType contentType => s!"unsupported media type: {contentType}"
  | otherType => "cached data cannot be cast to the requested type"
  | missingData => "envelope has no data"
  | json => "json data error"
  | xml => "xml data error"
  | defaultBindingAlreadySet => "default protocol binding is already set"
  | unknownKind tag => s!"unknown envelope kind: {tag}"
  | unknownBinding name => unknownBindingText name
  | config fault => fault.message

/-- Whether an error can be mended by changing a value of the envelope. -/
def Error.isValidation : Error → Bool
  | invalid _ => true
  | _ => false

/-- A step and what follows it succeed together if both do. -/
theorem bind_eq_ok_iff {α β : Type} {x : Except Error α} {f : α → Except Error β} {b : β} :
    (x >>= f) = .ok b ↔ ∃ a, x = .ok a ∧ f a = .ok b := by
  cases x with
  | error err => simp [bind, Except.bind]
  | ok a => simp [bind, Except.bind]

/-- A function of a result succeeds where the result does. -/
theorem map_eq_ok_iff {α β : Type} {x : Except Error α} {f : α → β} {b : β} :
    x.map f = .ok b ↔ ∃ a, x = .ok a ∧ f a = b := by
  cases x with
  | error err => simp [Except.map]
  | ok a => simp [Except.map]

end CloudEvents
