/-
  Structured mode: the whole envelope as one JSON document.

  The document is an object.  Attributes are members with text values, in the order of their names;
  data comes last.  Data that is a JSON text already goes in as it is written, so that numbers keep
  their digits and objects the order of their members; any other text goes in as a string, and octets
  go in as base 64 under a name of their own.

  Reading keeps the raw text of every member.  Of several members of one name the last one counts.
  Members are looked at in the order: version, data, then the others by name, and the first that is
  wrong decides what is reported.
-/
import CloudEvents.Event
import CloudEvents.Json.Scan
import CloudEvents.Json.Value
import CloudEvents.Text.Base64

namespace CloudEvents.Wire.Structured

/-- The content type of a message that holds a document. -/
def contentType : String := "application/cloudevents+json; charset=utf-8"

/-! ## Writing -/

/-- The text that a slot has in a document, if it has a value. -/
def slotText? (e : Event) (f : Fresh) : WellKnown → Option String
  | .id => some (e.idOr f)
  | .source => e.source.map Uri.text
  | .specversion => some specVersion
  | .type => e.type
  | .datacontenttype => e.dataContentType.map ContentType.text
  | .dataschema => e.dataSchema.map Uri.text
  | .subject => e.subject
  | .time => some (e.timeOr f).wireText

/-- The member that octets are written as. -/
def base64Member? (e : Event) : Option (String × String) :=
  match e.data with
  | some (.octets bytes) => some (base64Name, String.ofList (Text.Base64.encode bytes))
  | _ => none

/-- The members with text values. -/
def textMembers (e : Event) (f : Fresh) : NameMap String :=
  .ofList <|
    (WellKnown.all.filterMap fun w => (slotText? e f w).map (w.name, ·)) ++ e.attributes.entries ++
      (base64Member? e).toList

/-- A text as the value of the data member. -/
def dataTree (s : String) : Json.Tree :=
  match Json.document? s.toList with
  | some raw => .verbatim raw
  | none => .text s

/-- The document of an event. -/
def tree (e : Event) (f : Fresh) : Json.Tree :=
  .object <|
    (textMembers e f).entries.map (fun m => (m.1, .text m.2)) ++
      ((e.data.bind Payload.text?).map fun s => (dataName, dataTree s)).toList

/-- The text of an event's document. -/
def encode (style : Json.Style) (e : Event) (f : Fresh) : String := (tree e f).render style

/-! ## Reading -/

/-- The members of a document, with their values as written. -/
def members (s : List Char) : Except Error (NameMap (List Char)) :=
  if Text.isAllBlank s then .error (.emptyArgument .json)
  else
    match Json.Source.text.members? s with
    | some ms => .ok (.ofList ms)
    | none =>
      .error (.invalid (if (Json.document? s).isSome then .notAnObject else .malformedDocument))

/-- The value of a member that is a text. -/
def text? (raw : List Char) : Option String := Json.Source.text.literal? raw

/-- The version has to be the one there is, if it is given. -/
def checkVersion (ms : NameMap (List Char)) : Except Error Unit :=
  match ms.get? WellKnown.specversion.name with
  | none => .ok ()
  | some raw =>
    if text? raw = some specVersion then .ok ()
    else .error (.invalid (.unsupportedVersionMember (String.ofList raw)))

/-- The octets of the member that holds base 64. -/
def readOctets (ms : NameMap (List Char)) : Except Error (Option (List UInt8)) :=
  match ms.get? base64Name with
  | none => .ok none
  | some raw =>
    match text? raw with
    | none => .error (.invalid .base64NotText)
    | some s =>
      match Text.Base64.decode? s.toList with
      | none => .error (.invalid .notBase64)
      | some bytes => .ok (some bytes)

/-- The data of a document: octets, the text of a string, or the raw text of anything else. -/
def readData (ms : NameMap (List Char)) : Except Error (Option Payload) :=
  match readOctets ms with
  | .error err => .error err
  | .ok none =>
    .ok ((ms.get? dataName).map fun raw => .text ((text? raw).getD (String.ofList raw)))
  | .ok (some bytes) =>
    if ms.contains dataName then .error (.invalid .twoData) else .ok (some (.octets bytes))

/-- The slot of a name. -/
def slotOfName? (name : String) : Option WellKnown := WellKnown.all.find? fun w => w.name == name

/-- Sets an attribute from the text of a member. -/
def setMember (e : Event) (name value : String) : Except Error Event :=
  let invalid : Error := .invalid (.invalidMember name)
  match slotOfName? name with
  | some .id => (e.setId value).mapError fun _ => invalid
  | some .source =>
    match Uri.parse value with
    | .ok u => .ok { e with source := some u }
    | .error _ => .error invalid
  | some .type => .ok { e with type := some value }
  | some .datacontenttype =>
    match ContentType.parse value with
    | .ok c => .ok { e with dataContentType := some c }
    | .error _ => .error invalid
  | some .dataschema =>
    match Uri.parse value with
    | .ok u => .ok { e with dataSchema := some u }
    | .error _ => .error invalid
  | some .subject => .ok { e with subject := some value }
  | some .time =>
    match Instant.read? value with
    | some t => .ok { e with time := some t }
    | none => .error invalid
  -- A version among the attributes is refused like every other reserved name.
  | some .specversion | none => e.setAttribute name value

/-- Sets attributes from members one after the other; each has to be a text. -/
def setMembers (e : Event) : List (String × List Char) → Except Error Event
  | [] => .ok e
  | (name, raw) :: r =>
    match text? raw with
    | none => .error (.invalid (.invalidMember name))
    | some value =>
      match setMember e name value with
      | .ok e => setMembers e r
      | .error err => .error err

/-- The members that are attributes. -/
def attributeMembers (ms : NameMap (List Char)) : NameMap (List Char) :=
  ((ms.erase WellKnown.specversion.name).erase base64Name).erase dataName

/-- The event of a document. -/
def decode (b : Binding) (json : String) : Except Error Event := do
  let ms ← members json.toList
  checkVersion ms
  let data ← readData ms
  let e ← setMembers (.blank b) (attributeMembers ms).entries
  return { e with data }

end CloudEvents.Wire.Structured
