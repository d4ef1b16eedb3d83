/-
  Binary mode: attributes as headers, data as the payload.

  Writing puts a header for every slot that has a value, under the name the binding gives it, and then
  the extension attributes under their own names.  An extension attribute never replaces a header that
  stands already.  Reading takes the headers of the slots, and every other header becomes an extension
  attribute, unless its own name is reserved.

  Headers are read by what they hold: `id`, `type` and `subject` take any value by its text, the other
  slots need a value that reads as their type.
-/
import CloudEvents.Event
import CloudEvents.Message

namespace CloudEvents.Wire.Binary

/-! ## Writing -/

/-- An instant as a header: as it is where the transport has such headers, as a text elsewhere. -/
def timeValue (b : Binding) (t : Instant) : HeaderValue :=
  if b.hasTimeHeaders then .time t else .text t.wireText

/-- What a slot holds on the wire, if anything. -/
def slotValue? (b : Binding) (e : Event) (f : Fresh) : WellKnown → Option HeaderValue
  | .id => some (.text (e.idOr f))
  | .source => e.source.map fun u => .text u.text
  | .specversion => some (.text specVersion)
  | .type => e.type.map .text
  | .datacontenttype => e.dataContentType.map fun c => .text c.text
  | .dataschema => e.dataSchema.map fun u => .text u.text
  | .subject => e.subject.map .text
  | .time => some (timeValue b (e.timeOr f))

/-- The headers of the slots. -/
def slotHeaders (b : Binding) (e : Event) (f : Fresh) : Headers :=
  .ofList <| WellKnown.all.filterMap fun w => (slotValue? b e f w).map (b.headerName w.name, ·)

/-- Adds an extension attribute, unless a header of its name is there. -/
def addExtension (h : Headers) (attr : String × String) : Headers :=
  if h.contains attr.1 then h else h.insert attr.1 (.text attr.2)

/-- The headers of an event. -/
def headers (b : Binding) (e : Event) (f : Fresh) : Headers :=
  e.attributes.entries.foldl addExtension (slotHeaders b e f)

/-- The message of an event.  An event without data has an empty text as its payload. -/
def encode (b : Binding) (e : Event) (f : Fresh) : Outgoing :=
  { payload := e.data.getD .empty, headers := headers b e f }

/-! ## Reading -/

/-- The header of a slot. -/
def slotHeader? (b : Binding) (h : Headers) (w : WellKnown) : Option HeaderValue :=
  h.get? (b.headerName w.name)

/-- The text of a slot's header, whatever it holds. -/
def slotText? (b : Binding) (h : Headers) (w : WellKnown) : Option String :=
  (slotHeader? b h w).map HeaderValue.display

/-- The value of a slot's header, which has to read as a type if it is there. -/
def slot (b : Binding) (h : Headers) (α : Type) [HeaderValue.Readable α] (w : WellKnown) :
    Except Error (Option α) :=
  match slotHeader? b h w with
  | none => .ok none
  | some v =>
    match v.read? α with
    | some a => .ok (some a)
    | none => .error (.invalid (.invalidHeader (b.headerName w.name) v.display))

/-- The version has to be the one there is, if it is given. -/
def checkVersion (b : Binding) (h : Headers) : Except Error Unit :=
  match slotText? b h .specversion with
  | none => .ok ()
  | some v => if v = specVersion then .ok () else .error (.invalid (.unsupportedVersion v))

/-- The id, which must not be empty if it is given. -/
def readId (b : Binding) (h : Headers) : Except Error (Option String) :=
  match slotText? b h .id with
  | some "" => .error (.invalid .emptyIdHeader)
  | id => .ok id

/-- Whether a header becomes an extension attribute. -/
def isExtension (b : Binding) (name : String) : Bool :=
  let (attr, isOurs) := b.attributeName name
  !(isOurs && isWellKnown attr) && !isReserved name

/-- Sets extension attributes one after the other. -/
def setAttributes (e : Event) : List (String × String) → Except Error Event
  | [] => .ok e
  | (name, value) :: r =>
    match e.setAttribute name value with
    | .ok e => setAttributes e r
    | .error err => .error err

/-- The extension attributes of a header map. -/
def extensions (b : Binding) (h : Headers) : List (String × String) :=
  (h.entries.filter fun x => isExtension b x.1).map fun x => (x.1, x.2.display)

/-- The event of a message. -/
def decode (b : Binding) (m : Message) : Except Error Event := do
  let h := m.headers
  checkVersion b h
  let id ← readId b h
  let source ← slot b h Uri .source
  let dataContentType ← slot b h ContentType .datacontenttype
  let dataSchema ← slot b h Uri .dataschema
  let time ← slot b h Instant .time
  let e ← setAttributes
    { Event.blank b with
      id, source, dataContentType, dataSchema, time
      type := slotText? b h .type
      subject := slotText? b h .subject }
    (extensions b h)
  -- A message has a payload always, so a decoded event has data always.
  return { e with data := some m.payload }

end CloudEvents.Wire.Binary
