/-
  Sessions: events that are made, read, changed and encoded, one step after the other.

  An operation works on its event in place.  It changes the event as it goes along, and where it fails it
  leaves the event as it is at that point; so an `Edit` hands on the event through a failure as well.  Reading
  the id or the time is an operation like any other, since it fills in what is missing, and so is encoding.

  The events of a session are numbered in the order in which they are made.  A step makes an event, blank,
  from another one or from a message, or does something to an event there is.
-/
import CloudEvents.Registry
import CloudEvents.TypedData.View

namespace CloudEvents

/-- An operation on an event in place. -/
abbrev Edit (τ ν : Type) := ExceptT Error (StateM (TypedEvent τ ν))

namespace Edit

variable {τ ν α : Type}

/-- Reads something of the event. -/
def look (read : Event → α) : Edit τ ν α := do
  return read (← get).event

/-- Changes something other than the data. -/
def change (g : Event → Event) : Edit τ ν Unit := modify fun s => s.update g

/-- Fails unless a rule is kept. -/
def demand : Except Error Unit → Edit τ ν Unit
  | .ok () => pure ()
  | .error err => throw err

/-- Changes something other than the data if that is allowed. -/
def attempt (g : Event → Except Error Event) : Edit τ ν Unit := do
  match g (← get).event with
  | .ok e => change fun _ => e
  | .error err => throw err

/-! ## Id, time and encodings -/

/-- The id, which is filled in if there is none. -/
def id (f : Fresh) : Edit τ ν String := do
  change fun e => e.withId f
  look fun e => e.idOr f

/-- The time, which is filled in if there is none. -/
def time (f : Fresh) : Edit τ ν Instant := do
  change fun e => e.withTime f
  look fun e => e.timeOr f

/-- Something that is written of the event, with id and time filled in. -/
def encode (write : Event → Fresh → α) (f : Fresh) : Edit τ ν α := do
  change fun e => e.stamp f
  look fun e => write e f

/-! ## Extension attributes -/

/-- Sets an extension attribute. -/
def setAttribute (name value : String) : Edit τ ν Unit := attempt fun e => e.setAttribute name value

/-- Removes an extension attribute, and gives the value it had. -/
def removeAttribute (name : String) : Edit τ ν (Option String) := do
  let value ← look fun e => e.attribute? name
  change fun e => e.removeAttribute name
  return value

/-- The correlation id, which is filled in if there is none. -/
def correlationId (f : Fresh) : Edit τ ν String := do
  change fun e => e.correlate f
  look fun e => e.correlationIdOr f

/-- Sets an extension attribute that must not be empty. -/
def setNonEmpty (arg : Argument) (name value : String) : Edit τ ν Unit := do
  demand (if value = "" then .error (.emptyArgument arg) else .ok ())
  setAttribute name value

/-- Sets a place in an order of numbers: first the sort of order, and then the place. -/
def setIntegerSequence (i : Int32) : Edit τ ν Unit := do
  setAttribute sequenceTypeName integerSequence
  setAttribute sequenceName (Text.integerString i.toInt)

/-- The rule of a kind for events. -/
def check (k : Extension) (f : Fresh) : Edit τ ν Unit := do
  match k with
  | .plain => pure ()
  | .correlated =>
    if (← look fun e => e.attribute? correlationIdName) = some "" then
      change fun e => e.removeAttribute correlationIdName
    discard (correlationId f)
  | .partitioned => demand (Extension.checkPresent partitionKeyName (← look Event.partitionKey?))
  | .sequenced => demand (Extension.checkSequence (← look Event.sequence?) (← look Event.sequenceType?))

/-! ## Data -/

/-- The data as a value of a type. -/
def dataAs [DecidableEq τ] (forms : Forms τ ν) (t : τ) : Edit τ ν ν := do
  match (← get).dataAs forms t with
  | .ok (v, s) =>
    set s
    return v
  | .error err => throw err

/-- Like `dataAs`, but whatever goes wrong, there is no value. -/
def tryDataAs [DecidableEq τ] (forms : Forms τ ν) (t : τ) : Edit τ ν (Option ν) := do
  let (v, s) := (← get).tryDataAs forms t
  set s
  return v

/-- Sets the data to the text of a value. -/
def setDataAs (forms : Forms τ ν) (t : τ) (v : ν) : Edit τ ν Unit := do
  match (← get).setDataAs forms t v with
  | .ok s => set s
  | .error err => throw err

end Edit

/-! ## Steps -/

/-- What can be done to an event. -/
inductive Action (τ ν : Type) where
  | readId
  | readTime
  | setId (id : String)
  | setTime (t : Instant)
  | setSource (u : Uri)
  | setType (type : String)
  | setDataContentType (c : Option ContentType)
  | setDataSchema (u : Option Uri)
  | setSubject (subject : Option String)
  | setBinding (b : Binding)
  | readAttribute (name : String)
  | setAttribute (name value : String)
  | removeAttribute (name : String)
  | readCorrelationId
  | setCorrelationId (id : String)
  | readPartitionKey
  | setPartitionKey (key : String)
  | readSequence
  | readSequenceType
  | setSequence (s : String)
  | setSequenceType (s : String)
  | setIntegerSequence (i : Int32)
  | setData (p : Payload)
  | clearData
  | dataAs (t : τ)
  | tryDataAs (t : τ)
  | setDataAs (t : τ) (v : ν)
  /-- The rules for every envelope. -/
  | checkEvent
  /-- The rules of a kind. -/
  | check (k : Extension)
  | encode (c : Config)
  | encodeBinary (b : Binding)
  | encodeStructured (style : Json.Style)

/-- What an operation answers. -/
inductive Answer (ν : Type) where
  | done
  | text (s : String)
  | text? (s : Option String)
  | instant (t : Instant)
  | value (v : ν)
  | value? (v : Option ν)
  | message (m : Outgoing)

variable {τ ν : Type}

/-- An operation that has nothing to answer. -/
def Edit.silent (m : Edit τ ν Unit) : Edit τ ν (Answer ν) := (fun _ => .done) <$> m

/-- What an action does. -/
def Action.edit [DecidableEq τ] (forms : Forms τ ν) (f : Fresh) : Action τ ν → Edit τ ν (Answer ν)
  | readId => .text <$> Edit.id f
  | readTime => .instant <$> Edit.time f
  | setId id => .silent <| Edit.attempt fun e => e.setId id
  | setTime t => .silent <| Edit.change fun e => { e with time := some t }
  | setSource u => .silent <| Edit.change fun e => { e with source := some u }
  | setType type => .silent <| Edit.change fun e => { e with type := some type }
  | setDataContentType c => .silent <| Edit.change fun e => { e with dataContentType := c }
  | setDataSchema u => .silent <| Edit.change fun e => { e with dataSchema := u }
  | setSubject subject => .silent <| Edit.change fun e => { e with subject }
  | setBinding b => .silent <| Edit.change fun e => { e with binding := b }
  | readAttribute name => .text? <$> Edit.look fun e => e.attribute? name
  | setAttribute name value => .silent <| Edit.setAttribute name value
  | removeAttribute name => .text? <$> Edit.removeAttribute name
  | readCorrelationId => .text <$> Edit.correlationId f
  | setCorrelationId id => .silent <| Edit.setNonEmpty .correlationId correlationIdName id
  | readPartitionKey => .text? <$> Edit.look Event.partitionKey?
  | setPartitionKey key => .silent <| Edit.setNonEmpty .partitionKey partitionKeyName key
  | readSequence => .text? <$> Edit.look Event.sequence?
  | readSequenceType => .text? <$> Edit.look Event.sequenceType?
  | setSequence s => .silent <| Edit.setAttribute sequenceName s
  | setSequenceType s => .silent <| Edit.setAttribute sequenceTypeName s
  | setIntegerSequence i => .silent <| Edit.setIntegerSequence i
  | setData p => .silent <| modify fun s => s.setData p
  | clearData => .silent <| modify TypedEvent.clearData
  | dataAs t => .value <$> Edit.dataAs forms t
  | tryDataAs t => .value? <$> Edit.tryDataAs forms t
  | setDataAs t v => .silent <| Edit.setDataAs forms t v
  | checkEvent => .silent do Edit.demand (← Edit.look Validation.checkEvent)
  | check k => .silent <| Edit.check k f
  | encode c => .message <$> Edit.encode (Wire.encode c) f
  | encodeBinary b => .message <$> Edit.encode (Wire.Binary.encode b) f
  | encodeStructured style => .text <$> Edit.encode (Wire.Structured.encode style) f

/-- The events of a session. -/
abbrev Session (τ ν : Type) := List (TypedEvent τ ν)

/-- What an event is made from. -/
inductive Origin where
  | blank (b : Binding)
  /-- Another event as it is. -/
  | clone (i : Nat)
  | deriveFrom (i : Nat)
  /-- Another event, by the rules of a kind. -/
  | deriveKind (tag : String) (i : Nat)
  /-- A message, by its framing. -/
  | message (b : Binding) (m : Message)
  | binaryMessage (b : Binding) (m : Message)
  | document (b : Binding) (json : String)
  /-- A message, by the rules of a kind. -/
  | messageOfKind (tag : String) (b : Binding) (m : Message)

/-- The event that is made, unless it is made from one that is not there. -/
def Origin.event? (f : Fresh) (s : Session τ ν) : Origin → Option (Except Error (TypedEvent τ ν))
  | blank b => some (.ok { event := .blank b })
  | clone i => s[i]?.map .ok
  | deriveFrom i => s[i]?.map fun e => .ok { event := e.event.deriveFrom }
  | deriveKind tag i => s[i]?.map fun e => (Registry.standard.derive tag e.event).map ({ event := · })
  | message b m => some ((Wire.decode b m).map ({ event := · }))
  | binaryMessage b m => some ((Wire.Binary.decode b m).map ({ event := · }))
  | document b json => some ((Wire.Structured.decode b json).map ({ event := · }))
  | messageOfKind tag b m => some ((Registry.standard.decode tag b f m).map ({ event := · }))

/-- A step of a session. -/
inductive Command (τ ν : Type) where
  | make (o : Origin)
  | act (i : Nat) (a : Action τ ν)

namespace Session

/-- Does a step.  A step that names an event that is not there does nothing and has no answer. -/
def step [DecidableEq τ] (forms : Forms τ ν) (s : Session τ ν) (c : Command τ ν) (f : Fresh) :
    Session τ ν × Option (Except Error (Answer ν)) :=
  match c with
  | .make o =>
    match o.event? f s with
    | none => (s, none)
    | some (.ok e) => (s ++ [e], some (.ok .done))
    | some (.error err) => (s, some (.error err))
  | .act i a =>
    match s[i]? with
    | none => (s, none)
    | some e =>
      let (answer, e) := (a.edit forms f).run e
      (s.set i e, some answer)

/-- Does one step after the other, each with a supply of its own. -/
def run [DecidableEq τ] (forms : Forms τ ν) (s : Session τ ν) (cs : List (Command τ ν × Fresh)) :
    Session τ ν :=
  cs.foldl (fun s c => (step forms s c.1 c.2).1) s

end Session

end CloudEvents
