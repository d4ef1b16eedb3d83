/-
  Extensions: kinds of envelopes with rules of their own.

  A correlated event carries the id of what it belongs to, a partitioned one the key of its partition,
  a sequenced one its place in an order.  Each has a rule for the headers of a message and one for an
  event, which run after the rules for every envelope, and says what an event that is derived from
  another one takes over.  A correlation id that is missing is filled in; key and sequence have to be
  there.
-/
import CloudEvents.Event
import CloudEvents.Header

namespace CloudEvents

/-! ## The attributes -/

/-- The attribute that ties related events together. -/
def correlationIdName : String := "correlationid"

/-- The attribute that holds the place of an event in an order. -/
def sequenceName : String := "sequence"

/-- The attribute that says what sort of order that is. -/
def sequenceTypeName : String := "sequencetype"

/-- The sort of sequences that are 32-bit numbers. -/
def integerSequence : String := "Integer"

namespace Event

/-- The event with its correlation id filled in. -/
def correlate (e : Event) (f : Fresh) : Event :=
  match e.attribute? correlationIdName with
  | some _ => e
  | none => e.putAttribute correlationIdName f.correlationId.toText

/-- The correlation id, or the one to be filled in. -/
def correlationIdOr (e : Event) (f : Fresh) : String :=
  (e.attribute? correlationIdName).getD f.correlationId.toText

/-- Sets the correlation id, which must not be empty. -/
def setCorrelationId (e : Event) (id : String) : Except Error Event :=
  if id = "" then .error (.emptyArgument .correlationId) else e.setAttribute correlationIdName id

/-- The partition key. -/
def partitionKey? (e : Event) : Option String := e.attribute? partitionKeyName

/-- Sets the partition key, which must not be empty. -/
def setPartitionKey (e : Event) (key : String) : Except Error Event :=
  if key = "" then .error (.emptyArgument .partitionKey) else e.setAttribute partitionKeyName key

/-- The place in an order. -/
def sequence? (e : Event) : Option String := e.attribute? sequenceName

/-- Sets the place in an order. -/
def setSequence (e : Event) (s : String) : Except Error Event := e.setAttribute sequenceName s

/-- The sort of order. -/
def sequenceType? (e : Event) : Option String := e.attribute? sequenceTypeName

/-- Sets the sort of order. -/
def setSequenceType (e : Event) (s : String) : Except Error Event := e.setAttribute sequenceTypeName s

/-- Sets a place in an order of numbers. -/
def setIntegerSequence (e : Event) (i : Int32) : Except Error Event := do
  (← e.setSequenceType integerSequence).setSequence (Text.integerString i.toInt)

end Event

/-! ## The rules -/

/-- A kind of envelope. -/
inductive Extension where
  /-- No rules beyond those for every envelope. -/
  | plain
  | correlated
  | partitioned
  | sequenced
  deriving DecidableEq, Repr

namespace Extension

/-- All of them. -/
def all : List Extension := [plain, correlated, partitioned, sequenced]

/-- The tag under which a kind is known. -/
def tag : Extension → String
  | plain => "cloudevent"
  | correlated => "correlated"
  | partitioned => "partitioned"
  | sequenced => "sequenced"

/-- The kind of a tag. -/
def ofTag? (tag : String) : Option Extension := all.find? fun k => k.tag == tag

/-- The header of an extension attribute: the one of its own name, or the one it was moved to. -/
def header? (b : Binding) (h : Headers) (attr : String) : Option HeaderValue :=
  match h.get? attr with
  | some v => some v
  | none => (b.headerAlias? attr).bind h.get?

/-- The text of an extension attribute's header. -/
def headerText? (b : Binding) (h : Headers) (attr : String) : Option String :=
  (header? b h attr).map HeaderValue.display

/-- An attribute that has to be there, and not empty. -/
def checkPresent (name : String) : Option String → Except Error Unit
  | none | some "" => .error (.invalid (.missingAttribute name))
  | some _ => .ok ()

/-- A sequence has to be there, and a sequence of numbers has to be one. -/
def checkSequence (sequence sequenceType : Option String) : Except Error Unit :=
  match sequence with
  | none | some "" => .error (.invalid (.missingAttribute sequenceName))
  | some s =>
    if sequenceType = some integerSequence ∧ (Text.int32? s.toList).isNone then
      .error (.invalid (.notInt32Sequence s))
    else .ok ()

/-- Whether the headers hold a correlation id. -/
def isCorrelated (b : Binding) (h : Headers) : Bool := (headerText? b h correlationIdName).getD "" ≠ ""

/-- The rule for headers: the headers as they are then, and the verdict. -/
def validate (k : Extension) (b : Binding) (f : Fresh) (h : Headers) : Headers × Except Error Unit :=
  match k with
  | plain => (h, .ok ())
  | correlated =>
    (if isCorrelated b h then h else h.insert correlationIdName (.text f.correlationId.toText), .ok ())
  | partitioned => (h, checkPresent partitionKeyName (headerText? b h partitionKeyName))
  | sequenced => (h, checkSequence (headerText? b h sequenceName) (headerText? b h sequenceTypeName))

/-- The rule for events: the event with what was filled in, or what is wrong with it. -/
def check (k : Extension) (f : Fresh) (e : Event) : Except Error Event :=
  match k with
  | plain => .ok e
  | correlated =>
    let e := if e.attribute? correlationIdName = some "" then e.removeAttribute correlationIdName else e
    .ok (e.correlate f)
  | partitioned => (checkPresent partitionKeyName e.partitionKey?).map fun _ => e
  | sequenced => (checkSequence e.sequence? e.sequenceType?).map fun _ => e

/-- The place that follows: the next number, after the greatest the least.  Only numbers have one. -/
def nextSequence? (sequence sequenceType : Option String) : Option String :=
  if sequenceType = some integerSequence then
    (sequence.bind fun s => Text.int32? s.toList).map fun i => Text.integerString (i + 1).toInt
  else none

/-- A new event that is derived from another one. -/
def derive (k : Extension) (source : Event) : Event :=
  let e := source.deriveFrom
  match k with
  | plain | correlated | partitioned => e
  | sequenced =>
    match nextSequence? source.sequence? source.sequenceType? with
    | some next => e.putAttribute sequenceName next
    | none => e.removeAttribute sequenceName

end Extension

end CloudEvents
