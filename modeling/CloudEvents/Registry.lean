/-
  The registry of kinds.

  A kind is a tag and what to do with messages and events of that kind.  The kinds with extension rules
  are there from the start; an application may add its own.  A tag is registered once: the first kind
  under a tag stays, and registering another one changes nothing.
-/
import CloudEvents.Extension
import CloudEvents.Validation
import CloudEvents.Wire.Codec

namespace CloudEvents

/-- A kind of envelope, under a tag. -/
structure Kind where
  tag : String
  decode : Binding → Fresh → Message → Except Error Event
  validate : Binding → Fresh → Headers → Headers × Except Error Unit
  derive : Event → Event

namespace Extension

/-- Decodes a message and applies the rules for events. -/
def decode (k : Extension) (b : Binding) (f : Fresh) (m : Message) : Except Error Event := do
  let e ← Wire.decode b m
  Validation.checkEvent e
  k.check f e

/-- Applies the rules for headers. -/
def validateAll (k : Extension) (b : Binding) (f : Fresh) (h : Headers) : Headers × Except Error Unit :=
  match Validation.validateHeaders b f h with
  | (h, .error err) => (h, .error err)
  | (h, .ok ()) => k.validate b f h

/-- The kind with the rules of an extension. -/
def kind (k : Extension) : Kind := ⟨k.tag, k.decode, k.validateAll, k.derive⟩

end Extension

/-- The kinds that are known, by their tags. -/
abbrev Registry := NameMap Kind

namespace Registry

/-- Adds a kind, and says whether its tag was free. -/
def register (r : Registry) (k : Kind) : Registry × Bool :=
  if r.contains k.tag then (r, false) else (r.insert k.tag k, true)

/-- The registry with the kinds of the extensions. -/
def standard : Registry := Extension.all.foldl (fun r k => (r.register k.kind).1) .empty

/-- The kind of a tag. -/
def find (r : Registry) (tag : String) : Except Error Kind :=
  match r.get? tag with
  | some k => .ok k
  | none => .error (.unknownKind tag)

/-- The tags that are known, in order. -/
def tags (r : Registry) : List String := r.names

/-- Decodes a message as an envelope of a kind. -/
def decode (r : Registry) (tag : String) (b : Binding) (f : Fresh) (m : Message) :
    Except Error Event := do
  (← r.find tag).decode b f m

/-- Applies the rules of a kind to headers. -/
def validate (r : Registry) (tag : String) (b : Binding) (f : Fresh) (h : Headers) :
    Headers × Except Error Unit :=
  match r.find tag with
  | .error err => (h, .error err)
  | .ok k => k.validate b f h

/-- Derives a new event by the rules of a kind. -/
def derive (r : Registry) (tag : String) (e : Event) : Except Error Event :=
  (r.find tag).map fun k => k.derive e

end Registry

end CloudEvents
