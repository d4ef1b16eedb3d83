/-
  Validation: what every envelope must have.

  Id and time can be filled in; source and type cannot, so they have to be there.  The rules come in two
  forms, for the headers of a message and for an event.  The form for headers changes them step by step
  and stops at the first rule that is broken, with what it has filled in until then.
-/
import CloudEvents.Wire.Binary

namespace CloudEvents.Validation

/-- The version, if it is given, has to be the text of the one there is. -/
def checkVersion (b : Binding) (h : Headers) : Except Error Unit :=
  let name := b.headerName WellKnown.specversion.name
  match h.get? name with
  | none => .ok ()
  | some v =>
    if v.text? = some specVersion then .ok ()
    else .error (.invalid (.wrongVersionHeader name v.display))

/-- The id is filled in. -/
def fillId (b : Binding) (f : Fresh) (h : Headers) : Headers :=
  let name := b.headerName WellKnown.id.name
  if h.contains name then h else h.insert name (.text f.eventId.toText)

/-- The source has to be there, as a text. -/
def checkSource (b : Binding) (h : Headers) : Except Error Unit :=
  let name := b.headerName WellKnown.source.name
  if (h.read? String name).isSome then .ok () else .error (.invalid (.missingHeader name))

/-- The type has to be there, and not empty. -/
def checkType (b : Binding) (h : Headers) : Except Error Unit :=
  let name := b.headerName WellKnown.type.name
  match (h.get? name).map HeaderValue.display with
  | none | some "" => .error (.invalid (.missingHeader name))
  | some _ => .ok ()

/-- A time that cannot be read is replaced by the current one. -/
def fillTime (b : Binding) (f : Fresh) (h : Headers) : Headers :=
  let name := b.headerName WellKnown.time.name
  if (h.read? Instant name).isSome then h else h.insert name (Wire.Binary.timeValue b f.now)

/-- The rules for headers: the headers as they are then, and the verdict. -/
def validateHeaders (b : Binding) (f : Fresh) (h : Headers) : Headers × Except Error Unit :=
  match checkVersion b h with
  | .error err => (h, .error err)
  | .ok () =>
    let h := fillId b f h
    match checkSource b h with
    | .error err => (h, .error err)
    | .ok () =>
      match checkType b h with
      | .error err => (h, .error err)
      | .ok () => (fillTime b f h, .ok ())

/-- The rules for events. -/
def checkEvent (e : Event) : Except Error Unit :=
  if e.source.isNone then .error (.invalid (.missingAttribute WellKnown.source.name))
  else if e.type.getD "" = "" then .error (.invalid (.missingAttribute WellKnown.type.name))
  else .ok ()

/-- An event is complete if it has a source and a type that is not empty. -/
theorem checkEvent_eq_ok_iff {e : Event} :
    checkEvent e = .ok () ↔ (∃ u, e.source = some u) ∧ ∃ ty, e.type = some ty ∧ ty ≠ "" := by
  unfold checkEvent
  cases e.source with
  | none => simp
  | some u => cases e.type <;> simp

end CloudEvents.Validation
