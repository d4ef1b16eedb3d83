/-
  Events: context attributes, extension attributes and data, whatever carries them.

  The well-known attributes have slots; extension attributes are texts under names that are neither
  empty nor reserved.  An event without id or time is complete all the same: whoever needs one of them
  fills it in from a supply, and `stamp` is the event after that.  A filled slot is never filled again
  (`stamp_stamp`).
-/
import CloudEvents.Binding
import CloudEvents.Payload
import CloudEvents.Fresh
import CloudEvents.NameMap
import CloudEvents.Uri
import CloudEvents.ContentType

namespace CloudEvents

/-- An event. -/
structure Event where
  id : Option String := none
  source : Option Uri := none
  type : Option String := none
  dataContentType : Option ContentType := none
  dataSchema : Option Uri := none
  subject : Option String := none
  time : Option Instant := none
  /-- The extension attributes. -/
  attributes : NameMap String := .empty
  data : Option Payload := none
  binding : Binding
  deriving DecidableEq

namespace Event

/-- The event in which nothing is set. -/
def blank (b : Binding) : Event := { binding := b }

/-- A new event with the attributes of another one, its id and time to be filled in, and no data. -/
def deriveFrom (e : Event) : Event := { e with id := none, time := none, data := none }

/-! ## Id and time -/

/-- The id, or the one to be filled in. -/
def idOr (e : Event) (f : Fresh) : String := e.id.getD f.eventId.toText

/-- The time, or the one to be filled in. -/
def timeOr (e : Event) (f : Fresh) : Instant := e.time.getD f.now

/-- The event with its id filled in. -/
def withId (e : Event) (f : Fresh) : Event := { e with id := some (e.idOr f) }

/-- The event with its time filled in. -/
def withTime (e : Event) (f : Fresh) : Event := { e with time := some (e.timeOr f) }

/-- The event with id and time filled in, as every encoding leaves it. -/
def stamp (e : Event) (f : Fresh) : Event := (e.withId f).withTime f

/-- Gives the event an id, which must not be empty. -/
def setId (e : Event) (id : String) : Except Error Event :=
  if id = "" then .error (.emptyArgument .id) else .ok { e with id := some id }

/-! ## Extension attributes -/

/-- An extension attribute. -/
def attribute? (e : Event) (name : String) : Option String := e.attributes.get? name

/-- Sets an extension attribute whose name is known to be allowed. -/
def putAttribute (e : Event) (name value : String) : Event :=
  { e with attributes := e.attributes.insert name value }

/-- Removes an extension attribute. -/
def removeAttribute (e : Event) (name : String) : Event :=
  { e with attributes := e.attributes.erase name }

/-- Sets an extension attribute. -/
def setAttribute (e : Event) (name value : String) : Except Error Event :=
  if name = "" then .error (.emptyArgument .attributeName)
  else if isReserved name then .error (.invalid (.reservedName name))
  else .ok (e.putAttribute name value)

/-! ## Laws -/

theorem stamp_id (e : Event) (f : Fresh) : (e.stamp f).id = some (e.idOr f) := rfl

theorem stamp_time (e : Event) (f : Fresh) : (e.stamp f).time = some (e.timeOr f) := rfl

/-- The id of a stamped event is not filled in again.  Not by `rfl`, which would compare the texts of the two fresh
identifiers digit by digit. -/
theorem idOr_stamp (e : Event) (f g : Fresh) : (e.stamp f).idOr g = e.idOr f := by
  rw [idOr, stamp_id, Option.getD_some]

/-- Neither is its time. -/
theorem timeOr_stamp (e : Event) (f g : Fresh) : (e.stamp f).timeOr g = e.timeOr f := by
  rw [timeOr, stamp_time, Option.getD_some]

/-- A stamped event keeps its id and time, whatever the next supply holds. -/
theorem stamp_stamp (e : Event) (f g : Fresh) : (e.stamp f).stamp g = e.stamp f := by
  have hid : (e.stamp f).withId g = e.stamp f := by
    rw [withId, idOr_stamp]
    rfl
  have htime : (e.stamp f).withTime g = e.stamp f := by
    rw [withTime, timeOr_stamp]
    rfl
  rw [stamp, hid, htime]

/-- An attribute can be set exactly under a name that is not empty and not reserved. -/
theorem setAttribute_eq_ok_iff {e e' : Event} {name value : String} :
    e.setAttribute name value = .ok e' ↔
      name ≠ "" ∧ isReserved name = false ∧ e' = e.putAttribute name value := by
  unfold setAttribute
  by_cases h : name = ""
  · simp [h]
  · by_cases hr : isReserved name = true
    · simp [h, hr]
    · simp [h, hr, eq_comm]

end Event

end CloudEvents
