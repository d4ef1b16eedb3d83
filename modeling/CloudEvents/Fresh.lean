/-
  What only the outside can supply: new identifiers and the current time.

  An operation that may have to fill something in is given a supply and uses what it needs of it, so
  every operation is a function.  The identifiers are identifiers by type, hence their texts are never
  empty and a value that was filled in is not taken for a missing one later.
-/
import CloudEvents.Time.Instant
import CloudEvents.Uuid

namespace CloudEvents

/-- The values that one operation may fill in. -/
structure Fresh where
  /-- For an event without an id. -/
  eventId : Uuid
  /-- For an event that has to be correlated and is not. -/
  correlationId : Uuid
  /-- The current time. -/
  now : Instant
  deriving DecidableEq, Repr

instance : Inhabited Fresh := ⟨⟨⟨0⟩, ⟨0⟩, .epoch⟩⟩

/-- The text of an identifier has its hyphens at least. -/
theorem Uuid.toText_ne_empty (u : Uuid) : u.toText ≠ "" := by
  intro h
  have h := congrArg String.toList h
  simp [Uuid.toText, Uuid.write] at h

end CloudEvents
