/-
  The names of context attributes.

  Eight names are well known: the envelope has a slot for each of them.  Two more are reserved,
  because a document uses them for its data.  Every other non-empty name can be an extension
  attribute.
-/

namespace CloudEvents

/-- The version of the format, the only one there is. -/
def specVersion : String := "1.0"

/-- A context attribute with a slot of its own. -/
inductive WellKnown where
  | id
  | source
  | specversion
  | type
  | datacontenttype
  | dataschema
  | subject
  | time
  deriving DecidableEq, Repr

namespace WellKnown

/-- The name of an attribute. -/
def name : WellKnown → String
  | id => "id"
  | source => "source"
  | specversion => "specversion"
  | type => "type"
  | datacontenttype => "datacontenttype"
  | dataschema => "dataschema"
  | subject => "subject"
  | time => "time"

/-- All of them, in the order in which headers are written. -/
def all : List WellKnown := [id, source, specversion, type, datacontenttype, dataschema, subject, time]

theorem mem_all (w : WellKnown) : w ∈ all := by
  cases w <;> decide

/-- No two slots have the same name. -/
theorem name_injective {v w : WellKnown} (h : v.name = w.name) : v = w := by
  cases v <;> cases w <;> first | rfl | (exact absurd h (by decide))

end WellKnown

/-- The member of a document that holds text data. -/
def dataName : String := "data"

/-- The member of a document that holds binary data. -/
def base64Name : String := "data_base64"

/-- Whether a name is the name of a slot. -/
def isWellKnown (name : String) : Bool := WellKnown.all.any fun w => w.name == name

/-- Whether a name cannot be an extension attribute. -/
def isReserved (name : String) : Bool := isWellKnown name || name == dataName || name == base64Name

/-- The names that are well known are those of the slots. -/
theorem isWellKnown_iff {n : String} : isWellKnown n = true ↔ ∃ w : WellKnown, w.name = n := by
  simp only [isWellKnown, List.any_eq_true, beq_iff_eq]
  exact ⟨fun ⟨w, _, h⟩ => ⟨w, h⟩, fun ⟨w, h⟩ => ⟨w, w.mem_all, h⟩⟩

/-- The name of a slot is not free for anything else. -/
theorem isReserved_name (w : WellKnown) : isReserved w.name = true := by
  cases w <;> decide

end CloudEvents
