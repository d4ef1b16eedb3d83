/-
  Bindings: how attributes are named in the headers of a transport.

  A binding either puts a fixed text in front of every attribute name or uses the names as they are.
  Under the first kind a header is an attribute of the envelope exactly if it begins with that text;
  under the second, if its name is well known.  Either way `attributeName_headerName` holds for the
  attributes that have a slot, and under a binding with a text in front for every name at all.

  One transport has no header for the partition key: there it travels as the key of the record, which
  `headerAlias?` names.
-/
import CloudEvents.Error
import CloudEvents.Text.Ascii
import CloudEvents.Text.Blank
import CloudEvents.Json.Choice

namespace CloudEvents

/-- The naming scheme of a transport. -/
inductive Binding where
  | default
  | amqp
  | http
  | kafka
  | mqtt
  deriving DecidableEq, Repr, Inhabited

/-- The attribute that says which events belong together on one partition. -/
def partitionKeyName : String := "partitionkey"

namespace Binding

/-- All of them. -/
def all : List Binding := [default, amqp, http, kafka, mqtt]

theorem mem_all (b : Binding) : b ∈ all := by
  cases b <;> decide

/-- The name of a binding. -/
def name : Binding → String
  | default => "default"
  | amqp => "amqp"
  | http => "http"
  | kafka => "kafka"
  | mqtt => "mqtt"

/-- A transport is told by its name. -/
theorem name_injective {a b : Binding} (h : a.name = b.name) : a = b := by
  cases a <;> cases b <;> first | rfl | (exact absurd h (by decide))

/-! ## Names of headers -/

/-- What stands in front of an attribute's name in a header, for the bindings that put something
there. -/
def lead? : Binding → Option String
  | default | mqtt => none
  | amqp => some "cloudEvents:"
  | http | kafka => some "ce_"

/-- The header that carries an attribute. -/
def headerName (b : Binding) (attr : String) : String :=
  match b.lead? with
  | none => attr
  | some lead => lead ++ attr

/-- The attribute that a header carries, and whether it is an attribute of the envelope at all. -/
def attributeName (b : Binding) (header : String) : String × Bool :=
  match b.lead? with
  | none => (header, isWellKnown header)
  | some lead =>
    match lead.toList.isPrefixOf? header.toList with
    | some rest => (String.ofList rest, true)
    | none => (header, false)

/-- Whether headers of the transport can hold instants; elsewhere they travel as texts. -/
def hasTimeHeaders : Binding → Bool
  | amqp => true
  | default | http | kafka | mqtt => false

/-- Whether messages are rewritten between codec and transport. -/
def rewrites : Binding → Bool
  | kafka => true
  | default | amqp | http | mqtt => false

/-- The key of a record, which is no header of its own. -/
def recordKey : String := "Kafka.Key"

/-- The other name under which an extension attribute may travel. -/
def headerAlias? (b : Binding) (attr : String) : Option String :=
  if b.rewrites ∧ attr = partitionKeyName then some recordKey else none

/-! ## Reading a binding -/

/-- The binding of a name; the case of letters and blanks around it do not count. -/
def parse (s : String) : Except Error Binding :=
  match all.find? fun b => Text.sameIgnoringCase b.name.toList (Text.trim s.toList) with
  | some b => .ok b
  | none => .error (.unknownBinding s)

/-- The binding that a JSON text chooses, in small letters. -/
def ofJson (s : String) : Except Error Binding :=
  match (Json.choice? s.toList).bind fun word => all.find? fun b => b.name == word with
  | some b => .ok b
  | none => .error .json

/-! ## Laws -/

/-- Two attributes never meet in one header: a binding only puts something in front. -/
theorem headerName_injective (b : Binding) {x y : String} (h : b.headerName x = b.headerName y) :
    x = y := by
  unfold headerName at h
  split at h
  · exact h
  · rename_i lead _
    have h := congrArg String.toList h
    simp only [String.toList_append, List.append_cancel_left_eq] at h
    exact String.toList_inj.1 h

theorem isPrefixOf?_append (p s : List Char) : p.isPrefixOf? (p ++ s) = some s := by
  induction p with
  | nil => cases s <;> rfl
  | cons c p ih =>
    show (if c == c then p.isPrefixOf? (p ++ s) else none) = some s
    rw [if_pos (beq_self_eq_true c), ih]

/-- **A header names the attribute it was made for**, for the attributes that have a slot. -/
theorem attributeName_headerName (b : Binding) (w : WellKnown) :
    b.attributeName (b.headerName w.name) = (w.name, true) := by
  unfold attributeName headerName
  split
  · simp only [isWellKnown_iff.2 ⟨w, rfl⟩]
  · simp [String.toList_append, isPrefixOf?_append]

/-- Under a binding that puts something in front, this holds of every name. -/
theorem attributeName_headerName_of_lead (b : Binding) {lead : String} (h : b.lead? = some lead)
    (n : String) : b.attributeName (b.headerName n) = (n, true) := by
  simp [attributeName, headerName, h, String.toList_append, isPrefixOf?_append]

end Binding

end CloudEvents
