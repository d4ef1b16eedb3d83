/-
  The types that data can be read as.

  A type is a description: a single value, a value that may be absent, a list, a map of texts, a record
  with named fields, or anything at all.  A value of any of them is kept as a JSON value, in which a
  record has its fields in the order of their declaration and a map its names in order.

  How values look in JSON and in XML is told by two modules of their own.
-/
import CloudEvents.Json.Value

namespace CloudEvents

/-- A type of single values. -/
inductive ScalarType where
  /-- The whole numbers of a range. -/
  | integer (low high : Int)
  | text
  | boolean
  deriving DecidableEq, Repr

/-- The type of a field, which says what its absence means as well. -/
inductive FieldType where
  /-- A value that has to be there. -/
  | one (type : ScalarType)
  /-- A value that may be absent. -/
  | optional (type : ScalarType)
  /-- A list, empty if it is absent. -/
  | many (type : ScalarType)
  deriving DecidableEq, Repr

/-- A field of a record. -/
structure Field where
  name : String
  type : FieldType
  deriving DecidableEq, Repr

/-- A type of data. -/
inductive DataType where
  | scalar (type : ScalarType)
  | optional (type : ScalarType)
  | list (type : ScalarType)
  /-- Texts under names. -/
  | textMap
  | any
  | record (name : String) (fields : List Field)
  deriving DecidableEq, Repr

/-- The whole numbers of eight bits. -/
def ScalarType.octet : ScalarType := .integer 0 255

/-- The whole numbers of 32 bits without a sign. -/
def ScalarType.unsigned32 : ScalarType := .integer 0 4294967295

/-- The whole numbers of 64 bits. -/
def ScalarType.signed64 : ScalarType := .integer (-9223372036854775808) 9223372036854775807

/-- What a field holds if it is absent, unless it has to be there. -/
def FieldType.absent? : FieldType → Option Json.Value
  | one _ => none
  | optional _ => some .null
  | many _ => some (.array [])

end CloudEvents
