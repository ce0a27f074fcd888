import FlowService.Json.Written

/-! A record is read from an object by the names of its fields, or from an array by their places. -/

namespace FlowService.Json

/-- The members of a record; the items of an array take the names of the fields in order, and there
may not be more of them than fields. -/
def record? (fields : List String) : Json → Option (List (String × Json))
  | .object members => some members
  | .array items => if items.length ≤ fields.length then some (fields.zip items) else none
  | _ => none

/-- Reads a field that must be there. -/
def required? {α : Type} (read : Json → Option α) (members : List (String × Json))
    (field : String) : Option α :=
  (member? members field).bind read

/-- Reads a field that has a default; a null is no way to leave it out. -/
def defaulted? {α : Type} (default : α) (read : Json → Option α) (members : List (String × Json))
    (field : String) : Option α :=
  match member? members field with
  | none => some default
  | some value => read value

/-- Reads a field that may be left out or be null. -/
def nullable? {α : Type} (read : Json → Option α) (members : List (String × Json))
    (field : String) : Option (Option α) :=
  match member? members field with
  | none => some none
  | some .null => some none
  | some value => (read value).map some

/-- Reads a text. -/
def text? : Json → Option String
  | .string value => some value
  | _ => none

/-- Reads a truth value. -/
def bool? : Json → Option Bool
  | .bool value => some value
  | _ => none

/-- Reads a whole number from zero up to the largest one of 32 bits. -/
def count? : Json → Option UInt32
  | .integer value => if 0 ≤ value ∧ value < UInt32.size then some value.toNat.toUInt32 else none
  | _ => none

/-- Reads an array item by item. -/
def list? {α : Type} (read : Json → Option α) : Json → Option (List α)
  | .array items => items.mapM read
  | _ => none

/-- A number of 32 bits as a value. -/
def ofCount (count : UInt32) : Json := .integer count.toNat

/-- Something that may be missing as a value. -/
def ofOption {α : Type} (write : α → Json) : Option α → Json
  | none => .null
  | some value => write value

/-- A list as a value. -/
def ofList {α : Type} (write : α → Json) (items : List α) : Json := .array (items.map write)

end FlowService.Json
