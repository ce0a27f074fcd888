import FlowService.Json.Double

/-! JSON values tell whole numbers from doubles and keep the members of an object in order. -/

namespace FlowService

/-- A JSON value. -/
inductive Json
  | null
  | bool (value : Bool)
  /-- A number that is written without fraction and exponent and fits in 64 bits. -/
  | integer (value : Int)
  /-- Any other number. -/
  | double (value : Double)
  | string (value : String)
  | array (items : List Json)
  | object (members : List (String × Json))
  deriving Repr, Inhabited

namespace Json

/-- The value of a key among the members of an object. -/
def member? (members : List (String × Json)) (key : String) : Option Json :=
  (members.find? (·.1 == key)).map (·.2)

/-- Sets the value of a key, in place of an earlier value. -/
def setMember (members : List (String × Json)) (key : String) (value : Json) :
    List (String × Json) :=
  if members.any (·.1 == key) then
    members.map fun entry => if entry.1 == key then (key, value) else entry
  else members ++ [(key, value)]

end Json

end FlowService
