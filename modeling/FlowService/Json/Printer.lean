import FlowService.Json.Basic

/-! A value is printed over several lines, two spaces deeper for each array or object around it. -/

namespace FlowService.Json

/-- The text of a character within a string. -/
def escapeChar (char : Char) : String :=
  if char = '"' then "\\\""
  else if char = '\\' then "\\\\"
  else if char = '\x08' then "\\b"
  else if char = '\t' then "\\t"
  else if char = '\n' then "\\n"
  else if char = '\x0c' then "\\f"
  else if char = '\r' then "\\r"
  else if char < ' ' then
    "\\u00" ++ String.ofList [Nat.digitChar (char.toNat / 16), Nat.digitChar (char.toNat % 16)]
  else char.toString

/-- The text of a string with its quotes. -/
def quoted (text : String) : String :=
  "\"" ++ String.join (text.toList.map escapeChar) ++ "\""

/-- The text of a double, with all its decimal places. -/
def doubleText (value : Double) : String :=
  let sign := if value.negative then "-" else ""
  if 0 ≤ value.exponent then
    sign ++ toString (value.significand * Double.power value.exponent.toNat) ++ ".0"
  else
    -- Each division by two becomes one decimal place.
    let places := (-value.exponent).toNat
    let scaled := value.significand * Nat.pow 5 places
    let digits := toString (scaled % Nat.pow 10 places)
    sign ++ toString (scaled / Nat.pow 10 places) ++ "." ++
      String.ofList (List.replicate (places - digits.length) '0') ++ digits

/-- The start of a line so deep inside. -/
def lineStart (depth : Nat) : String := "\n" ++ String.ofList (List.replicate (2 * depth) ' ')

mutual

/-- The text of a value that stands so deep inside. -/
def prettyAt (depth : Nat) : Json → String
  | .null => "null"
  | .bool true => "true"
  | .bool false => "false"
  | .integer value => toString value
  | .double value => doubleText value
  | .string value => quoted value
  | .array [] => "[]"
  | .array (first :: later) =>
    "[" ++ lineStart (depth + 1) ++ prettyAt (depth + 1) first ++
      prettyItems (depth + 1) later ++ lineStart depth ++ "]"
  | .object [] => "\x7b\x7d"
  | .object ((key, value) :: later) =>
    "\x7b" ++ lineStart (depth + 1) ++ quoted key ++ ": " ++ prettyAt (depth + 1) value ++
      prettyMembers (depth + 1) later ++ lineStart depth ++ "\x7d"

/-- The text of the later items of an array. -/
def prettyItems (depth : Nat) : List Json → String
  | [] => ""
  | item :: later => "," ++ lineStart depth ++ prettyAt depth item ++ prettyItems depth later

/-- The text of the later members of an object. -/
def prettyMembers (depth : Nat) : List (String × Json) → String
  | [] => ""
  | (key, value) :: later =>
    "," ++ lineStart depth ++ quoted key ++ ": " ++ prettyAt depth value ++
      prettyMembers depth later

end

/-- The text of a value. -/
def pretty (value : Json) : String := prettyAt 0 value

end FlowService.Json
