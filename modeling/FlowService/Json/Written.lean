import FlowService.Json.Token

/-!
A JSON text is first read as it is written, to any depth, and only then given a meaning, which has
bounds on depth and on numbers.
-/

namespace FlowService.Json

/-- A JSON text without its spaces; keys may be repeated. -/
inductive Written
  | null
  | bool (value : Bool)
  | number (numeral : Numeral)
  | string (pieces : List Piece)
  | array (items : List Written)
  | object (members : List (List Piece × Written))
  deriving Repr, Inhabited

/-- An array or object that is still open, with what it holds so far, newest first. -/
inductive Frame
  | array (items : List Written)
  | object (members : List (List Piece × Written)) (key : List Piece)
  deriving Repr, Inhabited

/-- What a reader has seen, with the open arrays and objects around it, innermost first. -/
inductive Reading
  /-- A value must come. -/
  | beforeValue (outer : List Frame)
  /-- A value or the end of an empty array must come. -/
  | beforeItem (outer : List Frame)
  /-- A key or the end of an empty object must come. -/
  | beforeMember (outer : List Frame)
  /-- A key must come. -/
  | beforeKey (outer : List Frame) (members : List (List Piece × Written))
  /-- A colon must come. -/
  | beforeColon (outer : List Frame) (members : List (List Piece × Written)) (key : List Piece)
  /-- A value is complete. -/
  | complete (outer : List Frame) (value : Written)
  deriving Repr, Inhabited

namespace Reading

/-- Reads a token where a value must come. -/
def beginValue (outer : List Frame) : Token → Option Reading
  | .null => some (.complete outer .null)
  | .bool value => some (.complete outer (.bool value))
  | .number numeral => some (.complete outer (.number numeral))
  | .string pieces => some (.complete outer (.string pieces))
  | .openArray => some (.beforeItem outer)
  | .openObject => some (.beforeMember outer)
  | _ => none

/-- Reads a token behind a complete value. -/
def endValue (value : Written) : List Frame → Token → Option Reading
  | .array items :: outer, .comma => some (.beforeValue (.array (value :: items) :: outer))
  | .array items :: outer, .closeArray => some (.complete outer (.array (value :: items).reverse))
  | .object members key :: outer, .comma => some (.beforeKey outer ((key, value) :: members))
  | .object members key :: outer, .closeObject =>
    some (.complete outer (.object ((key, value) :: members).reverse))
  | _, _ => none

/-- Reads one token. -/
def step : Reading → Token → Option Reading
  | .beforeValue outer, token => beginValue outer token
  | .beforeItem outer, .closeArray => some (.complete outer (.array []))
  | .beforeItem outer, token => beginValue (.array [] :: outer) token
  | .beforeMember outer, .closeObject => some (.complete outer (.object []))
  | .beforeMember outer, .string key => some (.beforeColon outer [] key)
  | .beforeMember _, _ => none
  | .beforeKey outer members, .string key => some (.beforeColon outer members key)
  | .beforeKey _ _, _ => none
  | .beforeColon outer members key, .colon => some (.beforeValue (.object members key :: outer))
  | .beforeColon _ _ _, _ => none
  | .complete outer value, token => endValue value outer token

/-- The value that a reader has seen, when nothing is left open. -/
def result? : Reading → Option Written
  | .complete [] value => some value
  | _ => none

end Reading

namespace Written

/-- Reads a text that holds one value. -/
def ofText? (text : String) : Option Written := do
  let tokens ← Token.ofText? text
  let reading ← tokens.foldlM Reading.step (.beforeValue [])
  reading.result?

/-- Whether a UTF-16 unit is the first half of a pair. -/
def isHigh (unit : Nat) : Bool := 0xD800 ≤ unit && unit < 0xDC00

/-- Whether a UTF-16 unit is the second half of a pair. -/
def isLow (unit : Nat) : Bool := 0xDC00 ≤ unit && unit < 0xE000

/-- The characters that pieces stand for; half a pair on its own stands for none. -/
def characters? (done : List Char) : List Piece → Option (List Char)
  | [] => some done.reverse
  | .char value :: rest => characters? (value :: done) rest
  | .unit high :: .unit low :: rest =>
    if isHigh high then
      if isLow low then
        characters? (Char.ofNat (0x10000 + (high - 0xD800) * 0x400 + (low - 0xDC00)) :: done) rest
      else none
    else if isLow high then none
    else characters? (Char.ofNat high :: done) (.unit low :: rest)
  | .unit unit :: rest =>
    if isHigh unit || isLow unit then none else characters? (Char.ofNat unit :: done) rest

/-- The text that pieces stand for. -/
def text? (pieces : List Piece) : Option String := (characters? [] pieces).map String.ofList

/-- How many arrays and objects may be open at once. -/
def depthLimit : Nat := 127

mutual

/-- What a written value means when it may still nest so deep. -/
def meaning? : Nat → Written → Option Json
  | _, .null => some .null
  | _, .bool value => some (.bool value)
  | _, .number numeral => numeral.value?
  | _, .string pieces => (text? pieces).map .string
  | 0, .array _ => none
  | depth + 1, .array items => (itemsMeaning? depth items).map .array
  | 0, .object _ => none
  | depth + 1, .object members => (membersMeaning? depth [] members).map .object

/-- What the items of an array mean. -/
def itemsMeaning? : Nat → List Written → Option (List Json)
  | _, [] => some []
  | depth, item :: later => do
    let item ← meaning? depth item
    let later ← itemsMeaning? depth later
    return item :: later

/-- What the members of an object mean; the last value of a key counts. -/
def membersMeaning? :
    Nat → List (String × Json) → List (List Piece × Written) → Option (List (String × Json))
  | _, done, [] => some done
  | depth, done, (key, value) :: later => do
    let key ← text? key
    let value ← meaning? depth value
    membersMeaning? depth (setMember done key value) later

end

end Written

/-- Reads a JSON text. -/
def parse? (text : String) : Option Json := do
  let written ← Written.ofText? text
  written.meaning? Written.depthLimit

end FlowService.Json
