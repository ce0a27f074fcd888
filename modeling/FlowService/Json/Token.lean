import FlowService.Json.Numeral

/-! A JSON text is cut into tokens, in which numbers and strings are kept as they are written. -/

namespace FlowService.Json

/-- A piece of a string: a character, or a UTF-16 unit written with four digits. -/
inductive Piece
  | char (value : Char)
  | unit (value : Nat)
  deriving DecidableEq, Repr, Inhabited

/-- A token of JSON. -/
inductive Token
  | openArray
  | closeArray
  | openObject
  | closeObject
  | comma
  | colon
  | null
  | bool (value : Bool)
  | number (numeral : Numeral)
  | string (pieces : List Piece)
  deriving DecidableEq, Repr, Inhabited

namespace Token

/-- Whether a character may stand between tokens. -/
def isSpace (char : Char) : Bool := char == ' ' || char == '\t' || char == '\n' || char == '\r'

/-- The value of a decimal digit. -/
def digit? (char : Char) : Option Nat :=
  if '0' ≤ char ∧ char ≤ '9' then some (char.toNat - '0'.toNat) else none

/-- The value of a hexadecimal digit in either case. -/
def hexDigit? (char : Char) : Option Nat :=
  if 'a' ≤ char ∧ char ≤ 'f' then some (char.toNat - 'a'.toNat + 10)
  else if 'A' ≤ char ∧ char ≤ 'F' then some (char.toNat - 'A'.toNat + 10)
  else digit? char

/-- The number that four hexadecimal digits spell. -/
def unit? (first second third fourth : Char) : Option Nat := do
  let first ← hexDigit? first
  let second ← hexDigit? second
  let third ← hexDigit? third
  let fourth ← hexDigit? fourth
  return ((first * 16 + second) * 16 + third) * 16 + fourth

/-- What a backslash and one more character stand for. -/
def escape? : Char → Option Char
  | '"' => some '"'
  | '\\' => some '\\'
  | '/' => some '/'
  | 'b' => some '\x08'
  | 'f' => some '\x0c'
  | 'n' => some '\n'
  | 'r' => some '\r'
  | 't' => some '\t'
  | _ => none

/-- Reads a string behind its opening quote. -/
def readString (pieces : List Piece) : List Char → Option (List Piece × List Char)
  | [] => none
  | '"' :: rest => some (pieces.reverse, rest)
  | '\\' :: 'u' :: first :: second :: third :: fourth :: rest =>
    match unit? first second third fourth with
    | some unit => readString (.unit unit :: pieces) rest
    | none => none
  | '\\' :: char :: rest =>
    match escape? char with
    | some escaped => readString (.char escaped :: pieces) rest
    | none => none
  | char :: rest => if char < ' ' then none else readString (.char char :: pieces) rest

/-- Reads at least one digit. -/
def readSomeDigits? (text : List Char) : Option (List Nat × List Char) :=
  let digits := text.takeWhile Char.isDigit
  if digits.isEmpty then none
  else some (digits.map fun digit => digit.toNat - '0'.toNat, text.drop digits.length)

/-- Reads the fraction of a number, if there is one. -/
def readFraction? : List Char → Option (Option (List Nat) × List Char)
  | '.' :: rest => (readSomeDigits? rest).map fun read => (some read.1, read.2)
  | rest => some (none, rest)

/-- Reads an exponent behind its letter. -/
def readExponentDigits? : List Char → Option ((Bool × List Nat) × List Char)
  | '-' :: rest => (readSomeDigits? rest).map fun read => ((true, read.1), read.2)
  | '+' :: rest => (readSomeDigits? rest).map fun read => ((false, read.1), read.2)
  | rest => (readSomeDigits? rest).map fun read => ((false, read.1), read.2)

/-- Reads the exponent of a number, if there is one. -/
def readExponent? : List Char → Option (Option (Bool × List Nat) × List Char)
  | 'e' :: rest => (readExponentDigits? rest).map fun read => (some read.1, read.2)
  | 'E' :: rest => (readExponentDigits? rest).map fun read => (some read.1, read.2)
  | rest => some (none, rest)

/-- Reads a number behind its sign. -/
def readNumeral? (negative : Bool) (text : List Char) : Option (Numeral × List Char) := do
  let (whole, rest) ← readSomeDigits? text
  -- A zero in front stands alone.
  if whole.head? = some 0 ∧ 1 < whole.length then none
  else
    let (fraction, rest) ← readFraction? rest
    let (exponent, rest) ← readExponent? rest
    return (⟨negative, whole, fraction, exponent⟩, rest)

/-- Reads the token at the front of a text, which does not begin with a space. -/
def read? : List Char → Option (Token × List Char)
  | '[' :: rest => some (.openArray, rest)
  | ']' :: rest => some (.closeArray, rest)
  | '\x7b' :: rest => some (.openObject, rest)
  | '\x7d' :: rest => some (.closeObject, rest)
  | ',' :: rest => some (.comma, rest)
  | ':' :: rest => some (.colon, rest)
  | 'n' :: 'u' :: 'l' :: 'l' :: rest => some (.null, rest)
  | 't' :: 'r' :: 'u' :: 'e' :: rest => some (.bool true, rest)
  | 'f' :: 'a' :: 'l' :: 's' :: 'e' :: rest => some (.bool false, rest)
  | '"' :: rest => (readString [] rest).map fun read => (.string read.1, read.2)
  | '-' :: rest => (readNumeral? true rest).map fun read => (.number read.1, read.2)
  | text => (readNumeral? false text).map fun read => (.number read.1, read.2)

/-- A string is taken off the text. -/
theorem length_le_of_readString {pieces : List Piece} {text : List Char}
    {read : List Piece × List Char} (taken : readString pieces text = some read) :
    read.2.length ≤ text.length := by
  -- Every case drops characters and leaves the others to the rest of the reading.
  fun_induction readString pieces text with
  | case1 => simp at taken
  | case2 => simp_all [← Option.some.inj taken]
  | case3 _ _ _ _ _ _ _ _ ih =>
    have shorter := ih taken
    simp only [List.length_cons]
    omega
  | case4 => simp at taken
  | case5 _ _ _ _ _ _ ih =>
    have shorter := ih taken
    simp only [List.length_cons]
    omega
  | case6 => simp at taken
  | case7 => simp at taken
  | case8 _ _ _ _ _ _ _ ih =>
    have shorter := ih taken
    simp only [List.length_cons]
    omega

/-- At least one digit is taken off the text. -/
theorem length_lt_of_readSomeDigits {text : List Char} {read : List Nat × List Char}
    (taken : readSomeDigits? text = some read) : read.2.length < text.length := by
  cases text with
  | nil => simp [readSomeDigits?] at taken
  | cons char later => grind [readSomeDigits?, List.isEmpty_iff_length_eq_zero]

/-- A fraction is taken off the text. -/
theorem length_le_of_readFraction {text : List Char} {read : Option (List Nat) × List Char}
    (taken : readFraction? text = some read) : read.2.length ≤ text.length := by
  unfold readFraction? at taken
  split at taken
  · obtain ⟨digits, found, rfl⟩ := Option.map_eq_some_iff.1 taken
    have shorter := length_lt_of_readSomeDigits found
    simp only [List.length_cons]
    omega
  · simp [← Option.some.inj taken]

/-- The digits of an exponent are taken off the text. -/
theorem length_lt_of_readExponentDigits {text : List Char} {read : (Bool × List Nat) × List Char}
    (taken : readExponentDigits? text = some read) : read.2.length < text.length := by
  unfold readExponentDigits? at taken
  split at taken <;>
  · obtain ⟨digits, found, rfl⟩ := Option.map_eq_some_iff.1 taken
    have shorter := length_lt_of_readSomeDigits found
    simp only [List.length_cons]
    omega

/-- An exponent is taken off the text. -/
theorem length_le_of_readExponent {text : List Char}
    {read : Option (Bool × List Nat) × List Char} (taken : readExponent? text = some read) :
    read.2.length ≤ text.length := by
  unfold readExponent? at taken
  split at taken
  · obtain ⟨digits, found, rfl⟩ := Option.map_eq_some_iff.1 taken
    have shorter := length_lt_of_readExponentDigits found
    simp only [List.length_cons]
    omega
  · obtain ⟨digits, found, rfl⟩ := Option.map_eq_some_iff.1 taken
    have shorter := length_lt_of_readExponentDigits found
    simp only [List.length_cons]
    omega
  · simp [← Option.some.inj taken]

/-- A number is taken off the text. -/
theorem length_lt_of_readNumeral {negative : Bool} {text : List Char}
    {read : Numeral × List Char} (taken : readNumeral? negative text = some read) :
    read.2.length < text.length := by
  simp only [readNumeral?, bind, Option.bind_eq_some_iff] at taken
  obtain ⟨whole, readWhole, taken⟩ := taken
  split at taken
  · simp at taken
  · simp only [Option.bind_eq_some_iff] at taken
    obtain ⟨fraction, readFraction, exponent, readExponent, taken⟩ := taken
    have first := length_lt_of_readSomeDigits readWhole
    have second := length_le_of_readFraction readFraction
    have third := length_le_of_readExponent readExponent
    rw [← Option.some.inj taken]
    show exponent.2.length < text.length
    omega

/-- A token is taken off the text. -/
theorem length_lt_of_read {text : List Char} {read : Token × List Char}
    (taken : read? text = some read) : read.2.length < text.length := by
  unfold read? at taken
  split at taken
  case h_10 =>
    obtain ⟨pieces, found, rfl⟩ := Option.map_eq_some_iff.1 taken
    have shorter := length_le_of_readString found
    simp only [List.length_cons]
    omega
  case h_11 =>
    obtain ⟨numeral, found, rfl⟩ := Option.map_eq_some_iff.1 taken
    have shorter := length_lt_of_readNumeral found
    simp only [List.length_cons]
    omega
  case h_12 =>
    obtain ⟨numeral, found, rfl⟩ := Option.map_eq_some_iff.1 taken
    exact length_lt_of_readNumeral found
  all_goals
    rw [← Option.some.inj taken]
    simp only [List.length_cons]
    omega

/-- Cuts a text into tokens. -/
def readAll? (tokens : List Token) (text : List Char) : Option (List Token) :=
  match text with
  | [] => some tokens.reverse
  | char :: rest =>
    if isSpace char then readAll? tokens rest
    else match _taken : read? (char :: rest) with
      | none => none
      | some (token, later) => readAll? (token :: tokens) later
termination_by text.length
decreasing_by
  · simp
  · exact length_lt_of_read _taken

/-- The tokens of a text. -/
def ofText? (text : String) : Option (List Token) := readAll? [] text.toList

end Token

end FlowService.Json
