import FlowService.Json.Token
import FlowService.Toml.Scalar

/-! The words of a TOML document: gaps, comments, strings and keys. -/

namespace FlowService.Toml.Lexeme

/-- Whether a character is a space within a line. -/
def isBlank (char : Char) : Bool := char == ' ' || char == '\t'

/-- Whether a character may stand as itself in strings and comments. -/
def isText (char : Char) : Bool := char == '\t' || (' ' ≤ char && char != '\x7f')

/-- Skips the spaces at the front of a text. -/
def skipBlanks (text : List Char) : List Char := text.dropWhile isBlank

/-- Skips a comment up to the end of its line, if there is one. -/
def skipComment : List Char → List Char
  | '#' :: rest => rest.dropWhile isText
  | text => text

/-- Skips the rest of a line, which may hold a comment, and its end. -/
def skipLine? (text : List Char) : Option (List Char) :=
  match skipComment (skipBlanks text) with
  | [] => some []
  | '\n' :: rest => some rest
  | '\r' :: '\n' :: rest => some rest
  | _ => none

/-- Skips spaces, comments and ends of lines as far as they go, from within a comment or not. -/
def skipGaps (inComment : Bool) : List Char → List Char
  | [] => []
  | '\n' :: rest => skipGaps false rest
  | '\r' :: '\n' :: rest => skipGaps false rest
  | char :: rest =>
    if inComment then if isText char then skipGaps true rest else char :: rest
    else if isBlank char then skipGaps false rest
    else if char = '#' then skipGaps true rest
    else char :: rest

/-- Skips spaces, comments and ends of lines in front of a word. -/
def skipAllGaps (text : List Char) : List Char := skipGaps false text

/-- Skips the end of a line at the front of a text, if there is one. -/
def skipLineEnd : List Char → List Char
  | '\n' :: rest => rest
  | '\r' :: '\n' :: rest => rest
  | text => text

/-- Where a reader is in a string: in its text, or behind a backslash that ends a line, before the
end of that line or after it. -/
inductive Place
  | inside
  | lineEnd
  | trimming
  deriving DecidableEq, Repr

/-- The character of a code that is written in hexadecimal digits. -/
def scalar? (digits : List Char) : Option Char := do
  let digits ← digits.mapM Json.Token.hexDigit?
  let code := digits.foldl (fun code digit => code * 16 + digit) 0
  if code < 0xD800 ∨ (0xE000 ≤ code ∧ code < 0x110000) then some (Char.ofNat code) else none

/-- What a backslash and one more character stand for. -/
def escape? : Char → Option Char
  | 'b' => some '\x08'
  | 't' => some '\t'
  | 'n' => some '\n'
  | 'f' => some '\x0c'
  | 'r' => some '\r'
  | 'e' => some '\x1b'
  | '"' => some '"'
  | '\\' => some '\\'
  | _ => none

/-- Reads a string with escapes behind its opening quotes; the text read so far comes last first. -/
def readBasic (lines : Bool) (read : List Char) : Place → List Char → Option (String × List Char)
  | .lineEnd, ' ' :: rest => readBasic lines read .lineEnd rest
  | .lineEnd, '\t' :: rest => readBasic lines read .lineEnd rest
  | .lineEnd, '\n' :: rest => readBasic lines read .trimming rest
  | .lineEnd, '\r' :: '\n' :: rest => readBasic lines read .trimming rest
  | .lineEnd, _ => none
  | .trimming, ' ' :: rest => readBasic lines read .trimming rest
  | .trimming, '\t' :: rest => readBasic lines read .trimming rest
  | .trimming, '\n' :: rest => readBasic lines read .trimming rest
  | .trimming, '\r' :: '\n' :: rest => readBasic lines read .trimming rest
  | _, [] => none
  | _, '"' :: rest =>
    if !lines then some (String.ofList read.reverse, rest)
    else match rest with
      -- Up to two quotes may stand in front of the three that end the string.
      | '"' :: '"' :: '"' :: '"' :: rest => some (String.ofList ('"' :: '"' :: read).reverse, rest)
      | '"' :: '"' :: '"' :: rest => some (String.ofList ('"' :: read).reverse, rest)
      | '"' :: '"' :: rest => some (String.ofList read.reverse, rest)
      | rest => readBasic lines ('"' :: read) .inside rest
  | _, '\\' :: 'x' :: a :: b :: rest =>
    match scalar? [a, b] with
    | some char => readBasic lines (char :: read) .inside rest
    | none => none
  | _, '\\' :: 'u' :: a :: b :: c :: d :: rest =>
    match scalar? [a, b, c, d] with
    | some char => readBasic lines (char :: read) .inside rest
    | none => none
  | _, '\\' :: 'U' :: a :: b :: c :: d :: e :: f :: g :: h :: rest =>
    match scalar? [a, b, c, d, e, f, g, h] with
    | some char => readBasic lines (char :: read) .inside rest
    | none => none
  | _, '\\' :: char :: rest =>
    match escape? char with
    | some escaped => readBasic lines (escaped :: read) .inside rest
    | none =>
      if !lines then none
      else match char with
        | ' ' => readBasic lines read .lineEnd rest
        | '\t' => readBasic lines read .lineEnd rest
        | '\n' => readBasic lines read .trimming rest
        | '\r' => match rest with
          | '\n' :: rest => readBasic lines read .trimming rest
          | _ => none
        | _ => none
  | _, '\r' :: '\n' :: rest =>
    if lines then readBasic lines ('\n' :: '\r' :: read) .inside rest else none
  | _, '\n' :: rest => if lines then readBasic lines ('\n' :: read) .inside rest else none
  | _, char :: rest => if isText char then readBasic lines (char :: read) .inside rest else none

/-- Reads a string without escapes behind its opening quotes. -/
def readLiteral (lines : Bool) (read : List Char) : List Char → Option (String × List Char)
  | [] => none
  | '\'' :: rest =>
    if !lines then some (String.ofList read.reverse, rest)
    else match rest with
      | '\'' :: '\'' :: '\'' :: '\'' :: rest =>
        some (String.ofList ('\'' :: '\'' :: read).reverse, rest)
      | '\'' :: '\'' :: '\'' :: rest => some (String.ofList ('\'' :: read).reverse, rest)
      | '\'' :: '\'' :: rest => some (String.ofList read.reverse, rest)
      | rest => readLiteral lines ('\'' :: read) rest
  | '\r' :: '\n' :: rest =>
    if lines then readLiteral lines ('\n' :: '\r' :: read) rest else none
  | '\n' :: rest => if lines then readLiteral lines ('\n' :: read) rest else none
  | char :: rest => if isText char then readLiteral lines (char :: read) rest else none

/-- Reads a string of any of the four forms. -/
def readString? : List Char → Option (String × List Char)
  | '"' :: '"' :: '"' :: rest => readBasic true [] .inside (skipLineEnd rest)
  | '"' :: rest => readBasic false [] .inside rest
  | '\'' :: '\'' :: '\'' :: rest => readLiteral true [] (skipLineEnd rest)
  | '\'' :: rest => readLiteral false [] rest
  | _ => none

/-- Whether a character may stand in a key without quotes. -/
def isKeyChar (char : Char) : Bool := char.isAlphanum || char == '_' || char == '-'

/-- Reads one part of a key. -/
def readKeyPart? : List Char → Option (String × List Char)
  | '"' :: rest => readBasic false [] .inside rest
  | '\'' :: rest => readLiteral false [] rest
  | text =>
    let key := text.takeWhile isKeyChar
    if key.isEmpty then none else some (String.ofList key, text.drop key.length)

/-- Reads the parts of a dotted key, with spaces around the dots and at both ends. -/
def readKey? : (fuel : Nat) → List Char → Option (List String × List Char)
  | 0, _ => none
  | fuel + 1, text => do
    let (part, rest) ← readKeyPart? (skipBlanks text)
    match skipBlanks rest with
    | '.' :: rest =>
      let (parts, rest) ← readKey? fuel rest
      return (part :: parts, rest)
    | rest => return ([part], rest)

/-- Whether a character ends a word that is no string. -/
def endsWord (char : Char) : Bool :=
  isBlank char || char == '\n' || char == '\r' || char == ',' || char == ']' || char == '\x7d' ||
    char == '#' || char == '='

/-- Reads a word that is no string; a date takes the time behind a space with it. -/
def readWord (text : List Char) : List Char × List Char :=
  let word := text.takeWhile fun char => !endsWord char
  let rest := text.drop word.length
  match rest with
  | ' ' :: digit :: later =>
    if Scalar.isDate word && digit.isDigit then
      let time := (digit :: later).takeWhile fun char => !endsWord char
      (word ++ ' ' :: time, (digit :: later).drop time.length)
    else (word, rest)
  | _ => (word, rest)

end FlowService.Toml.Lexeme
