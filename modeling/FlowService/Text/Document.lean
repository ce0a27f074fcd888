import FlowService.Path.Basic
import FlowService.Text.Alphanumeric
import FlowService.Text.Position

/-! A document is an open buffer, whose columns count characters and whose offsets count bytes. -/

namespace FlowService

namespace Text

/-- Whether a character may stand in an identifier. -/
def isWordChar (char : Char) : Bool := isAlphanumeric char || char == '_' || char == '$'

/-- How many bytes a text takes in UTF-8. -/
def byteLength (text : List Char) : Nat := text.foldr (fun char bytes => char.utf8Size + bytes) 0

/-- How many characters the first bytes of a text hold; none when they end within a character or
beyond the text. -/
def charactersIn? : Nat → List Char → Option Nat
  | 0, _ => some 0
  | _ + 1, [] => none
  | bytes + 1, char :: rest =>
    if char.utf8Size ≤ bytes + 1 then
      (charactersIn? (bytes + 1 - char.utf8Size) rest).map (· + 1)
    else none

/-- A line without the carriage return that may end it. -/
def withoutReturn (line : List Char) : List Char :=
  if line.getLast? = some '\r' then line.dropLast else line

/-- The columns between which the identifier stands that touches a column, on either side of it. -/
def wordAt? (line : List Char) (column : Nat) : Option (Nat × Nat) :=
  if line.length < column then none
  else
    let before := (line.take column).reverse.takeWhile isWordChar
    let after := (line.drop column).takeWhile isWordChar
    if before.isEmpty && after.isEmpty then none
    else some (column - before.length, column + after.length)

/-- The first identifier that touches a column or one before it, down to column one. -/
def wordBefore? (line : List Char) : Nat → Option (Nat × Nat)
  | 0 => none
  | column + 1 =>
    match wordAt? line (column + 1) with
    | some columns => some columns
    | none => wordBefore? line column

end Text

/-- An open buffer. -/
structure Document where
  path : Path
  text : String
  deriving DecidableEq, Repr, Inhabited

namespace Document

/-- The characters of a buffer. -/
def characters (document : Document) : List Char := document.text.toList

/-- The stretches between line feeds, with their carriage returns. -/
def rawLines (document : Document) : List (List Char) := Text.splitAt '\n' document.characters

/-- The text of a line without its end. -/
def line? (document : Document) (line : UInt32) : Option (List Char) :=
  (document.rawLines[line.toNat]?).map Text.withoutReturn

/-- The byte offset of a position, which is moved back to the end of its line or of the buffer when
it lies beyond. -/
def offsetAt (document : Document) (position : Position) : Nat :=
  let lines := document.rawLines
  match lines[position.line.toNat]? with
  | none => Text.byteLength document.characters
  | some raw =>
    -- Each earlier line counts with its line feed.
    let before := (lines.take position.line.toNat).foldr
      (fun line bytes => Text.byteLength line + 1 + bytes) 0
    before + Text.byteLength ((Text.withoutReturn raw).take position.character.toNat)

/-- The text between two byte offsets; none when one of them is not between two characters. -/
def between? (document : Document) (start stop : Nat) : Option String := do
  let first ← Text.charactersIn? start document.characters
  let last ← Text.charactersIn? stop document.characters
  return String.ofList ((document.characters.take last).drop first)

/-- The text of a range; a range that ends before it starts is empty. -/
def slice? (document : Document) (range : Range) : Option String :=
  let start := document.offsetAt range.start
  document.between? start (max (document.offsetAt range.stop) start)

/-- The range between two columns of a line. -/
def onLine (line : UInt32) (columns : Nat × Nat) : Range :=
  ⟨⟨line, columns.1.toUInt32⟩, ⟨line, columns.2.toUInt32⟩⟩

/-- The range of the identifier that touches a position, on either side of it. -/
def wordRange? (document : Document) (position : Position) : Option Range := do
  let line ← document.line? position.line
  let columns ← Text.wordAt? line position.character.toNat
  return onLine position.line columns

end Document

end FlowService
