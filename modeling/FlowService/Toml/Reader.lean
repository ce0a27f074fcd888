import FlowService.Toml.Basic
import FlowService.Toml.Lexeme

/-! A TOML document is read line by line into the tables that its headers open. -/

namespace FlowService.Toml

open Lexeme

/-- How many arrays and inline tables may be open at once. -/
def depthLimit : Nat := 80

mutual

/-- Reads a value that may still nest so deep. -/
def readValue? : (fuel depth : Nat) → List Char → Option (Toml × List Char)
  | 0, _, _ => none
  | _ + 1, 0, '[' :: _ => none
  | _ + 1, 0, '\x7b' :: _ => none
  | fuel + 1, depth + 1, '[' :: rest => readItems? fuel depth [] rest
  | fuel + 1, depth + 1, '\x7b' :: rest => readPairs? fuel depth [] rest
  | _ + 1, _, text =>
    match text.head? with
    | some '"' => (readString? text).map fun read => (.string read.1, read.2)
    | some '\'' => (readString? text).map fun read => (.string read.1, read.2)
    | _ =>
      let (word, rest) := readWord text
      if word = "true".toList then some (.bool true, rest)
      else if word = "false".toList then some (.bool false, rest)
      else if Scalar.isScalar word then some (.scalar, rest)
      else none

/-- Reads the items of an array behind its bracket or behind a comma, newest first. -/
def readItems? : (fuel depth : Nat) → List Toml → List Char → Option (Toml × List Char)
  | 0, _, _, _ => none
  | fuel + 1, depth, items, text =>
    match skipAllGaps text with
    | ']' :: rest => some (.array items.reverse, rest)
    | text => do
      let (item, rest) ← readValue? fuel depth text
      match skipAllGaps rest with
      | ',' :: rest => readItems? fuel depth (item :: items) rest
      | ']' :: rest => return (.array (item :: items).reverse, rest)
      | _ => none

/-- Reads the pairs of an inline table behind its brace or behind a comma; lines may end anywhere
but within a key. -/
def readPairs? : (fuel depth : Nat) → Entries → List Char → Option (Toml × List Char)
  | 0, _, _, _ => none
  | fuel + 1, depth, entries, text =>
    match skipAllGaps text with
    | '\x7d' :: rest => some (.table .inline entries, rest)
    | text => do
      let (key, rest) ← readKey? fuel text
      match skipAllGaps rest with
      | '=' :: rest =>
        let (value, rest) ← readValue? fuel depth (skipAllGaps rest)
        let entries ← entries.insert? key value
        match skipAllGaps rest with
        | ',' :: rest => readPairs? fuel depth entries rest
        | '\x7d' :: rest => return (.table .inline entries, rest)
        | _ => none
      | _ => none

end

/-- What the lines so far have made, and the table that the last header has opened. -/
structure Document where
  entries : Entries
  opened : List String
  deriving Repr, Inhabited

namespace Document

/-- Reads a header behind its bracket; lists of tables are not known here. -/
def readHeader? (document : Document) (fuel : Nat) (text : List Char) :
    Option (Document × List Char) := do
  let (key, rest) ← readKey? fuel text
  match rest with
  | ']' :: rest =>
    let entries ← document.entries.open? key
    return (⟨entries, key⟩, rest)
  | _ => none

/-- Reads a key and its value. -/
def readPair? (document : Document) (fuel : Nat) (text : List Char) :
    Option (Document × List Char) := do
  let (key, rest) ← readKey? fuel text
  match rest with
  | '=' :: rest =>
    let (value, rest) ← readValue? fuel depthLimit (skipBlanks rest)
    let entries ← document.entries.change? (·.insert? key value) document.opened
    return (⟨entries, document.opened⟩, rest)
  | _ => none

/-- Reads the lines of a document, each with fuel for all that is left of the text. -/
def readLines? : (fuel : Nat) → Document → List Char → Option Document
  | 0, _, _ => none
  | fuel + 1, document, text =>
    match skipAllGaps text with
    | [] => some document
    | '[' :: rest => do
      let (document, rest) ← document.readHeader? fuel rest
      let rest ← skipLine? rest
      readLines? fuel document rest
    | text => do
      let (document, rest) ← document.readPair? fuel text
      let rest ← skipLine? rest
      readLines? fuel document rest

end Document

/-- A text without the mark of byte order in front. -/
def withoutMark : List Char → List Char
  | '\uFEFF' :: rest => rest
  | text => text

/-- Reads a document. -/
def parse? (text : String) : Option Entries :=
  let chars := withoutMark text.toList
  -- Each character is worth at most two steps, and each line takes one more away.
  (Document.readLines? (3 * chars.length + 3) ⟨[], []⟩ chars).map (·.entries)

end FlowService.Toml
