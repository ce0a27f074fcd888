/-! Bytes are read as UTF-8 one at a time, and every broken piece is told apart from the next. -/

namespace FlowService

/-- A run of bytes in the order in which they are written. -/
abbrev Bytes := List UInt8

namespace Utf8

/-- The character shown in place of bytes that are not text. -/
def replacement : Char := '\uFFFD'

/-- What is still missing of a character that takes several bytes. -/
structure Partial where
  /-- The scalar value gathered so far. -/
  gathered : UInt32
  /-- How many bytes follow the next one. -/
  later : Nat
  /-- The smallest next byte that continues the character. -/
  low : UInt8
  /-- The largest next byte that continues the character. -/
  high : UInt8
  deriving DecidableEq, Repr

/-- What one byte does to a reader that is between two characters. -/
inductive Lead
  | whole (char : Char)
  | first (rest : Partial)
  | broken
  deriving DecidableEq, Repr

/-- Reads the first byte of a character. -/
def lead (byte : UInt8) : Lead :=
  -- The bounds on the second byte rule out overlong forms, surrogates and too large values.
  if byte < 0x80 then .whole (Char.ofNat byte.toNat)
  else if byte < 0xC2 then .broken
  else if byte < 0xE0 then .first ⟨byte.toUInt32 &&& 0x1F, 0, 0x80, 0xBF⟩
  else if byte = 0xE0 then .first ⟨0, 1, 0xA0, 0xBF⟩
  else if byte = 0xED then .first ⟨0xD, 1, 0x80, 0x9F⟩
  else if byte < 0xF0 then .first ⟨byte.toUInt32 &&& 0x0F, 1, 0x80, 0xBF⟩
  else if byte = 0xF0 then .first ⟨0, 2, 0x90, 0xBF⟩
  else if byte < 0xF4 then .first ⟨byte.toUInt32 &&& 0x07, 2, 0x80, 0xBF⟩
  else if byte = 0xF4 then .first ⟨4, 2, 0x80, 0x8F⟩
  else .broken

/-- A reader's state: what it has read, newest first, and the character it is in the middle of. -/
structure Reader where
  /-- Each entry is a character, or nothing for a broken piece. -/
  read : List (Option Char)
  pending : Option Partial
  deriving DecidableEq, Repr

/-- Reads a byte at the start of a character. -/
def Reader.begin (done : List (Option Char)) (byte : UInt8) : Reader :=
  match lead byte with
  | .whole char => ⟨some char :: done, none⟩
  | .first rest => ⟨done, some rest⟩
  | .broken => ⟨none :: done, none⟩

/-- Reads one byte. -/
def Reader.step (reader : Reader) (byte : UInt8) : Reader :=
  -- A byte that cannot continue a character ends it as broken and starts a new one.
  match reader.pending with
  | none => Reader.begin reader.read byte
  | some rest =>
    if rest.low ≤ byte ∧ byte ≤ rest.high then
      let value := (rest.gathered <<< 6) ||| (byte.toUInt32 &&& 0x3F)
      match rest.later with
      | 0 => ⟨some (Char.ofNat value.toNat) :: reader.read, none⟩
      | later + 1 => ⟨reader.read, some ⟨value, later, 0x80, 0xBF⟩⟩
    else Reader.begin (none :: reader.read) byte

/-- Ends the reading; a character cut short is broken. -/
def Reader.close (reader : Reader) : List (Option Char) :=
  match reader.pending with
  | none => reader.read.reverse
  | some _ => (none :: reader.read).reverse

/-- The characters of the bytes in order, with nothing in place of each broken piece. -/
def pieces (bytes : Bytes) : List (Option Char) :=
  (bytes.foldl Reader.step ⟨[], none⟩).close

/-- Reads bytes as text, with a replacement character for each broken piece. -/
def decodeLossy (bytes : Bytes) : String :=
  String.ofList ((pieces bytes).map (·.getD replacement))

/-- Reads bytes that must all be text. -/
def decode? (bytes : Bytes) : Option String :=
  ((pieces bytes).mapM id).map String.ofList

/-- The bytes of a text. -/
def encode (text : String) : Bytes := text.toUTF8.toList

end Utf8

end FlowService
