/-! Positions in a buffer count lines and characters from zero; the checker counts both from one. -/

namespace FlowService

/-- A place between two characters of a buffer, counted from zero. -/
structure Position where
  line : UInt32
  character : UInt32
  deriving DecidableEq, Repr, Inhabited

/-- A stretch of a buffer from one position up to another. -/
structure Range where
  start : Position
  stop : Position
  deriving DecidableEq, Repr, Inhabited

/-- Coordinates counted from one that name no position. -/
structure InvalidPosition where
  line : UInt32
  column : UInt32
  deriving DecidableEq, Repr

/-- The text shown for coordinates that name no position. -/
def InvalidPosition.message (invalid : InvalidPosition) : String :=
  s!"1-based position must have line and column >= 1 (got {invalid.line}:{invalid.column})"

namespace Position

/-- Reads coordinates counted from one, refusing a zero. -/
def ofOneBased (line column : UInt32) : Except InvalidPosition Position :=
  if line = 0 ∨ column = 0 then .error ⟨line, column⟩ else .ok ⟨line - 1, column - 1⟩

/-- One less than a count, stopping at zero. -/
def before (count : UInt32) : UInt32 :=
  if count = 0 then 0 else count - 1

/-- Reads the checker's coordinates, taking a zero for the start of the buffer. -/
def ofChecker (line column : UInt32) : Position :=
  ⟨before line, before column⟩

/-- The line as the checker counts it. -/
def oneBasedLine (position : Position) : UInt32 := position.line + 1

/-- The column as the checker counts it. -/
def oneBasedColumn (position : Position) : UInt32 := position.character + 1

end Position

end FlowService
