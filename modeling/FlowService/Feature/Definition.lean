import FlowService.Checker.Question
import FlowService.Checker.Reply.Fields
import FlowService.Text.Document
import FlowService.Text.Place

/-! The definition of a symbol is a range of some file. -/

namespace FlowService

/-- A range of a file. -/
structure SourceLocation where
  path : Path
  range : Range
  deriving DecidableEq, Repr, Inhabited

namespace SourceLocation

/-- The place that a reply names, if it names one. -/
def ofReply? (reply : Reply.Definition) : Option SourceLocation :=
  if reply.path = "" then none
  else some ⟨Path.ofText reply.path,
    Position.ofChecker reply.line reply.start, Position.ofChecker reply.endLine reply.stop⟩

/-- A place as a value. -/
def toJson (location : SourceLocation) : Json :=
  .object [("path", .string location.path.text), ("range", location.range.toJson)]

end SourceLocation

/-- Finds where the symbol at a position is defined. -/
def Document.definition (document : Document) (position : Position) :
    Plan (Option SourceLocation) :=
  .ask (.definition document.path document.text position) fun result =>
    (result.settle Reply.Definition.ofJson?).bind SourceLocation.ofReply?

end FlowService
