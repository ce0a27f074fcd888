import FlowService.Json.Record
import FlowService.Text.Position

/-! Positions and ranges have a form in JSON. -/

namespace FlowService

/-- A position as a value. -/
def Position.toJson (position : Position) : Json :=
  .object [("line", Json.ofCount position.line), ("character", Json.ofCount position.character)]

/-- A range as a value. -/
def Range.toJson (range : Range) : Json :=
  .object [("start", range.start.toJson), ("end", range.stop.toJson)]

end FlowService
