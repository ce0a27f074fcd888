import FlowService.Checker.Reply.Basic
import FlowService.Json.Record

/-! Every reply is read from a record and can be written as one with all its fields. -/

namespace FlowService.Reply

namespace Parameter

/-- The names of the fields in order. -/
def fields : List String := ["name", "type"]

/-- Reads a parameter. -/
def ofJson? (json : Json) : Option Parameter := do
  let members ← json.record? fields
  let name ← Json.required? Json.text? members "name"
  let type ← Json.defaulted? "" Json.text? members "type"
  return ⟨name, type⟩

/-- Writes a parameter with all its fields. -/
def toJson (parameter : Parameter) : Json :=
  .object [("name", .string parameter.name), ("type", .string parameter.type)]

end Parameter

namespace Function

/-- The names of the fields in order. -/
def fields : List String := ["return_type", "params"]

/-- Reads what completion knows about a function. -/
def ofJson? (json : Json) : Option Function := do
  let members ← json.record? fields
  let returnType ← Json.defaulted? "" Json.text? members "return_type"
  let parameters ← Json.defaulted? [] (Json.list? Parameter.ofJson?) members "params"
  return ⟨returnType, parameters⟩

/-- Writes what completion knows about a function. -/
def toJson (function : Function) : Json :=
  .object [("return_type", .string function.returnType),
    ("params", Json.ofList Parameter.toJson function.parameters)]

end Function

namespace Candidate

/-- The names of the fields in order. -/
def fields : List String := ["name", "type", "func_details", "path"]

/-- Reads a proposal. -/
def ofJson? (json : Json) : Option Candidate := do
  let members ← json.record? fields
  let name ← Json.required? Json.text? members "name"
  let type ← Json.defaulted? "" Json.text? members "type"
  let function ← Json.nullable? Function.ofJson? members "func_details"
  let path ← Json.defaulted? "" Json.text? members "path"
  return ⟨name, type, function, path⟩

/-- Writes a proposal with all its fields. -/
def toJson (candidate : Candidate) : Json :=
  .object [("name", .string candidate.name), ("type", .string candidate.type),
    ("func_details", Json.ofOption Function.toJson candidate.function),
    ("path", .string candidate.path)]

end Candidate

namespace Completions

/-- The names of the fields in order. -/
def fields : List String := ["result"]

/-- Reads the proposals. -/
def ofJson? (json : Json) : Option Completions := do
  let members ← json.record? fields
  let candidates ← Json.defaulted? [] (Json.list? Candidate.ofJson?) members "result"
  return ⟨candidates⟩

/-- Writes the proposals. -/
def toJson (reply : Completions) : Json :=
  .object [("result", Json.ofList Candidate.toJson reply.candidates)]

end Completions

namespace TypeAt

/-- The names of the fields in order. -/
def fields : List String := ["type"]

/-- Reads a type. -/
def ofJson? (json : Json) : Option TypeAt := do
  let members ← json.record? fields
  let type ← Json.defaulted? "" Json.text? members "type"
  return ⟨type⟩

/-- Writes a type. -/
def toJson (reply : TypeAt) : Json := .object [("type", .string reply.type)]

end TypeAt

namespace Definition

/-- The names of the fields in order. -/
def fields : List String := ["path", "line", "endline", "start", "end"]

/-- Reads the place of a definition. -/
def ofJson? (json : Json) : Option Definition := do
  let members ← json.record? fields
  let path ← Json.defaulted? "" Json.text? members "path"
  let line ← Json.defaulted? 0 Json.count? members "line"
  let endLine ← Json.defaulted? 0 Json.count? members "endline"
  let start ← Json.defaulted? 0 Json.count? members "start"
  let stop ← Json.defaulted? 0 Json.count? members "end"
  return ⟨path, line, endLine, start, stop⟩

/-- Writes the place of a definition with all its fields. -/
def toJson (reply : Definition) : Json :=
  .object [("path", .string reply.path), ("line", Json.ofCount reply.line),
    ("endline", Json.ofCount reply.endLine), ("start", Json.ofCount reply.start),
    ("end", Json.ofCount reply.stop)]

end Definition

namespace Point

/-- The names of the fields in order. -/
def fields : List String := ["line", "column"]

/-- Reads a place. -/
def ofJson? (json : Json) : Option Point := do
  let members ← json.record? fields
  let line ← Json.required? Json.count? members "line"
  let column ← Json.required? Json.count? members "column"
  return ⟨line, column⟩

/-- Writes a place. -/
def toJson (point : Point) : Json :=
  .object [("line", Json.ofCount point.line), ("column", Json.ofCount point.column)]

end Point

namespace Stretch

/-- The names of the fields in order. -/
def fields : List String := ["start", "end"]

/-- Reads a stretch. -/
def ofJson? (json : Json) : Option Stretch := do
  let members ← json.record? fields
  let start ← Json.required? Point.ofJson? members "start"
  let stop ← Json.required? Point.ofJson? members "end"
  return ⟨start, stop⟩

/-- Writes a stretch. -/
def toJson (stretch : Stretch) : Json :=
  .object [("start", stretch.start.toJson), ("end", stretch.stop.toJson)]

end Stretch

namespace Expressions

/-- The names of the fields in order. -/
def fields : List String := ["covered_count", "uncovered_count", "uncovered_locs"]

/-- Reads the numbers of expressions. -/
def ofJson? (json : Json) : Option Expressions := do
  let members ← json.record? fields
  let covered ← Json.required? Json.count? members "covered_count"
  let uncovered ← Json.required? Json.count? members "uncovered_count"
  let stretches ← Json.defaulted? [] (Json.list? Stretch.ofJson?) members "uncovered_locs"
  return ⟨covered, uncovered, stretches⟩

/-- Writes the numbers of expressions with all fields. -/
def toJson (expressions : Expressions) : Json :=
  .object [("covered_count", Json.ofCount expressions.covered),
    ("uncovered_count", Json.ofCount expressions.uncovered),
    ("uncovered_locs", Json.ofList Stretch.toJson expressions.uncoveredStretches)]

end Expressions

namespace Coverage

/-- The names of the fields in order. -/
def fields : List String := ["expressions"]

/-- Reads the coverage of a file. -/
def ofJson? (json : Json) : Option Coverage := do
  let members ← json.record? fields
  let expressions ← Json.required? Expressions.ofJson? members "expressions"
  return ⟨expressions⟩

/-- Writes the coverage of a file. -/
def toJson (reply : Coverage) : Json := .object [("expressions", reply.expressions.toJson)]

end Coverage

namespace MessagePart

/-- The names of the fields in order. -/
def fields : List String := ["descr", "type", "path", "line", "endline", "start", "end"]

/-- Reads a piece of a message. -/
def ofJson? (json : Json) : Option MessagePart := do
  let members ← json.record? fields
  let description ← Json.defaulted? "" Json.text? members "descr"
  let kind ← Json.defaulted? "" Json.text? members "type"
  let path ← Json.defaulted? "" Json.text? members "path"
  let line ← Json.defaulted? 0 Json.count? members "line"
  let endLine ← Json.defaulted? 0 Json.count? members "endline"
  let start ← Json.defaulted? 0 Json.count? members "start"
  let stop ← Json.defaulted? 0 Json.count? members "end"
  return ⟨description, kind, path, line, endLine, start, stop⟩

/-- Writes a piece of a message with all its fields. -/
def toJson (part : MessagePart) : Json :=
  .object [("descr", .string part.description), ("type", .string part.kind),
    ("path", .string part.path), ("line", Json.ofCount part.line),
    ("endline", Json.ofCount part.endLine), ("start", Json.ofCount part.start),
    ("end", Json.ofCount part.stop)]

end MessagePart

namespace Error

/-- The names of the fields in order. -/
def fields : List String := ["level", "message", "operation"]

/-- Reads an error. -/
def ofJson? (json : Json) : Option Error := do
  let members ← json.record? fields
  let level ← Json.defaulted? "" Json.text? members "level"
  let message ← Json.defaulted? [] (Json.list? MessagePart.ofJson?) members "message"
  let operation ← Json.nullable? MessagePart.ofJson? members "operation"
  return ⟨level, message, operation⟩

/-- Writes an error with all its fields. -/
def toJson (error : Error) : Json :=
  .object [("level", .string error.level),
    ("message", Json.ofList MessagePart.toJson error.message),
    ("operation", Json.ofOption MessagePart.toJson error.operation)]

end Error

namespace Status

/-- The names of the fields in order. -/
def fields : List String := ["passed", "errors"]

/-- Reads the state of the project. -/
def ofJson? (json : Json) : Option Status := do
  let members ← json.record? fields
  let passed ← Json.defaulted? false Json.bool? members "passed"
  let errors ← Json.defaulted? [] (Json.list? Error.ofJson?) members "errors"
  return ⟨passed, errors⟩

/-- Writes the state of the project. -/
def toJson (reply : Status) : Json :=
  .object [("passed", .bool reply.passed), ("errors", Json.ofList Error.toJson reply.errors)]

end Status

end FlowService.Reply
