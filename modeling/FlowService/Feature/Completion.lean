import FlowService.Checker.Question
import FlowService.Checker.Reply.Fields
import FlowService.Text.Document
import FlowService.Text.Search

/-! Completion proposes names at a position, each with the text to insert for it. -/

namespace FlowService

/-- What a proposed name stands for. -/
inductive CompletionKind
  | function
  | classType
  | variable
  deriving DecidableEq, Repr, Inhabited

/-- One proposed name. -/
structure CompletionItem where
  label : String
  kind : CompletionKind
  /-- The text to insert, in which doubled braces mark the places to fill in. -/
  insertText : String
  detail : String
  deriving DecidableEq, Repr, Inhabited

namespace CompletionKind

/-- What a candidate stands for. -/
def ofCandidate (candidate : Reply.Candidate) : CompletionKind :=
  if candidate.function.isSome then .function
  else if Text.holds "[class: ".toList candidate.type.toList then .classType
  else .variable

/-- The name of a kind. -/
def name : CompletionKind → String
  | .function => "function"
  | .classType => "class"
  | .variable => "variable"

end CompletionKind

namespace CompletionItem

/-- A text between doubled braces, which is a place to fill in. -/
def placeholder (text : String) : String := "\x7b\x7b" ++ text ++ "\x7d\x7d"

/-- A place to fill in that bears the name of a parameter, without marks of optional ones. -/
def parameterPlaceholder (parameter : Reply.Parameter) : String :=
  placeholder (String.ofList (parameter.name.toList.filter (· != '?')))

/-- The text to insert for a candidate; a function is called when snippets are wanted. -/
def insertTextOf (snippets : Bool) (candidate : Reply.Candidate) : String :=
  match candidate.function with
  | none => candidate.name
  | some function =>
    if !snippets then candidate.name
    else if function.parameters.isEmpty then candidate.name ++ "()"
    else
      let arguments := ", ".intercalate (function.parameters.map parameterPlaceholder)
      candidate.name ++ "(" ++ arguments ++ ")" ++ placeholder ""

/-- The item that proposes a candidate. -/
def ofCandidate (snippets : Bool) (candidate : Reply.Candidate) : CompletionItem where
  label := candidate.name
  kind := CompletionKind.ofCandidate candidate
  insertText := insertTextOf snippets candidate
  detail := if candidate.type = "" then Path.baseName candidate.path else candidate.type

/-- An item as a value. -/
def toJson (item : CompletionItem) : Json :=
  .object [("label", .string item.label), ("kind", .string item.kind.name),
    ("insert_text", .string item.insertText), ("detail", .string item.detail)]

end CompletionItem

/-- Proposes names at a position. -/
def Document.completions (document : Document) (snippets : Bool) (position : Position) :
    Plan (Option (List CompletionItem)) :=
  .ask (.completions document.path document.text position) fun result =>
    (result.settle Reply.Completions.ofJson?).map fun reply =>
      reply.candidates.map (CompletionItem.ofCandidate snippets)

end FlowService
