import FlowService.Checker.Question
import FlowService.Checker.Reply.Fields
import FlowService.Text.Document

/-! Hovering over an identifier shows its type. -/

namespace FlowService

/-- What is shown for the identifier under the cursor. -/
structure Hover where
  /-- The header above the code. -/
  title : String
  /-- The language in which the code is shown. -/
  language : String
  value : String
  deriving DecidableEq, Repr, Inhabited

namespace Hover

/-- What is shown for a word of a type; an empty type shows nothing. -/
def ofType? (word type : String) : Option Hover :=
  if type = "" then none else some ⟨"Flow-IDE", "javascriptreact", word ++ ": " ++ type⟩

/-- What is shown, as a value. -/
def toJson (hover : Hover) : Json :=
  .object [("title", .string hover.title), ("language", .string hover.language),
    ("value", .string hover.value)]

end Hover

/-- Shows the type of the identifier at a position; without one the checker is not asked. -/
def Document.hover (document : Document) (position : Position) : Plan (Option Hover) :=
  match (document.wordRange? position).bind document.slice? with
  | none => .answer none
  | some word => .ask (.typeAt document.path document.text position) fun result =>
      (result.settle Reply.TypeAt.ofJson?).bind fun reply => Hover.ofType? word reply.type

end FlowService
