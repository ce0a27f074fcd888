import FlowService.Checker.Output
import FlowService.Text.Position

/-! A question about a file becomes a command line for the checker. -/

namespace FlowService

/-- A question to the checker. -/
inductive Question
  | typeAt (file : Path) (contents : String) (position : Position)
  | completions (file : Path) (contents : String) (position : Position)
  | definition (file : Path) (contents : String) (position : Position)
  | coverage (file : Path) (contents : String)
  /-- A question about the whole project of a file. -/
  | status (file : Path)
  deriving DecidableEq, Repr, Inhabited

namespace Question

/-- The file that a question is about. -/
def file : Question → Path
  | .typeAt file _ _ => file
  | .completions file _ _ => file
  | .definition file _ _ => file
  | .coverage file _ => file
  | .status file => file

/-- The text of the buffer, which the checker reads in place of the file. -/
def contents? : Question → Option String
  | .typeAt _ contents _ => some contents
  | .completions _ contents _ => some contents
  | .definition _ contents _ => some contents
  | .coverage _ contents => some contents
  | .status _ => none

/-- A position as the last two arguments of a command. -/
def positionArguments (position : Position) : List String :=
  [toString position.oneBasedLine, toString position.oneBasedColumn]

/-- The arguments that ask a question. -/
def arguments : Question → List String
  | .typeAt file _ position =>
    ["type-at-pos", "--json", "--pretty", "--path", file.text] ++ positionArguments position
  | .completions file _ position =>
    ["autocomplete", "--json", file.text] ++ positionArguments position
  | .definition file _ position => ["get-def", "--json", file.text] ++ positionArguments position
  | .coverage file _ => ["coverage", "--json", file.text]
  | .status _ => ["status", "--json"]

end Question

/-- Something to work out that may need one answer of the checker. -/
inductive Plan (α : Type)
  /-- The checker is not needed. -/
  | answer (result : α)
  /-- The result is read off what comes of a question. -/
  | ask (question : Question) (read : CheckerResult → α)

namespace Plan

/-- Changes the result of a plan. -/
def map {α β : Type} (change : α → β) : Plan α → Plan β
  | .answer result => .answer (change result)
  | .ask question read => .ask question fun result => change (read result)

end Plan

end FlowService
