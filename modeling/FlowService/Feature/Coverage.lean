import FlowService.Checker.Question
import FlowService.Checker.Reply.Fields
import FlowService.Text.Document
import FlowService.Text.Place

/-! Coverage tells which share of the expressions of a buffer has a type. -/

namespace FlowService

/-- How far the expressions of a buffer have types. -/
structure CoverageReport where
  covered : UInt32
  uncovered : UInt32
  /-- The share of covered expressions as a whole number out of a hundred. -/
  percent : UInt32
  uncoveredRanges : List Range
  deriving DecidableEq, Repr, Inhabited

namespace CoverageReport

/-- The covered share out of a hundred, rounded to the nearest; nothing at all is fully covered. -/
def percentOf (covered uncovered : UInt32) : UInt32 :=
  let total := covered.toUInt64 + uncovered.toUInt64
  if total = 0 then 100 else ((covered.toUInt64 * 100 + total / 2) / total).toUInt32

/-- The range of a stretch, whose end the checker counts as the last character within. -/
def rangeOf (stretch : Reply.Stretch) : Range :=
  ⟨Position.ofChecker stretch.start.line stretch.start.column,
    ⟨Position.before stretch.stop.line, stretch.stop.column⟩⟩

/-- The report on some expressions; ranges are listed only for decorations. -/
def ofExpressions (decorations : Bool) (expressions : Reply.Expressions) : CoverageReport where
  covered := expressions.covered
  uncovered := expressions.uncovered
  percent := percentOf expressions.covered expressions.uncovered
  uncoveredRanges := if decorations then expressions.uncoveredStretches.map rangeOf else []

/-- The text of the status bar. -/
def statusText (report : CoverageReport) : String := s!"Flow coverage {report.percent}%"

/-- A report as a value. -/
def toJson (report : CoverageReport) : Json :=
  .object [("covered", Json.ofCount report.covered), ("uncovered", Json.ofCount report.uncovered),
    ("percent", Json.ofCount report.percent),
    ("uncovered_ranges", Json.ofList Range.toJson report.uncoveredRanges)]

end CoverageReport

/-- Reports the coverage of a buffer; the checker is not asked about an empty one. -/
def Document.coverage (document : Document) (decorations : Bool) : Plan (Option CoverageReport) :=
  if document.text = "" then .answer none
  else .ask (.coverage document.path document.text) fun result =>
    (result.settle Reply.Coverage.ofJson?).map fun reply =>
      CoverageReport.ofExpressions decorations reply.expressions

end FlowService
