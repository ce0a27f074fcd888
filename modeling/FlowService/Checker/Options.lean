import FlowService.Path.Basic

/-! What the service is told about the checker and about the form of its results. -/

namespace FlowService

/-- How the checker is found and whether it is used at all. -/
structure CheckerOptions where
  /-- Without this every question is skipped. -/
  enabled : Bool
  /-- A binary that is taken without a search as long as it exists. -/
  binaryOverride : Option Path
  /-- Whether the search path is looked through when no package has the binary. -/
  searchPath : Bool
  /-- The package that brings the binary. -/
  package : String
  binary : String
  deriving DecidableEq, Repr, Inhabited

/-- How results are shown. -/
structure FeatureSettings where
  /-- Whether completing a function inserts a call with places to fill in. -/
  functionSnippets : Bool
  /-- Whether coverage lists the ranges that are not covered. -/
  coverageDecorations : Bool
  deriving DecidableEq, Repr, Inhabited

end FlowService
