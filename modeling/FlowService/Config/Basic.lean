import FlowService.Checker.Options
import FlowService.Config.Expansion
import FlowService.Text.Blank
import FlowService.Toml.Reader

/-! The configuration has three sections, in which every setting has a default. -/

namespace FlowService

namespace Config

/-- The section on the checker. -/
structure Checker where
  enabled : Bool
  /-- A path to the binary, in which references to variables are still to be replaced. -/
  pathToFlow : Option String
  searchPath : Bool
  package : String
  binary : String
  deriving DecidableEq, Repr, Inhabited

/-- The section on completion. -/
structure Completion where
  functionSnippets : Bool
  deriving DecidableEq, Repr, Inhabited

/-- The section on coverage. -/
structure Coverage where
  decorations : Bool
  deriving DecidableEq, Repr, Inhabited

end Config

/-- A configuration. -/
structure Config where
  checker : Config.Checker
  completion : Config.Completion
  coverage : Config.Coverage
  deriving DecidableEq, Repr, Inhabited

namespace Config

/-- The section on the checker when nothing is set. -/
def Checker.default : Checker := ⟨true, none, false, "flow-bin", "flow"⟩

/-- The configuration when nothing is set. -/
def default : Config := ⟨Checker.default, ⟨false⟩, ⟨false⟩⟩

/-- The settings of a section; a table may hold no others, and the items of an array take the names
of the settings in order as far as there are any. -/
def section? (names : List String) : Toml → Option Toml.Entries
  | .table _ entries =>
    if entries.all fun entry => names.contains entry.1 then some entries else none
  | .array items => some (names.zip items)
  | _ => none

/-- Reads a setting that has a default. -/
def setting? {α : Type} (default : α) (read : Toml → Option α) (entries : Toml.Entries)
    (name : String) : Option α :=
  match entries.value? name with
  | none => some default
  | some value => read value

/-- Reads a truth value. -/
def bool? : Toml → Option Bool
  | .bool value => some value
  | _ => none

/-- Reads a text. -/
def text? : Toml → Option String
  | .string value => some value
  | _ => none

/-- Reads the section on the checker. -/
def Checker.ofToml? (value : Toml) : Option Checker := do
  let entries ← section? ["enabled", "path_to_flow", "search_path", "package", "binary"] value
  let enabled ← setting? Checker.default.enabled bool? entries "enabled"
  let pathToFlow ← setting? none (fun value => (text? value).map some) entries "path_to_flow"
  let searchPath ← setting? Checker.default.searchPath bool? entries "search_path"
  let package ← setting? Checker.default.package text? entries "package"
  let binary ← setting? Checker.default.binary text? entries "binary"
  return ⟨enabled, pathToFlow, searchPath, package, binary⟩

/-- Reads the section on completion. -/
def Completion.ofToml? (value : Toml) : Option Completion := do
  let entries ← section? ["use_code_snippets_on_function_suggest"] value
  let snippets ← setting? false bool? entries "use_code_snippets_on_function_suggest"
  return ⟨snippets⟩

/-- Reads the section on coverage. -/
def Coverage.ofToml? (value : Toml) : Option Coverage := do
  let entries ← section? ["decorations"] value
  let decorations ← setting? false bool? entries "decorations"
  return ⟨decorations⟩

/-- Reads a configuration. -/
def ofText? (text : String) : Option Config := do
  let document ← Toml.parse? text
  let entries ← section? ["checker", "completion", "coverage"] (.table .header document)
  let checker ← setting? default.checker Checker.ofToml? entries "checker"
  let completion ← setting? default.completion Completion.ofToml? entries "completion"
  let coverage ← setting? default.coverage Coverage.ofToml? entries "coverage"
  return ⟨checker, completion, coverage⟩

/-- What the service is told about the checker; a blank path to the binary counts as none. -/
def checkerOptions (config : Config) (environment : Environment) : CheckerOptions :=
  let override := config.checker.pathToFlow.map (Expansion.expand environment)
  ⟨config.checker.enabled, (override.filter (!Text.isAllBlank ·)).map Path.ofText,
    config.checker.searchPath, config.checker.package, config.checker.binary⟩

/-- What the service is told about the form of results. -/
def featureSettings (config : Config) : FeatureSettings :=
  ⟨config.completion.functionSnippets, config.coverage.decorations⟩

end Config

end FlowService
