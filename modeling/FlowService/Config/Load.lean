import FlowService.Config.Basic
import FlowService.Disk.Tree

/-! A configuration is loaded from a file, which need not be there. -/

namespace FlowService

/-- Why a configuration file cannot be used. -/
inductive ConfigError
  | read (path : Path)
  | parse (path : Path)
  deriving DecidableEq, Repr, Inhabited

namespace ConfigError

/-- The file that cannot be used. -/
def path : ConfigError → Path
  | .read path => path
  | .parse path => path

/-- The text shown for a file that cannot be used. -/
def message : ConfigError → String
  | .read path => s!"failed to read config at {path.text}: the file holds no text"
  | .parse path => s!"failed to parse config at {path.text}: the settings are malformed"

end ConfigError

/-- Loads the configuration from a file; a missing file gives none. -/
def Config.load (disk : Disk) (path : Path) : Except ConfigError (Option Config) :=
  if disk.exists? path then
    match disk.readText? path with
    | none => .error (.read path)
    | some text => match Config.ofText? text with
      | none => .error (.parse path)
      | some config => .ok (some config)
  else .ok none

end FlowService
