import FlowService.Environment
import FlowService.Path.Basic

/-! The configuration file is named by a variable, or lies in the home directory. -/

namespace FlowService.Config

/-- The variable that names the configuration file. -/
def pathVariable : String := "FLOWIDE_CONFIG"

/-- The directory of the user: the one that the environment names, or else the account's own. -/
def homeDirectory? (environment : Environment) (accountHome : Option Path) : Option Path :=
  match environment.nonEmpty? "HOME" with
  | some home => some (Path.ofText home)
  | none => accountHome

/-- Where the configuration file is looked for. -/
def location? (environment : Environment) (accountHome : Option Path) : Option Path :=
  match environment.nonEmpty? pathVariable with
  | some path => some (Path.ofText path)
  | none => (homeDirectory? environment accountHome).map fun home =>
      (home.joinText ".flowide").joinText "config.toml"

end FlowService.Config
