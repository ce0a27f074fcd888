import FlowService.Disk.Tree
import FlowService.Environment

/-! A program that is named without a directory is looked up in the directories of a search path. -/

namespace FlowService.SearchPath

/-- The variable that lists the directories. -/
def variableName : String := "PATH"

/-- The entries of the search path as they are spelled, in order. -/
def entries (environment : Environment) : List Path :=
  match environment.value? variableName with
  | none => []
  | some value => (Text.splitAt ':' value.toList).map fun part => Path.ofText (String.ofList part)

/-- The directory that an entry names; a tilde in front stands for the home directory. -/
def expandHome (environment : Environment) (entry : Path) : Path :=
  match entry.components with
  | .name "~" :: inner =>
    let home := Path.ofText ((environment.value? "HOME").getD "")
    inner.foldl (fun path component => path.joinText component.text) home
  | _ => entry

/-- Whether a path leads to a file that may be run. -/
def isProgram (disk : Disk) (path : Path) : Bool := (disk.file? path).any (·.executable)

/-- The program of a name: one that names a directory too is looked up from the working directory,
and any other in the directories of the search path. -/
def find? (disk : Disk) (environment : Environment) (program : String) : Option Path :=
  let path := Path.ofText program
  if 1 < path.components.length then
    let whole :=
      if path.absolute then path
      else
        -- A dot in front names the working directory once more.
        (path.components.filter (· != .here)).foldl
          (fun whole component => whole.joinText component.text)
          (Location.path disk.workingDirectory)
    if isProgram disk whole then some whole else none
  else
    ((entries environment).map fun entry =>
      (expandHome environment entry).joinText program).find? (isProgram disk)

end FlowService.SearchPath
