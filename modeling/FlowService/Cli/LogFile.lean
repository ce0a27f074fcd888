import FlowService.Config.Location
import FlowService.Disk.Change

/-! The log is kept in the first of a few places in which a file can be opened. -/

namespace FlowService.Cli

/-- The log in a directory that holds one. -/
def logIn (directory : Path) : Path := (directory.joinText "logs").joinText "flowide.log"

/-- Where the log may be kept: beside the configuration, or else below the working directory. -/
def logCandidates (environment : Environment) (accountHome : Option Path) : List Path :=
  let beside := (Config.location? environment accountHome).bind Path.parent?
  beside.toList.map logIn ++ [logIn (Path.ofText ".flowide")]

/-- Opens a log file at its end, with the directories around it; an empty one is made when there is
none. The second part tells whether that was possible. -/
def openLog (disk : Disk) (path : Path) : Disk × Bool :=
  match path.parent? with
  | none => (disk, false)
  | some directory => match disk.makeDirectories directory with
    | none => (disk, false)
    | some (_, made) => match made.disk.writeFile path fun old => old.getD ⟨[], false, false⟩ with
      | none => (made.disk, false)
      | some written => (written.disk, true)

/-- Opens the first log file that can be opened. -/
def openFirstLog (disk : Disk) : List Path → Disk
  | [] => disk
  | path :: later => match openLog disk path with
    | (disk, true) => disk
    | (disk, false) => openFirstLog disk later

end FlowService.Cli
