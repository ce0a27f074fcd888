import FlowService.Cli.Run

/-!
The program takes a picture of the directories that a command looks into, works the command out on
the picture, and prints what comes of it. It starts no processes of its own, so that a checker
which it finds counts as a file that cannot be run.
-/

namespace FlowService.Cli.Picture

/-- What stands at one path, if it can be read; a link is kept as the path that it leads to. -/
def entryAt (path : Path) : IO (Option Entry) := do
  try
    let real := Path.ofText (← IO.FS.realPath path.text).toString
    if path.sameAs real then
      match (← (← IO.FS.realPath path.text).metadata).type with
      | .dir => return some .directory
      | .file => return some (.file ⟨(← IO.FS.readBinFile path.text).toList, false, false⟩)
      | _ => return none
    else return some (.link real)
  catch _ => return none

/-- The paths of what stands in a directory. -/
def pathsIn (directory : Path) : IO (List Path) := do
  try
    let entries ← (← IO.FS.realPath directory.text).readDir
    return entries.toList.map fun entry => directory.joinText entry.fileName
  catch _ => return []

/-- What stands in a directory and so many levels below it. -/
def entriesBelow : Nat → Path → IO (List (Path × Entry))
  | 0, _ => return []
  | levels + 1, directory => do
    let mut found := []
    for path in ← pathsIn directory do
      if let some entry ← entryAt path then
        let below ← if entry == .directory then entriesBelow levels path else pure []
        found := found ++ (path, entry) :: below
    return found

/-- How many levels of the packages are looked into. -/
def packageLevels : Nat := 6

/-- What a command may look at around a file: all that stands in the directories above it, and the
packages that are installed there. -/
def entriesAround (file : Path) : IO (List (Path × Entry)) := do
  let mut found := []
  for directory in file.ancestors do
    found := found ++ (← entriesBelow 1 directory)
    found := found ++ (← entriesBelow packageLevels (Discovery.modulesOf directory))
    if let some entry ← entryAt directory then
      found := found ++ [(directory, entry)]
  return found

/-- The variables that the program knows, as far as they are set. -/
def environment (names : List String) : IO Environment := do
  let mut bindings := []
  for name in names do
    if let some value ← IO.getEnv name then
      bindings := bindings ++ [(name, value)]
  return ⟨bindings⟩

/-- The files that the arguments and the configuration may name, as they are seen from the root. -/
def filesOf (workingDirectory : Location) (environment : Environment) (arguments : List String) :
    List Path :=
  let named := (arguments.filter (· != "")).map Path.ofText
  (named ++ (Config.location? environment none).toList).map
    (Cli.absolutePath workingDirectory)

/-- A picture of what the program finds around it when it starts. -/
def surroundings (arguments : List String) : IO Cli.Surroundings := do
  let environment ← environment ["HOME", "PATH", Config.pathVariable]
  let workingDirectory := (Path.ofText (← IO.currentDir).toString).segments
  let mut entries := []
  for file in filesOf workingDirectory environment arguments do
    entries := entries ++ (← entriesAround file)
  let stdin ←
    if arguments.contains "--stdin" then pure (← (← IO.getStdin).readBinToEnd).toList else pure []
  let tree : FileTree := ⟨entries.map fun entry => (entry.1.segments, entry.2)⟩
  return ⟨⟨tree, workingDirectory⟩, environment, none, stdin⟩

/-- Opens the first log that can be opened, on the disk itself and not on the picture. -/
def openLog : List Path → IO Unit
  | [] => return ()
  | path :: later => do
    try
      if let some directory := path.parent? then IO.FS.createDirAll directory.text
      discard (IO.FS.Handle.mk path.text .append)
    catch _ => openLog later

end FlowService.Cli.Picture

/-- Runs one command, and ends with its code. -/
def main (arguments : List String) : IO UInt32 := do
  let surroundings ← FlowService.Cli.Picture.surroundings arguments
  FlowService.Cli.Picture.openLog
    (FlowService.Cli.logCandidates surroundings.environment surroundings.accountHome)
  let silent : FlowService.Behaviour := fun _ _ => FlowService.CheckerScript.silent
  let (outcome, _) := FlowService.Cli.run silent surroundings arguments
  IO.print outcome.stdout
  if let some line := outcome.errorLine? then IO.eprintln line
  return outcome.code.toUInt32
