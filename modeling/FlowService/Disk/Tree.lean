import FlowService.Path.Basic
import FlowService.Text.Utf8

/-!
A file tree records what stands at each location, and paths reach locations by walking through
directories and symbolic links.
-/

namespace FlowService

/-- Where something stands below the root: the names on the way, the innermost first. -/
abbrev Location := List String

/-- What a regular file holds. -/
structure File where
  contents : Bytes
  /-- Whether the file may be run. -/
  executable : Bool
  /-- Whether running the file runs the type checker. -/
  checker : Bool
  deriving DecidableEq, Repr, Inhabited

/-- What stands at a location. -/
inductive Entry
  | file (file : File)
  | directory
  | link (target : Path)
  deriving DecidableEq, Repr, Inhabited

/-- Everything below the root, which itself is always a directory. -/
structure FileTree where
  entries : List (Location × Entry)
  deriving Repr, Inhabited

namespace Location

/-- The path that names a location from the root. -/
def path (location : Location) : Path := ⟨true, location⟩

end Location

namespace FileTree

/-- What stands at a location. -/
def lookup? (tree : FileTree) : Location → Option Entry
  -- The root needs no entry of its own.
  | [] => some .directory
  | location => (tree.entries.find? (·.1 == location)).map (·.2)

/-- Whether a directory stands at a location. -/
def isDirectoryAt (tree : FileTree) (location : Location) : Bool :=
  -- A link is no directory, wherever it leads.
  tree.lookup? location == some .directory

/-- Walks from a directory through the given segments, handing the first link that it meets to
`follow`. -/
def walkWith (tree : FileTree) (follow : List String → Location → Option Location) :
    List String → Location → Option Location
  | [], here => some here
  | segment :: later, here =>
    -- Every segment, a silent one too, asks for a directory to stand in.
    if !tree.isDirectoryAt here then none
    else if segment == "" || segment == "." then walkWith tree follow later here
    else if segment == ".." then walkWith tree follow later here.tail
    else match tree.lookup? (segment :: here) with
      | none => none
      | some (.link target) =>
        follow (target.segments.reverse ++ later) (if target.absolute then [] else here)
      | some _ => walkWith tree follow later (segment :: here)

/-- Walks through the given segments, following at most so many links. -/
def walk (tree : FileTree) : Nat → List String → Location → Option Location
  -- A walk that meets one link too many leads nowhere.
  | 0 => tree.walkWith fun _ _ => none
  | links + 1 => tree.walkWith (tree.walk links)

/-- How many symbolic links one path may lead through. -/
def linkLimit : Nat := 40

end FileTree

/-- A file tree as a process sees it: with a directory in which relative paths begin. -/
structure Disk where
  tree : FileTree
  workingDirectory : Location
  deriving Repr, Inhabited

namespace Disk

/-- Where a path leads when every link is followed. -/
def locate? (disk : Disk) (path : Path) : Option Location :=
  -- A path that names nothing at all leads nowhere.
  if path.components.isEmpty then none
  else disk.tree.walk FileTree.linkLimit path.segments.reverse
    (if path.absolute then [] else disk.workingDirectory)

/-- Where a path leads when a link at its very end is not followed. -/
def locateEntry? (disk : Disk) (path : Path) : Option Location :=
  -- The directory is found first, and the last name is looked up in it as it stands.
  match path.segments with
  | [] => disk.locate? path
  | segment :: outer =>
    if segment == "" || segment == "." || segment == ".." then disk.locate? path
    else do
      let directory ←
        if outer.isEmpty && !path.absolute then some disk.workingDirectory
        else disk.locate? ⟨path.absolute, outer⟩
      if disk.tree.isDirectoryAt directory && (disk.tree.lookup? (segment :: directory)).isSome then
        some (segment :: directory)
      else none

/-- What a path leads to. -/
def lookup? (disk : Disk) (path : Path) : Option Entry :=
  -- The walk may end at a name under which nothing stands.
  (disk.locate? path).bind disk.tree.lookup?

/-- Whether a path leads anywhere. -/
def exists? (disk : Disk) (path : Path) : Bool := (disk.lookup? path).isSome

/-- The regular file that a path leads to. -/
def file? (disk : Disk) (path : Path) : Option File :=
  -- Links are followed, so a link is never what a path leads to.
  match disk.lookup? path with
  | some (.file file) => some file
  | _ => none

/-- Whether a path leads to a regular file. -/
def isFile (disk : Disk) (path : Path) : Bool := (disk.file? path).isSome

/-- Whether a path leads to a directory. -/
def isDirectory (disk : Disk) (path : Path) : Bool := disk.lookup? path == some .directory

/-- The one path without links, dots and doubled slashes that leads to the same place. -/
def canonical? (disk : Disk) (path : Path) : Option Path :=
  -- A place that the walk ends in but where nothing stands has no canonical path.
  match disk.locate? path with
  | some location => if (disk.tree.lookup? location).isSome then some location.path else none
  | none => none

/-- The text of a file; nothing for anything else and for bytes that are not text. -/
def readText? (disk : Disk) (path : Path) : Option String :=
  -- Bytes that are not text are not replaced.
  (disk.file? path).bind fun file => Utf8.decode? file.contents

end Disk

end FlowService
