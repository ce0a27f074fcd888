import FlowService.Disk.Tree

/-! Changes to a file tree, each with the locations whose contents or whose entry they touched. -/

namespace FlowService

namespace FileTree

/-- Puts something at a location, in place of what stood there. -/
def put (tree : FileTree) (location : Location) (entry : Entry) : FileTree :=
  -- There is at most one entry for each location.
  ⟨tree.entries.filter (·.1 != location) ++ [(location, entry)]⟩

/-- Whether a location lies at or below another one. -/
def isWithin (outer location : Location) : Bool := outer.isSuffixOf location

/-- Takes away a location and everything below it. -/
def remove (tree : FileTree) (location : Location) : FileTree :=
  -- Nothing may stand below a location where nothing stands.
  ⟨tree.entries.filter fun entry => !isWithin location entry.1⟩

/-- The location that a move carries a location to. -/
def moved (source target location : Location) : Location :=
  -- The names below the source come first, and they are kept.
  if isWithin source location then location.take (location.length - source.length) ++ target
  else location

/-- Moves a location and everything below it, in place of what stood at the target. -/
def move (tree : FileTree) (source target : Location) : FileTree :=
  -- What stood at the target is gone before anything arrives there.
  ⟨(tree.remove target).entries.map fun entry => (moved source target entry.1, entry.2)⟩

end FileTree

/-- A disk after a change, and what the change did. -/
structure Changed where
  disk : Disk
  /-- The locations whose contents or whose entry changed. -/
  touched : List Location
  /-- The location that was moved, and where to. -/
  moved : Option (Location × Location)

namespace Disk

/-- Makes the directories that the segments walk through, beginning at a directory. -/
def makeDirectoriesFrom (disk : Disk) :
    List String → Location → List Location → Option (Location × Changed)
  | [], here, touched => some (here, ⟨disk, touched, none⟩)
  | segment :: later, here, touched =>
    if segment == "" || segment == "." then makeDirectoriesFrom disk later here touched
    else if segment == ".." then makeDirectoriesFrom disk later here.tail touched
    else match disk.tree.lookup? (segment :: here) with
      | none =>
        let grown := { disk with tree := disk.tree.put (segment :: here) .directory }
        makeDirectoriesFrom grown later (segment :: here) (touched ++ [segment :: here])
      | some .directory => makeDirectoriesFrom disk later (segment :: here) touched
      | some (.file _) => none
      | some (.link _) =>
        -- A link is passed through when it leads to a directory.
        match disk.locate? (Location.path (segment :: here)) with
        | some there =>
          if disk.tree.isDirectoryAt there then makeDirectoriesFrom disk later there touched
          else none
        | none => none

/-- Makes a directory and all directories above it that are missing. -/
def makeDirectories (disk : Disk) (path : Path) : Option (Location × Changed) :=
  disk.makeDirectoriesFrom path.segments.reverse
    (if path.absolute then [] else disk.workingDirectory) []

/-- The directory that a path lies in and the name that it bears there. -/
def nameIn? (disk : Disk) (path : Path) : Option Location := do
  let around ← path.parent?
  let name ← path.fileName?
  -- A bare name lies in the directory where relative paths begin.
  let directory ← if around == Path.empty then some disk.workingDirectory else disk.locate? around
  if disk.tree.isDirectoryAt directory then some (name :: directory) else none

/-- Where a file comes to stand that is written under a path, through at most so many links that
lead nowhere yet. -/
def fileLocation? (disk : Disk) : Nat → Path → Option Location
  | 0, _ => none
  | links + 1, path =>
    match disk.locate? path with
    | some location => some location
    | none => do
      let location ← disk.nameIn? path
      match disk.tree.lookup? location with
      | none => some location
      -- The file comes to stand where the link leads, which is reckoned from around the link.
      | some (.link target) =>
        fileLocation? disk links ((Location.path location.tail).join target)
      | some _ => none

/-- Writes a file in a directory that exists; the contents are made from those that are there. -/
def writeFile (disk : Disk) (path : Path) (contents : Option File → File) : Option Changed := do
  let location ← disk.fileLocation? FileTree.linkLimit path
  let file ← match disk.tree.lookup? location with
    | none => some (contents none)
    | some (.file old) => some (contents (some old))
    -- A directory cannot be written to.
    | some _ => none
  return ⟨{ disk with tree := disk.tree.put location (.file file) }, [location], none⟩

/-- Makes the directories around a path and puts an entry at its end. -/
def place (disk : Disk) (path : Path) (entry : Entry) : Option Changed :=
  match entry with
  | .directory => (disk.makeDirectories path).map (·.2)
  | .file file => do
    let around ← path.parent?
    let (_, made) ← disk.makeDirectories around
    let written ← made.disk.writeFile path fun _ => file
    return ⟨written.disk, made.touched ++ written.touched, none⟩
  | .link target => do
    let around ← path.parent?
    let name ← path.fileName?
    let (directory, made) ← disk.makeDirectories around
    let location := name :: directory
    -- A link is never made over something that stands there.
    if (made.disk.tree.lookup? location).isSome then none
    else
      return ⟨{ made.disk with tree := made.disk.tree.put location (.link target) },
        made.touched ++ [location], none⟩

/-- Takes away what stands at a path, with everything below it. -/
def erase (disk : Disk) (path : Path) : Option Changed := do
  let location ← disk.locateEntry? path
  -- A link is taken away itself, and what it leads to stays.
  let within := disk.tree.entries.filter fun entry => FileTree.isWithin location entry.1
  return ⟨{ disk with tree := disk.tree.remove location }, within.map (·.1), none⟩

/-- Gives what stands at one path another name. -/
def rename (disk : Disk) (source target : Path) : Option Changed := do
  let old ← disk.locateEntry? source
  let new ← disk.nameIn? target
  -- Nothing happens to a thing that gets the name it has.
  if new == old then return ⟨disk, [], none⟩
  else
    return ⟨{ disk with tree := disk.tree.move old new }, [old, new], some (old, new)⟩

end Disk

end FlowService
