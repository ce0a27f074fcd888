import FlowService.Disk.Change
import FlowService.Watch.Manual

/-!
A watch on the disk tells of the first change to a path. A path where nothing stands is watched
through the directory around it, where only changes to that one name count.
-/

namespace FlowService

/-- A watch on the disk. -/
structure DiskWatch where
  /-- Where the watched thing stands now; nothing once it was taken away. -/
  location : Option Location
  /-- The path under which changes are told. -/
  reported : Path
  /-- The paths that count, when not all of them do. -/
  wanted : Option (List Path)
  fired : Bool
  deriving Repr, Inhabited

namespace DiskWatch

/-- A path as it is seen from the root. -/
def fromRoot (disk : Disk) (path : Path) : Path :=
  -- The spelling is kept, only its beginning is filled in.
  if path.absolute then path else (Location.path disk.workingDirectory).join path

/-- The path of a name in the canonical form of the directory around it. -/
def canonicalTarget? (disk : Disk) (path : Path) : Option Path := do
  let around ← path.parent?
  -- The path itself need not lead anywhere yet, only the directory around it.
  let directory ← disk.canonical? around
  let name ← path.fileName?
  return directory.joinText name

/-- Begins to watch a path; where that cannot be done it gives the path that was tried. -/
def begin (disk : Disk) (path : Path) : Except Path DiskWatch :=
  -- Nothing can be watched where nothing stands.
  let watchAt (watched : Path) (wanted : Option (List Path)) : Except Path DiskWatch :=
    match disk.locate? (fromRoot disk watched) with
    | some location => .ok ⟨some location, fromRoot disk watched, wanted, false⟩
    | none => .error watched
  match path.parent? with
  | some around =>
    if disk.exists? path then watchAt path none
    else watchAt around (some (path :: (canonicalTarget? disk path).toList))
  | none => watchAt path none

/-- Whether a change to one location counts for a watch that stands at another. -/
def counts (watch : DiskWatch) (standing touched : Location) : Bool :=
  match watch.wanted with
  -- A directory hears of changes to what lies in it, but of nothing further below.
  | none => touched == standing || (!touched.isEmpty && touched.tail == standing)
  | some wanted =>
    match touched with
    | [] => false
    | name :: directory =>
      directory == standing && wanted.any (·.sameAs (watch.reported.joinText name))

/-- Where the watched thing stands after a change. -/
def locationAfter (changed : Changed) (standing : Location) : Option Location :=
  -- What stood at the target of a move is gone, and so is everything below it.
  let carried := match changed.moved with
    | none => some standing
    | some (source, target) =>
      if FileTree.isWithin source standing then some (FileTree.moved source target standing)
      else if FileTree.isWithin target standing then none
      else some standing
  -- A watch goes with the thing and not with its name, and ends with the thing.
  carried.filter fun location => (changed.disk.tree.lookup? location).isSome

/-- Notices a change. -/
def observe (watch : DiskWatch) (changed : Changed) : DiskWatch :=
  match watch.location with
  | none => watch
  | some standing =>
    { watch with
      fired := watch.fired || changed.touched.any (watch.counts standing)
      location := locationAfter changed standing }

end DiskWatch

end FlowService
