import FlowService.Project.Root
import FlowService.Watch.Manual

/-!
The locator remembers for every directory of a project which binary its files use, and a watch on
what the answer hangs on makes it forget.
-/

namespace FlowService

/-- How far a watch of the locator has come. -/
inductive WatchStage
  /-- It waits for its event, or for its turn to act on it. -/
  | live
  /-- It was told to stop and has not yet done so. -/
  | aborted
  /-- It acted on its event, or it stopped. -/
  | done
  deriving DecidableEq, Repr, Inhabited

/-- A watch that makes the locator forget the answers of some directories. -/
structure LocatorWatch where
  watched : Path
  /-- The directories whose answers are forgotten. -/
  chain : List Path
  /-- The number of the watch with the watcher. -/
  number : Nat
  stage : WatchStage
  deriving DecidableEq, Repr, Inhabited

/-- What kind of watches the locator can make. -/
inductive WatchSource
  | manual
  /-- Watching fails. -/
  | failing
  /-- The watcher of every watch has gone away at once. -/
  | closed
  /-- There is nothing that could run a watch. -/
  | none
  deriving DecidableEq, Repr, Inhabited

/-- The answers for directories, and the watches that keep them true. -/
structure Locator where
  /-- The answer of each directory, which may be that there is no binary. -/
  cache : List (Path × Option Path)
  /-- The latest watch of each directory that was resolved. -/
  registry : List (Path × Nat)
  /-- All watches ever made. -/
  watches : List LocatorWatch
  watcher : ManualWatcher
  /-- How often the binary was really looked for. -/
  asked : Nat
  deriving DecidableEq, Repr, Inhabited

namespace Locator

/-- A locator that knows nothing. -/
def empty : Locator := ⟨[], [], [], ManualWatcher.empty, 0⟩

/-- The value that a table of paths holds for a path, whatever its spelling. -/
def lookup {α : Type} (table : List (Path × α)) (path : Path) : Option α :=
  -- Keys are compared by what they stand for.
  (table.find? (·.1.sameAs path)).map (·.2)

/-- Takes a path out of a table. -/
def forget {α : Type} (table : List (Path × α)) (path : Path) : List (Path × α) :=
  table.filter fun entry => !entry.1.sameAs path

/-- Sets the value of a path in a table. -/
def remember {α : Type} (table : List (Path × α)) (path : Path) (value : α) : List (Path × α) :=
  -- No two keys of a table stand for the same path.
  forget table path ++ [(path, value)]

/-- Goes up two spellings of a directory together as far as the root, and lists what it meets. -/
def chainUp (root : Path) : List Path → Option Path → List Path
  | [], _ => []
  | real :: outer, given =>
    -- The spelling of the caller is listed beside the real one only where the two differ.
    let spelled := match given with
      | some path => if path.sameAs real then [] else [path]
      | none => []
    if real.sameAs root then real :: spelled
    else real :: spelled ++ chainUp root outer (given.bind Path.parent?)

/-- The directory that a path leads to, or the path as it is when it leads nowhere. -/
def realPath (disk : Disk) (directory : Path) : Path := (disk.canonical? directory).getD directory

/-- The root of the project around a directory, or the directory itself. -/
def rootAround (disk : Disk) (directory : Path) : Path :=
  (Project.root? disk (realPath disk directory)).getD (realPath disk directory)

/-- The directories that share an answer: a directory and those above it as far as the root of its
project, both as they are spelled and as they are found on the disk. -/
def chain (disk : Disk) (directory : Path) : List Path :=
  -- Links on the way make the two spellings go up along different directories.
  chainUp (rootAround disk directory) (realPath disk directory).ancestors (some directory)

/-- Forgets the answers of some directories. -/
def purge (cache : List (Path × Option Path)) (chain : List Path) : List (Path × Option Path) :=
  -- Answers for paths outside of the chain stay, even within the same project.
  chain.foldl forget cache

/-- The answer that is known for a directory. -/
def cached? (locator : Locator) (directory : Path) : Option (Option Path) :=
  lookup locator.cache directory

/-- Whether a watch is done. -/
def isDone (locator : Locator) (watch : Nat) : Bool :=
  -- A watch that was told to stop is not done before its next turn.
  (locator.watches[watch]?).all (·.stage == .done)

/-- Changes how far a watch has come. -/
def setStage (locator : Locator) (watch : Nat) (stage : WatchStage) : Locator :=
  { locator with watches := locator.watches.modify watch ({ · with stage := stage }) }

/-- Tells a watch to stop. -/
def abort (locator : Locator) (watch : Nat) : Locator :=
  -- Too late for a watch that acted on its event, in time for one that is about to.
  if locator.isDone watch then locator else locator.setStage watch .aborted

/-- Tells the watch of a directory to stop, if it has one. -/
def abortOf (locator : Locator) (directory : Path) : Locator :=
  match lookup locator.registry directory with
  | none => locator
  | some watch => locator.abort watch

/-- Adds a watch and makes it the one of a directory, in place of an earlier one. -/
def register (locator : Locator) (directory : Path) (watch : LocatorWatch) : Locator :=
  -- Watches that are done are dropped, and of the others only that of this directory is stopped.
  let number := locator.watches.length
  let kept := locator.registry.filter fun entry => !locator.isDone entry.2
  let stopped := { locator with registry := kept }.abortOf directory
  { stopped with
    registry := remember stopped.registry directory number
    watches := stopped.watches ++ [watch] }

/-- Makes a watch for the answer of a directory, where watches can be made. -/
def watchFor (source : WatchSource) (locator : Locator) (directory watched : Path)
    (chain : List Path) : Locator :=
  match source with
  | .none => locator
  | .failing => locator
  | .manual =>
    let (number, watcher) := locator.watcher.watch watched
    { locator with watcher := watcher }.register directory ⟨watched, chain, number, .live⟩
  | .closed =>
    let (number, watcher) := locator.watcher.watchClosed
    { locator with watcher := watcher }.register directory ⟨watched, chain, number, .live⟩

/-- The binary for the files in a directory: the known answer, or else the one that is found, which
is then known for the whole chain of the directory. -/
def resolve (source : WatchSource) (disk : Disk) (discover : Path → Option Path)
    (locator : Locator) (directory : Path) : Option Path × Locator :=
  match locator.cached? directory with
  | some answer => (answer, locator)
  | none =>
    -- An answer that there is no binary is remembered like any other.
    let answer := discover directory
    let chain := chain disk directory
    let known := { locator with
      cache := chain.foldl (fun cache entry => remember cache entry answer) locator.cache
      asked := locator.asked + 1 }
    -- An answer hangs on the binary, and the lack of one on the marker of the project.
    let watched := answer.getD ((rootAround disk directory).joinText Project.marker)
    (answer, known.watchFor source directory watched chain)

/-- Forgets the answers of the chain of a directory and stops its watch. -/
def invalidate (disk : Disk) (locator : Locator) (directory : Path) : Locator :=
  let stopped := locator.abortOf directory
  { stopped with
    -- The chain is worked out anew and may differ from that of the watch.
    cache := purge locator.cache (chain disk directory)
    registry := forget locator.registry directory }

/-- Stops the watches of all directories, when nobody will ask for an answer any more. -/
def stopAll (locator : Locator) : Locator :=
  -- A watch that is not registered could not be reached here.
  { locator.registry.foldl (fun stopped entry => stopped.abort entry.2) locator with
    registry := [] }

/-- Lets one watch go on: it acts on its event, or it stops. -/
def run (locator : Locator) (watch : Nat) : Locator :=
  match locator.watches[watch]? with
  | none => locator
  | some entry => match entry.stage with
    | .done => locator
    | .aborted =>
      { locator with watcher := locator.watcher.close entry.number }.setStage watch .done
    | .live => match locator.watcher.take entry.number with
      | (none, _) => locator
      | (some _, watcher) =>
        { locator with
          watcher := watcher
          cache := purge locator.cache entry.chain }.setStage watch .done

/-- Lets all watches go on as far as they can. -/
def settle (locator : Locator) : Locator :=
  -- No watch makes another one go on, so one turn for each is enough.
  (List.range locator.watches.length).foldl run locator

/-- Fires the watches of a path, and gives the number of those that were notified. -/
def fire (locator : Locator) (path : Path) (event : WatchEvent) : Nat × Locator :=
  let (count, watcher) := locator.watcher.fire path event
  (count, { locator with watcher := watcher })

/-- The paths with a watch that has not fired, oldest first. -/
def watched (locator : Locator) : List Path × Locator :=
  let (paths, watcher) := locator.watcher.watched
  (paths, { locator with watcher := watcher })

end Locator

end FlowService
