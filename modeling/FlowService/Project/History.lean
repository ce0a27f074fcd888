import FlowService.Project.Locator

/-!
A locator is asked, told and left to itself in any order, each time with the disk as it stands then.
-/

namespace FlowService

/-- Tells one watch that still waits of an event. -/
def ManualWatcher.tell (watcher : ManualWatcher) (watch : Nat) (event : WatchEvent) :
    ManualWatcher :=
  -- A watch that has its event or is closed takes no other.
  match watcher.mailbox watch with
  | .waiting =>
    deliver event { watcher with pending := watcher.pending.filter (·.2 != watch) } watch
  | _ => watcher

namespace Locator

/-- Something that happens to a locator. -/
inductive Action
  | resolve (source : WatchSource) (discover : Path → Option Path) (directory : Path)
  | invalidate (directory : Path)
  /-- All watches of a path that still wait are told of an event. -/
  | fire (path : Path) (event : WatchEvent)
  /-- One watch is told of an event. -/
  | tell (number : Nat) (event : WatchEvent)
  /-- One watch goes on. -/
  | run (watch : Nat)

/-- The directory that an action is about. -/
def Action.directory? : Action → Option Path
  | .resolve _ _ directory => some directory
  | .invalidate directory => some directory
  | _ => none

/-- The kind of watch that an action may make. -/
def Action.source? : Action → Option WatchSource
  | .resolve source _ _ => some source
  | _ => none

/-- The locator after an action. -/
def act (disk : Disk) (locator : Locator) : Action → Locator
  | .resolve source discover directory => (locator.resolve source disk discover directory).2
  | .invalidate directory => locator.invalidate disk directory
  | .fire path event => (locator.fire path event).2
  | .tell number event => { locator with watcher := locator.watcher.tell number event }
  | .run watch => locator.run watch

/-- What happened to a locator, each time with the disk as it was. -/
abbrev History := List (Disk × Action)

/-- A locator that knew nothing before all this happened to it. -/
def after (history : History) : Locator :=
  -- The disk of each moment is given, since it may change without any action of the locator.
  history.foldl (fun locator moment => locator.act moment.1 moment.2) empty

end Locator

end FlowService
