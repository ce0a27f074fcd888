import FlowService.Path.Basic

/-!
A watch tells of the first change to a path and of nothing after it. The watches here are fired by
hand.
-/

namespace FlowService

/-- What a watch tells. -/
inductive WatchEvent
  /-- The path was written, made or removed. -/
  | changed
  /-- The watcher failed or went away. -/
  | failed (message : String)
  deriving DecidableEq, Repr, Inhabited

/-- The receiving end of a watch. -/
inductive Mailbox
  | waiting
  | holding (event : WatchEvent)
  /-- Nobody will look into it any more. -/
  | closed
  deriving DecidableEq, Repr, Inhabited

/-- Watches that are fired by hand, each with a mailbox of its own. -/
structure ManualWatcher where
  /-- The watches not yet fired, oldest first; some may have a closed mailbox. -/
  pending : List (Path × Nat)
  /-- The mailboxes of all watches ever made, by their numbers. -/
  mailboxes : List Mailbox
  deriving DecidableEq, Repr, Inhabited

namespace ManualWatcher

/-- A watcher without watches. -/
def empty : ManualWatcher := ⟨[], []⟩

/-- What the mailbox of a watch is like; one that was never made is closed. -/
def mailbox (watcher : ManualWatcher) (watch : Nat) : Mailbox :=
  -- A number stands for the place of the mailbox among all that were made.
  watcher.mailboxes.getD watch .closed

/-- Whether somebody still waits for a watch. -/
def isOpen (watcher : ManualWatcher) (watch : Nat) : Bool := watcher.mailbox watch != .closed

/-- Makes a watch of a path. -/
def watch (watcher : ManualWatcher) (path : Path) : Nat × ManualWatcher :=
  -- Mailboxes are never taken out, so the new number was not used before.
  let number := watcher.mailboxes.length
  (number, ⟨watcher.pending ++ [(path, number)], watcher.mailboxes ++ [.waiting]⟩)

/-- Makes a watch whose watcher has gone away. -/
def watchClosed (watcher : ManualWatcher) : Nat × ManualWatcher :=
  (watcher.mailboxes.length,
    -- The failure is there to be read before anything can happen to the path.
    { watcher with mailboxes := watcher.mailboxes ++ [.holding (.failed "watcher closed")] })

/-- Closes the mailbox of a watch. -/
def close (watcher : ManualWatcher) (watch : Nat) : ManualWatcher :=
  -- The entry among those not yet fired stays behind.
  { watcher with mailboxes := watcher.mailboxes.set watch .closed }

/-- The event in the mailbox of a watch, which is closed when it is taken out. -/
def take (watcher : ManualWatcher) (watch : Nat) : Option WatchEvent × ManualWatcher :=
  match watcher.mailbox watch with
  -- A watch tells only once.
  | .holding event => (some event, watcher.close watch)
  | _ => (none, watcher)

/-- Puts an event into an open mailbox. -/
def deliver (event : WatchEvent) (watcher : ManualWatcher) (watch : Nat) : ManualWatcher :=
  -- An event for a closed mailbox is lost.
  if watcher.isOpen watch then
    { watcher with mailboxes := watcher.mailboxes.set watch (.holding event) }
  else watcher

/-- Fires all pending watches of a path, and gives the number of those that were notified. -/
def fire (watcher : ManualWatcher) (path : Path) (event : WatchEvent) : Nat × ManualWatcher :=
  -- All watches of the path are used up, also those that nobody waits for any more.
  let matching := (watcher.pending.filter (·.1.sameAs path)).map (·.2)
  let kept := watcher.pending.filter fun entry => !entry.1.sameAs path
  (matching.countP watcher.isOpen,
    matching.foldl (deliver event) { watcher with pending := kept })

/-- The paths of the watches that are neither fired nor closed, oldest first. -/
def watched (watcher : ManualWatcher) : List Path × ManualWatcher :=
  -- Closed watches are forgotten on the occasion.
  let pending := watcher.pending.filter fun entry => watcher.isOpen entry.2
  (pending.map (·.1), { watcher with pending := pending })

end ManualWatcher

end FlowService
