import FlowService.Watch.Manual

/-!
What becomes of a watch is told by the calls that come after it was made: the first one that fires
its path or closes it ends its wait.
-/

namespace FlowService.ManualWatcher

/-- Something that is done with the watches of a watcher. -/
inductive Call
  | watch (path : Path)
  /-- Nobody will look into the mailbox of a watch any more. -/
  | close (number : Nat)
  | fire (path : Path) (event : WatchEvent)
  | watched
  /-- The mailbox of a watch is looked into. -/
  | take (number : Nat)
  deriving DecidableEq, Repr, Inhabited

namespace Call

/-- The watcher after a call. -/
def run (watcher : ManualWatcher) : Call → ManualWatcher
  | .watch path => (watcher.watch path).2
  | .close number => watcher.close number
  | .fire path event => (watcher.fire path event).2
  | .watched => watcher.watched.2
  | .take number => (watcher.take number).2

/-- The event that a call takes out of the mailbox of a watch. -/
def taken? (watcher : ManualWatcher) (number : Nat) : Call → Option WatchEvent
  | .take other => if other = number then (watcher.take other).1 else none
  | _ => none

/-- Whether a call ends the wait of a watch, since it fires its path or closes it. -/
def ends (path : Path) (number : Nat) : Call → Bool
  | .fire fired _ => path.sameAs fired
  | .close closed => closed == number
  | _ => false

/-- The event that a call fires. -/
def event? : Call → Option WatchEvent
  | .fire _ event => some event
  | _ => none

end Call

/-- A watcher after some calls. -/
def after (calls : List Call) : ManualWatcher := calls.foldl Call.run empty

/-- The events that calls take out of the mailbox of a watch, in order. -/
def toldFrom (watcher : ManualWatcher) (number : Nat) : List Call → List WatchEvent
  | [] => []
  | call :: later =>
    (call.taken? watcher number).toList ++ toldFrom (call.run watcher) number later

/-- All events that a watch was told of. -/
def told (number : Nat) (calls : List Call) : List WatchEvent := toldFrom empty number calls

/-- A watch that was made, with all calls that came after it. -/
structure Lifetime where
  path : Path
  number : Nat
  later : List Call
  deriving DecidableEq, Repr, Inhabited

namespace Lifetime

/-- Whether the watch is neither fired nor closed. -/
def waits (life : Lifetime) : Bool := !life.later.any (Call.ends life.path life.number)

/-- The event of the first fire of the path, if it came before the watch was closed. -/
def due? (life : Lifetime) : Option WatchEvent :=
  (life.later.find? (Call.ends life.path life.number)).bind Call.event?

end Lifetime

/-- The watches that calls make, oldest first, when the first one gets a certain number. -/
def lifetimesFrom (number : Nat) : List Call → List Lifetime
  | [] => []
  | .watch path :: later => ⟨path, number, later⟩ :: lifetimesFrom (number + 1) later
  | _ :: later => lifetimesFrom number later

/-- The watches that calls make, oldest first. -/
def lifetimes (calls : List Call) : List Lifetime := lifetimesFrom 0 calls

end FlowService.ManualWatcher
