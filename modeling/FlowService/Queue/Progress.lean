import FlowService.Queue.Gate

/-! Tasks are taken as far as they can go, given which bodies are done. -/

namespace FlowService

/-- Something to be seen of a task from outside. -/
inductive QueueEvent
  | started (ticket : Nat)
  | ended (ticket : Nat)
  deriving DecidableEq, Repr

namespace ProjectQueue

variable {κ α : Type} [DecidableEq κ]

/-- Whether the body of a task runs. -/
def isRunning (queue : ProjectQueue κ α) (ticket : Nat) : Bool :=
  -- A body that ended without the notice of its task counts as running here.
  match queue.stage? ticket with
  | some .running => true
  | _ => false

/-- Takes one task as far as it can go. -/
def advanceTask (done : Nat → Option (BodyEnd α)) (state : ProjectQueue κ α × List QueueEvent)
    (ticket : Nat) : ProjectQueue κ α × List QueueEvent :=
  let (queue, events) := state
  -- A task that has to wait stays as it is, since it cannot start.
  let (queue, events) := match (queue.perform (.wake ticket)).step? (.start ticket) with
    | some started => (started, events ++ [QueueEvent.started ticket])
    | none => (queue, events)
  -- A body that is done settles its task at once.
  match if queue.isRunning ticket then done ticket else none with
  | some bodyEnd => (queue.complete ticket bodyEnd, events ++ [QueueEvent.ended ticket])
  | none => (queue, events)

/-- Takes all tasks as far as they can go, in the order of their admission, which is enough since a
task waits only for earlier ones. -/
def advance (done : Nat → Option (BodyEnd α)) (queue : ProjectQueue κ α) :
    ProjectQueue κ α × List QueueEvent :=
  (queue.tasks.map (·.ticket)).foldl (advanceTask done) (queue, [])

end ProjectQueue

namespace StatusGate

variable {κ α : Type} [DecidableEq κ]

/-- Takes one poll as far as it can go. -/
def advanceTask (done : Nat → Option (BodyEnd α)) (state : StatusGate κ α × List QueueEvent)
    (task : Nat) : StatusGate κ α × List QueueEvent :=
  let (gate, events) := state
  -- The task of a poll starts under the same conditions as any other.
  let (gate, events) := match (gate.perform (.wake task)).step? (.start task) with
    | some started => (started, events ++ [QueueEvent.started task])
    | none => (gate, events)
  match if gate.queue.isRunning task then done task else none with
  | some bodyEnd => (gate.complete task bodyEnd, events ++ [QueueEvent.ended task])
  | none => (gate, events)

/-- Takes all polls as far as they can go. -/
def advance (done : Nat → Option (BodyEnd α)) (gate : StatusGate κ α) :
    StatusGate κ α × List QueueEvent :=
  (gate.queue.tasks.map (·.ticket)).foldl (advanceTask done) (gate, [])

end StatusGate

end FlowService
