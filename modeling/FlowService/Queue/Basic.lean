import FlowService.Checker.Error

/-!
A queue runs the tasks of each root one after the other, in the order of their admission. A task
waits for the end of the one before it and leaves a mark of its own end for the next.
-/

namespace FlowService

/-- How the body of a task ended. -/
inductive BodyEnd (α : Type)
  | returned (result : Except CheckerError α)
  /-- It died without a result. -/
  | panicked (detail : String)
  deriving Repr

/-- How far a task has come. -/
inductive Stage (α : Type)
  /-- It waits for the task before it. -/
  | waiting
  /-- The task before it is over, and its body is yet to start. -/
  | awake
  /-- Its body runs. -/
  | running
  /-- Its body is over, and its root may still be marked with its ticket. -/
  | ended (result : Except CheckerError α)
  /-- It is done with the mark of its root, and its end is not yet announced. -/
  | cleared (result : Except CheckerError α)
  /-- It is over, and the next task may start. -/
  | settled (result : Except CheckerError α)
  deriving Repr

namespace BodyEnd

variable {α : Type}

/-- What the task of a body has to give. -/
def result : BodyEnd α → Except CheckerError α
  | .returned result => result
  | .panicked detail => .error (.taskFailed detail)

/-- How far the end of its body takes a task. -/
def stage : BodyEnd α → Stage α
  | .returned result => .ended result
  -- A task that dies announces its end, but its root stays marked.
  | .panicked detail => .cleared (.error (.taskFailed detail))

end BodyEnd

/-- A task that was admitted. -/
structure QueueTask (κ α : Type) where
  ticket : Nat
  root : κ
  /-- The ticket of the task whose end it waits for. -/
  previous : Option Nat
  stage : Stage α
  deriving Repr

/-- A task after a change to how far the task with a ticket has come. -/
def QueueTask.restage {κ α : Type} (ticket : Nat) (stage : Stage α) (task : QueueTask κ α) :
    QueueTask κ α :=
  -- No two tasks share a ticket, so at most one task of a queue is meant.
  if task.ticket = ticket then { task with stage := stage } else task

/-- A queue of tasks for roots that are told apart by keys. -/
structure ProjectQueue (κ α : Type) where
  nextTicket : Nat
  /-- The tickets that are drawn and not yet used for an admission. -/
  drawn : List Nat
  /-- The ticket of the latest task of each busy root. -/
  tails : List (κ × Nat)
  /-- All tasks in the order of their admission. -/
  tasks : List (QueueTask κ α)
  deriving Repr

namespace ProjectQueue

variable {κ α : Type} [DecidableEq κ]

/-- A queue without tasks. -/
def empty : ProjectQueue κ α := ⟨0, [], [], []⟩

/-- The task with a ticket. -/
def task? (queue : ProjectQueue κ α) (ticket : Nat) : Option (QueueTask κ α) :=
  -- Tasks are never taken out, so a ticket leads to its task for good.
  queue.tasks.find? (·.ticket == ticket)

/-- How far the task with a ticket has come. -/
def stage? (queue : ProjectQueue κ α) (ticket : Nat) : Option (Stage α) :=
  (queue.task? ticket).map (·.stage)

/-- Whether the task with a ticket is over. -/
def isSettled (queue : ProjectQueue κ α) (ticket : Nat) : Bool :=
  match queue.stage? ticket with
  | some (.settled _) => true
  | _ => false

/-- The result of a task that is over. -/
def result? (queue : ProjectQueue κ α) (ticket : Nat) : Option (Except CheckerError α) :=
  match queue.stage? ticket with
  | some (.settled result) => some result
  | _ => none

/-- Whether a task waits for nothing any more. -/
def isReady (queue : ProjectQueue κ α) (task : QueueTask κ α) : Bool :=
  -- A task without one before it has nothing to wait for, and every other waits for one end only.
  task.previous.all queue.isSettled

/-- The latest ticket of a root, if the root is busy. -/
def tail? (queue : ProjectQueue κ α) (root : κ) : Option Nat :=
  (queue.tails.find? (·.1 == root)).map (·.2)

/-- How many roots have a task that is not over. -/
def busyRoots (queue : ProjectQueue κ α) : Nat := queue.tails.length

/-- Changes how far the task with a ticket has come. -/
def setStage (queue : ProjectQueue κ α) (ticket : Nat) (stage : Stage α) : ProjectQueue κ α :=
  -- A task keeps its place among the others whatever stage it comes to.
  { queue with tasks := queue.tasks.map (QueueTask.restage ticket stage) }

/-- Draws a ticket. -/
def draw (queue : ProjectQueue κ α) : ProjectQueue κ α :=
  -- Tickets are drawn ahead of the admission, so they may be used in another order.
  { queue with nextTicket := queue.nextTicket + 1, drawn := queue.drawn ++ [queue.nextTicket] }

/-- Admits a task with a ticket that was drawn, behind the latest task of its root. -/
def enter (queue : ProjectQueue κ α) (ticket : Nat) (root : κ) : ProjectQueue κ α :=
  { queue with
    -- The task waits for the one that the mark names, and the mark names it from now on.
    drawn := queue.drawn.erase ticket
    tails := queue.tails.filter (·.1 != root) ++ [(root, ticket)]
    tasks := queue.tasks ++ [⟨ticket, root, queue.tail? root, .waiting⟩] }

/-- Takes the mark off a root when it still bears a ticket. -/
def clearTail (queue : ProjectQueue κ α) (root : κ) (ticket : Nat) : ProjectQueue κ α :=
  -- A later task may have put its own mark in the meantime, which has to stay.
  if queue.tail? root = some ticket then
    { queue with tails := queue.tails.filter (·.1 != root) }
  else queue

/-- Something that happens to a queue. -/
inductive Action (κ α : Type)
  | draw
  | enter (ticket : Nat) (root : κ)
  /-- A task notices that the one before it is over. -/
  | wake (ticket : Nat)
  | start (ticket : Nat)
  | finish (ticket : Nat) (bodyEnd : BodyEnd α)
  | clear (ticket : Nat)
  | settle (ticket : Nat)
  deriving Repr

/-- The queue after an action, if the action can happen. -/
def step? (queue : ProjectQueue κ α) : Action κ α → Option (ProjectQueue κ α)
  | .draw => some queue.draw
  | .enter ticket root =>
    if queue.drawn.contains ticket then some (queue.enter ticket root) else none
  -- Of all actions on tasks only this one asks for another task.
  | .wake ticket => do
    let task ← queue.task? ticket
    match task.stage with
    | .waiting => if queue.isReady task then some (queue.setStage ticket .awake) else none
    | _ => none
  | .start ticket => do
    let task ← queue.task? ticket
    match task.stage with
    | .awake => some (queue.setStage ticket .running)
    | _ => none
  | .finish ticket bodyEnd => do
    let task ← queue.task? ticket
    match task.stage with
    | .running => some (queue.setStage ticket bodyEnd.stage)
    | _ => none
  | .clear ticket => do
    let task ← queue.task? ticket
    match task.stage with
    -- The mark is gone before the end is announced, so a new task may come in between.
    | .ended result =>
      some ((queue.clearTail task.root ticket).setStage ticket (.cleared result))
    | _ => none
  | .settle ticket => do
    let task ← queue.task? ticket
    match task.stage with
    | .cleared result => some (queue.setStage ticket (.settled result))
    | _ => none

/-- The queue after an action, or as it was when the action cannot happen. -/
def perform (queue : ProjectQueue κ α) (action : Action κ α) : ProjectQueue κ α :=
  (queue.step? action).getD queue

/-- Admits a task, and gives its ticket. -/
def accept (queue : ProjectQueue κ α) (root : κ) : Nat × ProjectQueue κ α :=
  -- A caller who is not interrupted enters with the ticket just drawn.
  (queue.nextTicket, queue.draw.enter queue.nextTicket root)

/-- Ends a body and lets its task settle. -/
def complete (queue : ProjectQueue κ α) (ticket : Nat) (bodyEnd : BodyEnd α) : ProjectQueue κ α :=
  -- After the death of a body nobody clears the mark, so the second action changes nothing.
  ((queue.perform (.finish ticket bodyEnd)).perform (.clear ticket)).perform (.settle ticket)

end ProjectQueue

end FlowService
