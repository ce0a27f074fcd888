import FlowService.Queue.Progress

/-!
Callers are promised the results of tasks. They may ask for a result or give the promise up while
the tasks go on by themselves.
-/

namespace FlowService

/-- What has become of a promise. -/
inductive Fate (α : Type)
  | held
  | dropped
  | kept (result : Except CheckerError α)
  deriving Repr

/-- The promise of the result of a task. -/
structure Promise (α : Type) where
  task : Nat
  fate : Fate α
  deriving Repr

/-- Something that carries out tasks whose results are promised. -/
structure Service (σ β α : Type) where
  /-- The state after an action, if the action can happen. -/
  act? : σ → β → Option σ
  /-- The task whose result an action promises. -/
  promised? : σ → β → Option Nat
  result? : σ → Nat → Option (Except CheckerError α)

/-- The state of a service and all promises that it made, in order. -/
structure Served (σ α : Type) where
  state : σ
  promises : List (Promise α)
  deriving Repr

/-- Something that happens to a service, by itself or by its callers. -/
inductive Occurrence (β : Type)
  | act (action : β)
  /-- The holder of a promise asks for the result. -/
  | collect (promise : Nat)
  | drop (promise : Nat)
  deriving Repr

namespace Served

variable {σ α : Type}

/-- A service that made no promises. -/
def fresh (state : σ) : Served σ α := ⟨state, []⟩

/-- The task of a promise that is held. -/
def held? (served : Served σ α) (promise : Nat) : Option Nat :=
  -- A promise that was kept or dropped has no holder any more.
  match served.promises[promise]? with
  | some ⟨task, .held⟩ => some task
  | _ => none

/-- Settles what becomes of a promise. -/
def setFate (served : Served σ α) (promise : Nat) (fate : Fate α) : Served σ α :=
  -- Callers are known by the place of their promise, which never changes.
  { served with promises := served.promises.modify promise ({ · with fate := fate }) }

end Served

namespace Service

variable {σ β α : Type}

/-- The service after an occurrence, if it can happen. -/
def step? (service : Service σ β α) (served : Served σ α) : Occurrence β → Option (Served σ α)
  | .act action => (service.act? served.state action).map fun state =>
    ⟨state, served.promises ++ (service.promised? served.state action).toList.map (⟨·, .held⟩)⟩
  | .collect promise => (served.held? promise).map fun task =>
    match service.result? served.state task with
    | some result => served.setFate promise (.kept result)
    -- A result that is not there yet is still promised.
    | none => served
  | .drop promise => (served.held? promise).map fun _ => served.setFate promise .dropped

/-- The service after a schedule of occurrences, if all of them can happen in turn. -/
def run? (service : Service σ β α) (served : Served σ α) (schedule : List (Occurrence β)) :
    Option (Served σ α) :=
  -- A schedule with an occurrence that cannot happen in its turn is no run.
  schedule.foldlM service.step? served

end Service

/-- The actions among occurrences. -/
def Occurrence.actions {β : Type} (schedule : List (Occurrence β)) : List β :=
  -- What callers do with their promises is left out.
  schedule.filterMap fun occurrence => match occurrence with
    | .act action => some action
    | _ => none

namespace ProjectQueue

variable {κ α : Type} [DecidableEq κ]

/-- A queue whose callers are promised the result of the task that they admit. -/
def service : Service (ProjectQueue κ α) (Action κ α) α where
  act? := step?
  promised? _ action := match action with
    | .enter ticket _ => some ticket
    | _ => none
  result? := result?

/-- What is to be seen of an action from outside. -/
def Action.event? : Action κ α → Option QueueEvent
  -- Bodies are seen to start and to end, and nothing else is seen of a task.
  | .start ticket => some (.started ticket)
  | .finish ticket _ => some (.ended ticket)
  | _ => none

end ProjectQueue

namespace StatusGate

variable {κ α : Type} [DecidableEq κ]

/-- A gate whose callers are promised the result of the poll that they join or start. -/
def service : Service (StatusGate κ α) (Action κ α) α where
  act? := step?
  promised? gate action := match action with
    | .poll root => some (gate.poll root).1
    | _ => none
  result? := result?

/-- What is to be seen of an action from outside. -/
def Action.event? : Action κ α → Option QueueEvent
  -- The end of a body is seen before its task notices it.
  | .start task => some (.started task)
  | .finish task _ => some (.ended task)
  | _ => none

end StatusGate

end FlowService
