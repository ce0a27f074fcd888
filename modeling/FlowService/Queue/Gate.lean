import FlowService.Queue.Basic

/-!
A gate runs at most one poll for each root, and whoever asks for another one meanwhile shares the
result of the poll that is out.
-/

namespace FlowService

/-- A poll that was started. -/
structure PollRun (κ α : Type) where
  /-- The ticket of its task in the queue. -/
  task : Nat
  /-- The ticket that marks its entry. -/
  ticket : Nat
  root : κ
  /-- The result of its body, once the body is over and the entry is still to be dealt with. -/
  bodyResult : Option (Except CheckerError α)
  deriving Repr

/-- A poll after a change to what is known of the body of the poll of a task. -/
def PollRun.note {κ α : Type} (task : Nat) (bodyResult : Option (Except CheckerError α))
    (run : PollRun κ α) : PollRun κ α :=
  -- Each poll has a task of its own, so at most one poll of a gate is meant.
  if run.task = task then { run with bodyResult := bodyResult } else run

/-- The poll that is out for a root. -/
structure InFlight where
  ticket : Nat
  /-- The task whose result is shared. -/
  task : Nat
  deriving DecidableEq, Repr

/-- A gate for polls of roots that are told apart by keys. -/
structure StatusGate (κ α : Type) where
  nextTicket : Nat
  /-- The poll that is out for each root. -/
  inFlight : List (κ × InFlight)
  /-- All polls ever started. -/
  runs : List (PollRun κ α)
  queue : ProjectQueue κ α
  deriving Repr

namespace StatusGate

variable {κ α : Type} [DecidableEq κ]

/-- A gate without polls. -/
def empty : StatusGate κ α := ⟨0, [], [], ProjectQueue.empty⟩

/-- The poll that is out for a root. -/
def outstanding? (gate : StatusGate κ α) (root : κ) : Option InFlight :=
  -- The entry says nothing of how far its poll has come.
  (gate.inFlight.find? (·.1 == root)).map (·.2)

/-- Whether a poll is out for a root. -/
def isPolling (gate : StatusGate κ α) (root : κ) : Bool := (gate.outstanding? root).isSome

/-- The poll that belongs to a task. -/
def run? (gate : StatusGate κ α) (task : Nat) : Option (PollRun κ α) :=
  -- Polls are never taken out, not even when their entry is.
  gate.runs.find? (·.task == task)

/-- The result of the poll of a task, once that task is over. -/
def result? (gate : StatusGate κ α) (task : Nat) : Option (Except CheckerError α) :=
  -- What a body brought is shared only once its task is settled.
  gate.queue.result? task

/-- Joins the poll that is out for a root or starts one; gives the task whose result is shared and
whether it is a new one. -/
def poll (gate : StatusGate κ α) (root : κ) : Nat × Bool × StatusGate κ α :=
  match gate.outstanding? root with
  | some entry => (entry.task, false, gate)
  -- The entry and the task of a new poll are there before anybody else can ask.
  | none =>
    let (task, queue) := gate.queue.accept root
    (task, true,
      ⟨gate.nextTicket + 1, gate.inFlight ++ [(root, ⟨gate.nextTicket, task⟩)],
        gate.runs ++ [⟨task, gate.nextTicket, root, none⟩], queue⟩)

/-- Takes away the entry of a root when it still bears a ticket. -/
def clearEntry (gate : StatusGate κ α) (root : κ) (ticket : Nat) : StatusGate κ α :=
  -- The entry may be that of a later poll by now, which has to stay.
  if (gate.outstanding? root).any (·.ticket == ticket) then
    { gate with inFlight := gate.inFlight.filter (·.1 != root) }
  else gate

/-- Sets what is known of the body of the poll of a task. -/
def setBodyResult (gate : StatusGate κ α) (task : Nat)
    (bodyResult : Option (Except CheckerError α)) : StatusGate κ α :=
  { gate with runs := gate.runs.map (PollRun.note task bodyResult) }

/-- Something that happens to a gate. -/
inductive Action (κ α : Type)
  | poll (root : κ)
  | wake (task : Nat)
  | start (task : Nat)
  | finish (task : Nat) (bodyEnd : BodyEnd α)
  /-- A poll whose body is over takes away its entry. -/
  | leave (task : Nat)
  | clear (task : Nat)
  | settle (task : Nat)
  deriving Repr

/-- The gate after a step of its queue. -/
def withQueue (gate : StatusGate κ α) (action : ProjectQueue.Action κ α) :
    Option (StatusGate κ α) :=
  -- Neither entries nor polls notice what only the queue does.
  (gate.queue.step? action).map fun queue => { gate with queue := queue }

/-- The gate after an action, if the action can happen. -/
def step? (gate : StatusGate κ α) : Action κ α → Option (StatusGate κ α)
  | .poll root => some (gate.poll root).2.2
  | .wake task => gate.withQueue (.wake task)
  | .start task => gate.withQueue (.start task)
  | .finish task (.returned result) =>
    -- The task itself goes on only after it took the entry away.
    match gate.queue.stage? task, gate.run? task with
    | some .running, some ⟨_, _, _, none⟩ => some (gate.setBodyResult task (some result))
    | _, _ => none
  | .finish task (.panicked detail) =>
    -- A body that dies takes the whole task with it and leaves the entry behind.
    match gate.run? task with
    | some ⟨_, _, _, none⟩ => gate.withQueue (.finish task (.panicked detail))
    | _ => none
  | .leave task =>
    match gate.run? task with
    | some ⟨_, ticket, root, some result⟩ =>
      (gate.clearEntry root ticket).withQueue (.finish task (.returned result))
    | _ => none
  | .clear task => gate.withQueue (.clear task)
  | .settle task => gate.withQueue (.settle task)

/-- The gate after an action, or as it was when the action cannot happen. -/
def perform (gate : StatusGate κ α) (action : Action κ α) : StatusGate κ α :=
  (gate.step? action).getD gate

/-- Ends the body of a poll and lets its task settle. -/
def complete (gate : StatusGate κ α) (task : Nat) (bodyEnd : BodyEnd α) : StatusGate κ α :=
  -- After the death of a body the entry stays, since the second action cannot happen.
  [Action.finish task bodyEnd, .leave task, .clear task, .settle task].foldl perform gate

end StatusGate

end FlowService
