import FlowService.Queue.Progress

/-!
A rehearsal drives a queue or a gate with bodies whose ends are written down beforehand, for callers
who may collect the results.
-/

namespace FlowService

/-- A body whose end is written down. -/
structure ScriptedBody (α : Type) where
  name : String
  ticket : Nat
  /-- Whether it ends without being told to. -/
  auto : Bool
  /-- Whether it was told to end. -/
  released : Bool
  bodyEnd : BodyEnd α

/-- What a caller gets who asks for a result. -/
inductive Collected (α : Type)
  /-- There is no such caller, or not any more. -/
  | gone
  | pending
  | result (result : Except CheckerError α)

/-- The bodies of a rehearsal, and the callers who still hold the promise of a result. -/
structure Rehearsal (α : Type) where
  bodies : List (ScriptedBody α)
  /-- Each caller with the ticket whose result was promised. -/
  callers : List (String × Nat)

namespace Rehearsal

variable {α : Type}

/-- A rehearsal without bodies. -/
def empty : Rehearsal α := ⟨[], []⟩

/-- Promises the result of a ticket to a caller. -/
def promise (rehearsal : Rehearsal α) (name : String) (ticket : Nat) : Rehearsal α :=
  -- A name that is used again stands for the new promise only.
  { rehearsal with callers := rehearsal.callers.filter (·.1 != name) ++ [(name, ticket)] }

/-- Writes down the end of a body. -/
def enlist (rehearsal : Rehearsal α) (body : ScriptedBody α) : Rehearsal α :=
  { rehearsal with bodies := rehearsal.bodies ++ [body] }

/-- Whether a body still waits to be told to end. -/
def isHeld (name : String) (body : ScriptedBody α) : Bool :=
  body.name == name && !body.auto && !body.released

/-- Tells the body of a name to end, and gives whether one waited for that. -/
def release (rehearsal : Rehearsal α) (name : String) : Bool × Rehearsal α :=
  -- Bodies of one name are all told at once.
  let bodies := rehearsal.bodies.map fun body =>
    if isHeld name body then { body with released := true } else body
  (rehearsal.bodies.any (isHeld name), { rehearsal with bodies := bodies })

/-- Breaks the promise to a caller, and gives whether there was one. -/
def drop (rehearsal : Rehearsal α) (name : String) : Bool × Rehearsal α :=
  (rehearsal.callers.any (·.1 == name),
    { rehearsal with callers := rehearsal.callers.filter (·.1 != name) })

/-- Asks for the result that was promised to a caller, which is handed over only once. -/
def collect (rehearsal : Rehearsal α) (result? : Nat → Option (Except CheckerError α))
    (name : String) : Collected α × Rehearsal α :=
  match rehearsal.callers.find? (·.1 == name) with
  | none => (.gone, rehearsal)
  -- A caller who is told to wait may ask again.
  | some caller => match result? caller.2 with
    | none => (.pending, rehearsal)
    | some result => (.result result, (rehearsal.drop name).2)

/-- How the body of a ticket ends, if it may end. -/
def bodyEnd? (rehearsal : Rehearsal α) (ticket : Nat) : Option (BodyEnd α) :=
  (rehearsal.bodies.find? fun body => body.ticket == ticket && (body.auto || body.released)).map
    (·.bodyEnd)

/-- The text of an event, with the name of the body. -/
def eventText (rehearsal : Rehearsal α) (event : QueueEvent) : String :=
  let name (ticket : Nat) : String :=
    ((rehearsal.bodies.find? (·.ticket == ticket)).map (·.name)).getD ""
  match event with
  | .started ticket => "start " ++ name ticket
  | .ended ticket => "end " ++ name ticket

end Rehearsal

end FlowService
