import FlowService.Client.Session
import FlowService.Project.History

/-!
All that happens to a client happens in small steps, and the steps for different questions come in
any order: callers enter the queue, tasks go on, processes and the pumps of their pipes do one thing
after the other, and the disk may change meanwhile.
-/

namespace FlowService

variable {platform : Option String}

/-- Whether a step is one that a task of a queue takes by itself. -/
def ProjectQueue.Action.isOwn {κ α : Type} : Action κ α → Bool
  | .wake _ => true
  | .start _ => true
  | .clear _ => true
  | .settle _ => true
  -- Callers draw and enter, and the body of a task ends with its question.
  | _ => false

/-- Whether a step is one that a task of a gate takes by itself. -/
def StatusGate.Action.isOwn {κ α : Type} : Action κ α → Bool
  | .poll _ => false
  | .finish _ _ => false
  | _ => true

/-- What comes of a process, once it is over and all that it printed was read. -/
def RunningChecker.outcome? (running : RunningChecker) (wording : Wording := .plain) :
    Option CheckerResult :=
  match running.result? wording with
  -- When a process died of the interrupt, nobody goes on reading what it printed.
  | some (.error .canceled) => some (.error .canceled)
  | some result =>
    if running.conversation.stdout.readerOpen || running.conversation.stderr.readerOpen then none
    else some result
  | none => none

/-- The signal that a process cannot catch. -/
def ExitReason.kill : Nat := 9

/-- Kills a process. -/
def RunningChecker.kill (running : RunningChecker) : RunningChecker :=
  { running with conversation := running.conversation.finish (.signal ExitReason.kill) }

namespace Session

/-- Whether the body of a turn runs. -/
def isUnderWay (session : Session) : Turn → Bool
  | .queued ticket => session.queue.isRunning ticket
  -- The task of a poll takes notice of the end of its body only later.
  | .polled task =>
    session.gate.queue.isRunning task && (session.gate.run? task).any (·.bodyResult.isNone)

/-- Ends the body of a turn with a result. -/
def endBody? (session : Session) (turn : Turn) (result : CheckerResult) : Option Session :=
  match turn with
  | .queued ticket =>
    (session.queue.step? (.finish ticket (.returned result))).map fun queue =>
      { session with queue := queue }
  | .polled task =>
    (session.gate.step? (.finish task (.returned result))).map fun gate =>
      { session with gate := gate }

/-- The request whose question is carried out in a turn. -/
def leader? (session : Session) (turn : Turn) : Option Request :=
  session.requests.find? fun request => request.turn == turn && request.leads

/-- Puts a process in the place of one as it was before. -/
def setProcess (session : Session) (index : Nat) (running : RunningChecker) : Session :=
  -- Processes are known by their places, and each keeps its turn.
  { session with processes := session.processes.modify index ({ · with snd := running }) }

/-- Decides about the question of a turn, and starts a process if one is needed. -/
def decide? (client : Client platform) (behaviour : Behaviour) (session : Session) (turn : Turn) :
    Option Session := do
  let request ← session.leader? turn
  -- A question is decided once: either its body ends with that, or it has a process from then on.
  if !session.isUnderWay turn || session.processes.any (·.1 == turn) then none
  else
    let (decision, locator) :=
      client.decide session.disk session.locator request.question (session.isCanceled request)
    let session := { session with locator := locator }
    match decision with
    | .done result => session.endBody? turn result
    | .run invocation =>
      let earlier := session.processes.map (·.2.invocation)
      match RunningChecker.start session.disk client.environment behaviour earlier invocation with
      | .error error => session.endBody? turn (.error error)
      | .ok running => some { session with processes := session.processes ++ [(turn, running)] }

/-- Lets a process or one of its pumps do one thing. -/
def move? (session : Session) (index : Nat) (move : Conversation.Move) : Option Session := do
  let (_, running) ← session.processes[index]?
  let conversation ←
    running.conversation.step? Pipe.standardCapacity session.opened.contains move
  return session.setProcess index { running with conversation := conversation }

/-- Interrupts a process whose question was canceled. -/
def interrupt? (session : Session) (index : Nat) : Option Session := do
  let (turn, running) ← session.processes[index]?
  let request ← session.leader? turn
  if session.isCanceled request && !running.interrupted && running.conversation.ended.isNone then
    return session.setProcess index running.interrupt
  else none

/-- Kills a process that did not heed an interrupt, and ends the body of its turn. -/
def kill? (session : Session) (index : Nat) : Option Session := do
  let (turn, running) ← session.processes[index]?
  if running.interrupted && running.conversation.ended.isNone then
    -- The body waits until the process is gone, and what it printed is not read any more.
    (session.setProcess index running.kill).endBody? turn
      (CheckerResult.ofEnding .killed running.conversation.output running.conversation.errors)
  else none

/-- Ends the body of the turn of a process that is over. -/
def finish? (session : Session) (index : Nat) : Option Session := do
  let (turn, running) ← session.processes[index]?
  let result ← running.outcome?
  session.endBody? turn result

end Session

/-- A question that goes through the queue, as it was asked. -/
structure Asking where
  question : Question
  token : Option String
  /-- The root of its project, on the disk as it stood then. -/
  root : RootKey
  /-- The ticket that was drawn for its task. -/
  ticket : Nat
  deriving DecidableEq, Repr, Inhabited

/-- A session together with all questions that were asked for its queue. -/
structure Traffic where
  session : Session
  /-- All of them in order, whether or not their tasks were admitted since. -/
  asked : List Asking
  deriving Repr

namespace Traffic

/-- Something that happens to a client. -/
inductive Action
  | ask (question : Question) (token : Option String)
  /-- The task of a question is admitted. -/
  | enter (ticket : Nat)
  | queue (action : ProjectQueue.Action RootKey CheckerOutput)
  | gate (action : StatusGate.Action RootKey CheckerOutput)
  | decide (turn : Turn)
  | move (process : Nat) (move : Conversation.Move)
  | interrupt (process : Nat)
  | kill (process : Nat)
  | finish (process : Nat)
  | cancel (token : String)
  | openGate (gate : String)
  /-- The disk becomes another one. -/
  | change (disk : Disk)
  | locate (action : Locator.Action)

/-- A client whose session has just begun. -/
def start (disk : Disk) : Traffic := ⟨Session.start disk, []⟩

/-- The same questions with another session. -/
def withSession (traffic : Traffic) (session : Session) : Traffic :=
  { traffic with session := session }

/-- Asks a question: a poll is joined or started at once, any other question draws a ticket. -/
def ask (traffic : Traffic) (question : Question) (token : Option String) : Traffic :=
  let session := traffic.session
  match question with
  | .status _ => traffic.withSession (session.ask question token).2
  -- The root is worked out before the caller comes to the queue.
  | _ =>
    ⟨{ session with queue := session.queue.draw }, traffic.asked ++
      [⟨question, token, Session.rootKey session.disk question.file, session.queue.nextTicket⟩]⟩

/-- Admits the task of a question that was asked. -/
def enter? (traffic : Traffic) (ticket : Nat) : Option Traffic := do
  let session := traffic.session
  let asking ← traffic.asked.find? (·.ticket == ticket)
  let queue ← session.queue.step? (.enter ticket asking.root)
  return traffic.withSession { session with
    queue := queue
    requests := session.requests ++ [⟨asking.question, asking.token, .queued ticket, true⟩] }

/-- What comes of an action, if it can happen. -/
def step? (client : Client platform) (behaviour : Behaviour) (traffic : Traffic) :
    Action → Option Traffic
  | .ask question token => some (traffic.ask question token)
  | .enter ticket => traffic.enter? ticket
  | .queue action =>
    if action.isOwn then
      (traffic.session.queue.step? action).map fun queue =>
        traffic.withSession { traffic.session with queue := queue }
    else none
  | .gate action =>
    if action.isOwn then
      (traffic.session.gate.step? action).map fun gate =>
        traffic.withSession { traffic.session with gate := gate }
    else none
  | .decide turn => (traffic.session.decide? client behaviour turn).map traffic.withSession
  | .move process move => (traffic.session.move? process move).map traffic.withSession
  | .interrupt process => (traffic.session.interrupt? process).map traffic.withSession
  | .kill process => (traffic.session.kill? process).map traffic.withSession
  | .finish process => (traffic.session.finish? process).map traffic.withSession
  | .cancel token =>
    some (traffic.withSession
      { traffic.session with canceled := traffic.session.canceled ++ [token] })
  | .openGate gate =>
    some (traffic.withSession { traffic.session with opened := traffic.session.opened ++ [gate] })
  | .change disk => some (traffic.withSession { traffic.session with disk := disk })
  | .locate action =>
    some (traffic.withSession { traffic.session with
      locator := traffic.session.locator.act traffic.session.disk action })

/-- What comes of actions one after the other, if all of them can happen in turn. -/
def run? (client : Client platform) (behaviour : Behaviour) (traffic : Traffic)
    (actions : List Action) : Option Traffic :=
  actions.foldlM (step? client behaviour) traffic

end Traffic

end FlowService
