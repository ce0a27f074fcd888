import FlowService.Client.Basic
import FlowService.Process.Script
import FlowService.Queue.Progress

/-!
A session holds all questions of a client with the queue, the gate and the processes that work on
them. Questions about one project go one by one, and questions for its state are shared.
-/

namespace FlowService

variable {platform : Option String}

/-- What stands for the root of a project in the queue and in the gate. -/
abbrev RootKey := List Component

/-- Where the result of a question comes from. -/
inductive Turn
  | queued (ticket : Nat)
  | polled (task : Nat)
  deriving DecidableEq, Repr, Inhabited

/-- A question that was asked. -/
structure Request where
  question : Question
  /-- The name of what may cancel it. -/
  token : Option String
  turn : Turn
  /-- Whether the question is carried out itself and does not share the result of another one. -/
  leads : Bool
  deriving DecidableEq, Repr, Inhabited

/-- All that changes while questions are asked. -/
structure Session where
  disk : Disk
  locator : Locator
  queue : ProjectQueue RootKey CheckerOutput
  gate : StatusGate RootKey CheckerOutput
  /-- All questions in the order in which they were asked. -/
  requests : List Request
  /-- All processes in the order in which they were started. -/
  processes : List (Turn × RunningChecker)
  /-- The tokens that have fired. -/
  canceled : List String
  /-- The gates that are open to processes. -/
  opened : List String
  deriving Repr

namespace Session

/-- A session in which nothing was asked. -/
def start (disk : Disk) : Session :=
  ⟨disk, Locator.empty, ProjectQueue.empty, StatusGate.empty, [], [], [], []⟩

/-- What stands for the root of the project of a file. -/
def rootKey (disk : Disk) (file : Path) : RootKey := (Project.rootOf disk file).components

/-- Asks a question, and gives the number under which its result is found. -/
def ask (session : Session) (question : Question) (token : Option String) : Nat × Session :=
  -- The project is that of the disk as it stands when the question is asked.
  let root := rootKey session.disk question.file
  let number := session.requests.length
  match question with
  | .status _ =>
    -- A question for the state of the project cannot be canceled, since others may share it.
    let (task, leads, gate) := session.gate.poll root
    (number, { session with
      gate := gate
      requests := session.requests ++ [⟨question, none, .polled task, leads⟩] })
  | _ =>
    let (ticket, queue) := session.queue.accept root
    (number, { session with
      queue := queue
      requests := session.requests ++ [⟨question, token, .queued ticket, true⟩] })

/-- The result of a turn that is over. -/
def resultOf? (session : Session) : Turn → Option CheckerResult
  | .queued ticket => session.queue.result? ticket
  -- A shared result is read off the same task by all who share it.
  | .polled task => session.gate.result? task

/-- The result of a question, once it is there. -/
def result? (session : Session) (number : Nat) : Option CheckerResult :=
  (session.requests[number]?).bind fun request => session.resultOf? request.turn

/-- The calls that the checker has seen, in order. -/
def calls (session : Session) : List CheckerCall := session.processes.filterMap (·.2.call?)

/-- Begins a turn, if it has come. -/
def begin? (session : Session) : Turn → Option Session
  | .queued ticket =>
    -- A turn that has begun does not begin again.
    ((session.queue.perform (.wake ticket)).step? (.start ticket)).map fun queue =>
      { session with queue := queue }
  | .polled task =>
    ((session.gate.perform (.wake task)).step? (.start task)).map fun gate =>
      { session with gate := gate }

/-- Ends a turn with a result. -/
def complete (session : Session) (turn : Turn) (result : CheckerResult) : Session :=
  match turn with
  | .queued ticket =>
    { session with queue := session.queue.complete ticket (.returned result) }
  | .polled task => { session with gate := session.gate.complete task (.returned result) }

/-- Whether a request is to be canceled. -/
def isCanceled (session : Session) (request : Request) : Bool :=
  -- A question without a token cannot be canceled.
  request.token.any session.canceled.contains

/-- Lets a process go on, and ends its turn when it is over. -/
def runProcess (session : Session) (turn : Turn) (running : RunningChecker) :
    RunningChecker × Session :=
  -- The process may have come to its end, or it waits at a gate that is closed.
  let running := running.run session.opened.contains
  match running.result? with
  | some result => (running, session.complete turn result)
  | none => (running, session)

/-- Carries out a question whose turn has begun. -/
def carryOut (client : Client platform) (behaviour : Behaviour) (session : Session)
    (request : Request) : Session :=
  let (decision, locator) :=
    -- What is decided depends on the disk as it stands when the turn begins.
    client.decide session.disk session.locator request.question (session.isCanceled request)
  let session := { session with locator := locator }
  match decision with
  | .done result => session.complete request.turn result
  | .run invocation =>
    -- What the checker does may depend on how often it was asked the same before.
    let earlier := session.processes.map (·.2.invocation)
    match RunningChecker.start session.disk client.environment behaviour earlier invocation with
    | .error error => session.complete request.turn (.error error)
    | .ok running =>
      let (running, session) := session.runProcess request.turn running
      { session with processes := session.processes ++ [(request.turn, running)] }

/-- Lets the process of a turn go on, after an interrupt when the request is canceled. -/
def resume (session : Session) (request : Request) : Session :=
  -- Only the processes of this turn go on, and those that are over stay as they are.
  let canceled := session.isCanceled request
  let (processes, session) := session.processes.foldl (fun (done, session) (turn, running) =>
    if turn = request.turn && running.result?.isNone then
      let running := if canceled then running.interrupt else running
      let (running, session) := session.runProcess turn running
      (done ++ [(turn, running)], session)
    else (done ++ [(turn, running)], session)) ([], session)
  { session with processes := processes }

/-- Takes one question as far as it can go. -/
def advance (client : Client platform) (behaviour : Behaviour) (session : Session)
    (request : Request) : Session :=
  -- A question that shares a result has nothing to be carried out.
  if !request.leads then session
  else match session.begin? request.turn with
    | some begun => begun.carryOut client behaviour request
    | none => session.resume request

/-- Takes everything as far as it can go; a question waits only for earlier ones. -/
def settle (client : Client platform) (behaviour : Behaviour) (session : Session) : Session :=
  let session := { session with locator := session.locator.settle }
  -- Questions are taken in the order in which they were asked.
  let session := session.requests.foldl (advance client behaviour) session
  { session with locator := session.locator.settle }

/-- Works a plan out, with the question that it may need; nothing for a checker that does not come
to an end. -/
def workOut {α : Type} (client : Client platform) (behaviour : Behaviour) (session : Session)
    (plan : Plan α) (token : Option String) : Option α × Session :=
  match plan with
  | .answer result => (some result, session)
  | .ask question read =>
    -- The question is carried out before anything else is asked.
    let (number, session) := session.ask question token
    let session := session.settle client behaviour
    ((session.result? number).map read, session)

end Session

end FlowService
