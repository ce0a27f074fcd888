import FlowService.Client.Traffic
import FlowService.Proofs.Process.Moves
import FlowService.Proofs.Queue.Polls

/-! Everything that can happen to a client in one step, with what has to hold before. -/

namespace FlowService

variable {platform : Option String}

namespace Session

/-- What the end of the body of a turn makes of a session. -/
inductive BodyEnds (session : Session) : Turn → CheckerResult → Session → Prop
  | queued {ticket : Nat} {result : CheckerResult} {queue : ProjectQueue RootKey CheckerOutput}
    (step : session.queue.Step (.finish ticket (.returned result)) queue) :
    BodyEnds session (.queued ticket) result { session with queue := queue }
  | polled {task : Nat} {result : CheckerResult} {gate : StatusGate RootKey CheckerOutput}
    (step : session.gate.Step (.finish task (.returned result)) gate) :
    BodyEnds session (.polled task) result { session with gate := gate }

/-- A process that is replaced keeps its turn. -/
theorem turns_modify (processes : List (Turn × RunningChecker)) (index : Nat)
    (running : RunningChecker) :
    (processes.modify index ({ · with snd := running })).map (·.1) = processes.map (·.1) := by
  refine List.ext_getElem? fun place => ?_
  rw [List.getElem?_map, List.getElem?_map, List.getElem?_modify, Option.map_eq_map,
    Option.map_map]
  congr 1
  funext entry
  simp only [Function.comp_apply]
  split <;> rfl

/-- Of several processes only the one that is replaced is another one. -/
theorem mem_modify {processes : List (Turn × RunningChecker)} {index : Nat}
    {running : RunningChecker} {entry : Turn × RunningChecker}
    (member : entry ∈ processes.modify index ({ · with snd := running })) :
    entry ∈ processes ∨ ∃ before, processes[index]? = some (entry.1, before) ∧
      entry.2 = running := by
  obtain ⟨place, located⟩ := List.mem_iff_getElem?.mp member
  rw [List.getElem?_modify] at located
  obtain ⟨before, standing, same⟩ := Option.map_eq_some_iff.mp located
  by_cases meant : index = place
  · subst meant
    rw [if_pos rfl] at same
    subst same
    exact Or.inr ⟨before.2, standing, rfl⟩
  · rw [if_neg meant] at same
    subst same
    exact Or.inl (List.mem_of_getElem? standing)

variable {session next : Session}

/-- The body of a turn ends in its queue. -/
theorem bodyEnds_of_endBody? {turn : Turn} {result : CheckerResult}
    (ended : session.endBody? turn result = some next) : session.BodyEnds turn result next := by
  cases turn with
  | queued ticket =>
    obtain ⟨queue, finished, rfl⟩ := Option.map_eq_some_iff.mp ended
    exact .queued (ProjectQueue.step_of_step? finished)
  | polled task =>
    obtain ⟨gate, finished, rfl⟩ := Option.map_eq_some_iff.mp ended
    exact .polled (StatusGate.step_of_step? finished)

/-- The end of a body changes no disk. -/
theorem BodyEnds.disk {turn : Turn} {result : CheckerResult}
    (ends : session.BodyEnds turn result next) : next.disk = session.disk := by
  cases ends <;> rfl

/-- The question of a turn whose body runs is still to be decided on. -/
structure Undecided (session : Session) (turn : Turn) (request : Request) : Prop where
  leader : session.leader? turn = some request
  runs : session.isUnderWay turn
  first : turn ∉ session.processes.map (·.1)

/-- The request that is found for a turn is one of the session, and leads the turn. -/
theorem mem_of_leader? {turn : Turn} {request : Request}
    (found : session.leader? turn = some request) :
    request ∈ session.requests ∧ request.turn = turn ∧ request.leads := by
  have named := List.find?_some found
  simp only [Bool.and_eq_true, beq_iff_eq] at named
  exact ⟨List.mem_of_find?_eq_some found, named⟩

/-- What a client decides about a question in a session as it stands. -/
def decisionOn (client : Client platform) (session : Session) (request : Request) :
    Decision × Locator :=
  client.decide session.disk session.locator request.question (session.isCanceled request)

/-- What comes of starting a process in a session as it stands. -/
def launched (client : Client platform) (behaviour : Behaviour) (session : Session)
    (invocation : Invocation) : Except CheckerError RunningChecker :=
  RunningChecker.start session.disk client.environment behaviour
    (session.processes.map (·.2.invocation)) invocation

end Session

namespace Traffic

/-- What an action makes of a client to which it can happen. -/
inductive Step (client : Client platform) (behaviour : Behaviour) (traffic : Traffic) :
    Action → Traffic → Prop
  | poll {file : Path} {token : Option String} :
    Step client behaviour traffic (.ask (.status file) token)
      (traffic.withSession (traffic.session.ask (.status file) token).2)
  | ask {question : Question} {token : Option String} (queued : ∀ file, question ≠ .status file) :
    Step client behaviour traffic (.ask question token)
      ⟨{ traffic.session with queue := traffic.session.queue.draw }, traffic.asked ++
        [⟨question, token, Session.rootKey traffic.session.disk question.file,
          traffic.session.queue.nextTicket⟩]⟩
  | enter {asking : Asking} (member : asking ∈ traffic.asked)
    (drawn : asking.ticket ∈ traffic.session.queue.drawn) :
    Step client behaviour traffic (.enter asking.ticket) (traffic.withSession
      { traffic.session with
        queue := traffic.session.queue.enter asking.ticket asking.root
        requests := traffic.session.requests ++
          [⟨asking.question, asking.token, .queued asking.ticket, true⟩] })
  | queue {action : ProjectQueue.Action RootKey CheckerOutput}
    {queue : ProjectQueue RootKey CheckerOutput} (own : action.isOwn)
    (step : traffic.session.queue.Step action queue) :
    Step client behaviour traffic (.queue action)
      (traffic.withSession { traffic.session with queue := queue })
  | gate {action : StatusGate.Action RootKey CheckerOutput}
    {gate : StatusGate RootKey CheckerOutput} (own : action.isOwn)
    (step : traffic.session.gate.Step action gate) :
    Step client behaviour traffic (.gate action)
      (traffic.withSession { traffic.session with gate := gate })
  -- A question is answered without a process, or it gets one, or there is none to be had.
  | answer {turn : Turn} {request : Request} {result : CheckerResult} {locator : Locator}
    {session : Session} (undecided : traffic.session.Undecided turn request)
    (decided : traffic.session.decisionOn client request = (.done result, locator))
    (ends : { traffic.session with locator := locator }.BodyEnds turn result session) :
    Step client behaviour traffic (.decide turn) (traffic.withSession session)
  | fail {turn : Turn} {request : Request} {invocation : Invocation} {error : CheckerError}
    {locator : Locator} {session : Session}
    (undecided : traffic.session.Undecided turn request)
    (decided : traffic.session.decisionOn client request = (.run invocation, locator))
    (failed : traffic.session.launched client behaviour invocation = .error error)
    (ends : { traffic.session with locator := locator }.BodyEnds turn (.error error) session) :
    Step client behaviour traffic (.decide turn) (traffic.withSession session)
  | launch {turn : Turn} {request : Request} {invocation : Invocation} {running : RunningChecker}
    {locator : Locator} (undecided : traffic.session.Undecided turn request)
    (decided : traffic.session.decisionOn client request = (.run invocation, locator))
    (started : traffic.session.launched client behaviour invocation = .ok running) :
    Step client behaviour traffic (.decide turn) (traffic.withSession { traffic.session with
      locator := locator
      processes := traffic.session.processes ++ [(turn, running)] })
  | move {index : Nat} {turn : Turn} {running : RunningChecker} {move : Conversation.Move}
    {conversation : Conversation}
    (found : traffic.session.processes[index]? = some (turn, running))
    (step : running.conversation.Step Pipe.standardCapacity traffic.session.opened.contains move
      conversation) :
    Step client behaviour traffic (.move index move) (traffic.withSession
      (traffic.session.setProcess index { running with conversation := conversation }))
  | interrupt {index : Nat} {turn : Turn} {running : RunningChecker} {request : Request}
    (found : traffic.session.processes[index]? = some (turn, running))
    (leader : traffic.session.leader? turn = some request)
    (canceled : traffic.session.isCanceled request) (untold : running.interrupted = false)
    (alive : running.conversation.ended = none) :
    Step client behaviour traffic (.interrupt index)
      (traffic.withSession (traffic.session.setProcess index running.interrupt))
  | kill {index : Nat} {turn : Turn} {running : RunningChecker} {session : Session}
    (found : traffic.session.processes[index]? = some (turn, running))
    (alive : running.conversation.ended = none) (told : running.interrupted)
    (ends : (traffic.session.setProcess index running.kill).BodyEnds turn
      (CheckerResult.ofEnding .killed running.conversation.output running.conversation.errors)
      session) :
    Step client behaviour traffic (.kill index) (traffic.withSession session)
  | finish {index : Nat} {turn : Turn} {running : RunningChecker} {result : CheckerResult}
    {session : Session} (found : traffic.session.processes[index]? = some (turn, running))
    (outcome : running.outcome? = some result)
    (ends : traffic.session.BodyEnds turn result session) :
    Step client behaviour traffic (.finish index) (traffic.withSession session)
  | cancel {token : String} :
    Step client behaviour traffic (.cancel token) (traffic.withSession
      { traffic.session with canceled := traffic.session.canceled ++ [token] })
  | openGate {gate : String} :
    Step client behaviour traffic (.openGate gate) (traffic.withSession
      { traffic.session with opened := traffic.session.opened ++ [gate] })
  | change {disk : Disk} :
    Step client behaviour traffic (.change disk)
      (traffic.withSession { traffic.session with disk := disk })
  | locate {action : Locator.Action} :
    Step client behaviour traffic (.locate action) (traffic.withSession { traffic.session with
      locator := traffic.session.locator.act traffic.session.disk action })

variable {client : Client platform} {behaviour : Behaviour} {traffic next : Traffic}

/-- Deciding about a question ends its body or starts its process. -/
theorem step_of_decide? {turn : Turn} {session : Session}
    (stepped : traffic.session.decide? client behaviour turn = some session) :
    Step client behaviour traffic (.decide turn) (traffic.withSession session) := by
  obtain ⟨request, leader, stepped⟩ := Option.bind_eq_some_iff.mp stepped
  split at stepped
  · cases stepped
  rename_i free
  simp only [Bool.or_eq_true, not_or, Bool.not_eq_true', Bool.not_eq_false] at free
  have undecided : traffic.session.Undecided turn request := by
    refine ⟨leader, free.1, fun member => ?_⟩
    obtain ⟨entry, found, rfl⟩ := List.mem_map.mp member
    exact free.2 (List.any_eq_true.mpr ⟨entry, found, by simp⟩)
  simp only at stepped
  split at stepped
  · rename_i result decided
    exact .answer undecided (Prod.ext decided rfl) (Session.bodyEnds_of_endBody? stepped)
  · rename_i invocation decided
    split at stepped
    · rename_i error failed
      exact .fail undecided (Prod.ext decided rfl) failed (Session.bodyEnds_of_endBody? stepped)
    · rename_i running started
      cases stepped
      exact .launch undecided (Prod.ext decided rfl) started

/-- An action that can happen is one of the steps that are listed. -/
theorem step_of_step? {action : Action}
    (stepped : traffic.step? client behaviour action = some next) :
    Step client behaviour traffic action next := by
  cases action with
  | ask question token =>
    cases stepped
    cases question with
    | status file => exact .poll
    | _ => exact .ask fun _ same => nomatch same
  | enter ticket =>
    obtain ⟨asking, found, stepped⟩ := Option.bind_eq_some_iff.mp stepped
    obtain ⟨queue, entered, same⟩ := Option.bind_eq_some_iff.mp stepped
    cases same
    obtain rfl : asking.ticket = ticket := by simpa using List.find?_some found
    cases ProjectQueue.step_of_step? entered with
    | enter drawn => exact .enter (List.mem_of_find?_eq_some found) drawn
  | queue action =>
    simp only [step?] at stepped
    split at stepped
    · obtain ⟨queue, acted, rfl⟩ := Option.map_eq_some_iff.mp stepped
      exact .queue ‹_› (ProjectQueue.step_of_step? acted)
    · cases stepped
  | gate action =>
    simp only [step?] at stepped
    split at stepped
    · obtain ⟨gate, acted, rfl⟩ := Option.map_eq_some_iff.mp stepped
      exact .gate ‹_› (StatusGate.step_of_step? acted)
    · cases stepped
  | decide turn =>
    obtain ⟨session, decided, rfl⟩ := Option.map_eq_some_iff.mp stepped
    exact step_of_decide? decided
  | move index move =>
    obtain ⟨session, moved, rfl⟩ := Option.map_eq_some_iff.mp stepped
    obtain ⟨⟨turn, running⟩, found, moved⟩ := Option.bind_eq_some_iff.mp moved
    obtain ⟨conversation, moves, same⟩ := Option.bind_eq_some_iff.mp moved
    cases same
    exact .move found (Conversation.step_of_step? moves)
  | interrupt index =>
    obtain ⟨session, interrupted, rfl⟩ := Option.map_eq_some_iff.mp stepped
    obtain ⟨⟨turn, running⟩, found, interrupted⟩ := Option.bind_eq_some_iff.mp interrupted
    obtain ⟨request, leader, interrupted⟩ := Option.bind_eq_some_iff.mp interrupted
    split at interrupted
    · rename_i due
      cases interrupted
      simp only [Bool.and_eq_true, Bool.not_eq_true', Option.isNone_iff_eq_none] at due
      exact .interrupt found leader due.1.1 due.1.2 due.2
    · cases interrupted
  | kill index =>
    obtain ⟨session, killed, rfl⟩ := Option.map_eq_some_iff.mp stepped
    obtain ⟨⟨turn, running⟩, found, killed⟩ := Option.bind_eq_some_iff.mp killed
    dsimp only at killed
    split at killed
    · rename_i heedless
      simp only [Bool.and_eq_true, Option.isNone_iff_eq_none] at heedless
      exact .kill found heedless.2 heedless.1 (Session.bodyEnds_of_endBody? killed)
    · cases killed
  | finish index =>
    obtain ⟨session, finished, rfl⟩ := Option.map_eq_some_iff.mp stepped
    obtain ⟨⟨turn, running⟩, found, finished⟩ := Option.bind_eq_some_iff.mp finished
    obtain ⟨result, outcome, ended⟩ := Option.bind_eq_some_iff.mp finished
    exact .finish found outcome (Session.bodyEnds_of_endBody? ended)
  | cancel => cases stepped; exact .cancel
  | openGate => cases stepped; exact .openGate
  | change => cases stepped; exact .change
  | locate => cases stepped; exact .locate

end Traffic

end FlowService
