import FlowService.Proofs.Client.Settling
import FlowService.Proofs.Client.SharedRuns
import FlowService.Proofs.Process.Pumps
import FlowService.Proofs.Queue.Brought

/-!
A session in which nothing was asked before works one question out at once, unless it has to wait
for the process that it started.
-/

namespace FlowService

variable {platform : Option String}

/-- A body that returns lets its task settle with what it brought. -/
theorem ProjectQueue.complete_of_running {κ α : Type} [DecidableEq κ] {queue : ProjectQueue κ α}
    {ticket : Nat} {task : QueueTask κ α} (found : queue.task? ticket = some task)
    (runs : task.stage = .running) (result : Except CheckerError α) :
    (queue.complete ticket (.returned result)).result? ticket = some result := by
  obtain ⟨ended, cleared, settled, finish, clear, settle, brought⟩ :=
    settles_of_running found runs result
  simp [complete, perform, finish, clear, settle, brought]

/-- What the body of a poll brought is noted with the poll. -/
theorem StatusGate.setBodyResult_run? {κ α : Type} {gate : StatusGate κ α} {ticket : Nat}
    {run : PollRun κ α} (polled : gate.run? ticket = some run)
    (bodyResult : Option (Except CheckerError α)) :
    (gate.setBodyResult ticket bodyResult).run? ticket =
      some { run with bodyResult := bodyResult } := by
  -- A poll that is noted keeps its task, so it is found in its old place.
  have same : (fun run : PollRun κ α => run.task == ticket) ∘ PollRun.note ticket bodyResult =
      fun run => run.task == ticket := by
    funext other
    simp
  have located : gate.runs.find? (·.task == ticket) = some run := polled
  rw [run?, setBodyResult, List.find?_map, same, located]
  simp [PollRun.note, (mem_of_run? polled).2]

/-- The body of a poll that returns lets its task settle with what it brought. -/
theorem StatusGate.complete_of_running {κ α : Type} [DecidableEq κ] {gate : StatusGate κ α}
    {ticket : Nat} {task : QueueTask κ α} (found : gate.queue.task? ticket = some task)
    (runs : task.stage = .running) {run : PollRun κ α} (polled : gate.run? ticket = some run)
    (unknown : run.bodyResult = none) (result : Except CheckerError α) :
    (gate.complete ticket (.returned result)).result? ticket = some result := by
  -- The result is noted, the entry is taken away, and then the task settles like any other.
  obtain ⟨ended, cleared, settled, finish, clear, settle, brought⟩ :=
    ProjectQueue.settles_of_running found runs result
  have finished : gate.step? (.finish ticket (.returned result)) =
      some (gate.setBodyResult ticket (some result)) := by
    obtain ⟨task, mark, root, bodyResult⟩ := run
    obtain rfl : bodyResult = none := unknown
    simp [step?, ProjectQueue.stage?, found, runs, polled]
  have noted := gate.setBodyResult_run? polled (some result)
  have left : (gate.setBodyResult ticket (some result)).step? (.leave ticket) =
      some { (gate.setBodyResult ticket (some result)).clearEntry run.root run.ticket with
        queue := ended } := by
    have queue : ((gate.setBodyResult ticket (some result)).clearEntry run.root run.ticket).queue =
        gate.queue := clearEntry_queue ..
    simp [step?, noted, withQueue, queue, finish]
  have goesOn : ∀ {before after : StatusGate κ α} {action : Action κ α},
      before.step? action = some after → before.perform action = after :=
    fun stepped => by rw [perform, stepped, Option.getD_some]
  unfold complete
  rw [List.foldl_cons, goesOn finished, List.foldl_cons, goesOn left]
  simp [perform, step?, withQueue, clear, settle, StatusGate.result?, brought]

/-- Some program of the checker waits for something outside. -/
def Behaviour.Pauses (behaviour : Behaviour) : Prop :=
  ∃ earlier invocation gate, .pause gate ∈ (behaviour earlier invocation).instructions

namespace RunningChecker

/-- A process has not come to its end, for it waits at a gate that is closed. -/
def Pauses (isOpen : String → Bool) (running : RunningChecker) : Prop :=
  running.result? = none ∧ ∃ gate later,
    running.conversation.program.instructions = .pause gate :: later ∧ isOpen gate = false

variable {disk : Disk} {environment : Environment} {behaviour : Behaviour}
variable {earlier : List Invocation} {invocation : Invocation} {running : RunningChecker}

/-- A process that has run comes from one that was started, by moves that are possible. -/
theorem reached_run (started : start disk environment behaviour earlier invocation = .ok running)
    (isOpen : String → Bool) :
    ∃ payload, Conversation.Reached Pipe.standardCapacity running.conversation.program payload
      (running.run isOpen).conversation := by
  -- It was started with its whole program before it, and to run is only to make moves.
  obtain ⟨payload, fresh, _⟩ := start_eq started
  have reached : Conversation.Reached Pipe.standardCapacity running.conversation.program payload
      running.conversation := fresh ▸ .start
  obtain ⟨-, moves, moved⟩ := running.conversation.run_atRest isOpen
  exact ⟨payload, reached.after? moved⟩

/-- A process that has run as far as it can has come to what its program says, or it waits at a
gate. -/
theorem comesTo_or_pauses
    (started : start disk environment behaviour earlier invocation = .ok running)
    (isOpen : String → Bool) :
    (running.run isOpen).result? = some (comesTo running.conversation.program) ∨
      (running.run isOpen).Pauses isOpen := by
  -- It is at rest, where no pump leaves it waiting for a pipe.
  obtain ⟨payload, reached⟩ := reached_run started isOpen
  obtain ⟨delivers, fits⟩ := reached.delivers
  obtain ⟨rest, -⟩ := running.conversation.run_atRest isOpen
  obtain ⟨_, _, untold⟩ := start_eq started
  cases brought : (running.run isOpen).result? with
  | some result =>
    rw [outcome?_eq delivers untold (outcome?_run delivers.hungUp brought)]
    exact Or.inl rfl
  | none =>
    have alive : (running.run isOpen).conversation.ended = none := by
      simpa [result?] using brought
    refine Or.inr ⟨brought, ?_⟩
    exact (rest.over_or_pauses (by decide) delivers fits).resolve_left (absurd alive)

/-- A process waits only at a gate that its program names. -/
theorem Pauses.behaviour_pauses
    (started : start disk environment behaviour earlier invocation = .ok running)
    {isOpen : String → Bool} (pauses : (running.run isOpen).Pauses isOpen) : behaviour.Pauses := by
  obtain ⟨payload, reached⟩ := reached_run started isOpen
  obtain ⟨-, gate, later, first, -⟩ := pauses
  have named : .pause gate ∈ running.conversation.program.instructions :=
    reached.mem_of_pause (first ▸ List.mem_cons_self)
  unfold start at started
  split at started
  · cases started
  · rename_i executable directory spawned
    obtain rfl := Except.ok.inj started
    -- A script that does nothing names no gate, so the program is one of the checker's.
    cases executable with
    | checker => exact ⟨earlier, invocation, gate, named⟩
    | emptyScript => simp [Conversation.start, idleProgram] at named

end RunningChecker

namespace Session

/-- Of all questions only this one was asked, and its turn has just begun. -/
structure Begun (session : Session) (request : Request) : Prop where
  requests : session.requests = [request]
  untokened : request.token = none
  processes : session.processes = []
  pending : session.resultOf? request.turn = none
  settles : ∀ result, (session.complete request.turn result).resultOf? request.turn = some result

/-- A question is asked before all others, and its turn begins. -/
structure BeginsAtOnce (disk : Disk) (question : Question) (request : Request) (begun : Session) :
    Prop where
  number : ((start disk).ask question none).1 = 0
  locator : ((start disk).ask question none).2.locator = .empty
  alone : ((start disk).ask question none).2.requests = [request]
  asks : request.question = question
  leads : request.leads
  begins : ((start disk).ask question none).2.begin? request.turn = some begun
  fresh : begun.disk = disk ∧ begun.locator = .empty
  ready : begun.Begun request

/-- The result of a poll whose turn is ended is read off the gate. -/
theorem resultOf?_complete_polled (session : Session) (task : Nat) (result : CheckerResult) :
    (session.complete (.polled task) result).resultOf? (.polled task) =
      (session.gate.complete task (.returned result)).result? task := by
  unfold resultOf? complete
  dsimp only

/-- A queue in which the body of one task runs. -/
def queueOf (root : RootKey) : ProjectQueue RootKey CheckerOutput :=
  ⟨1, [], [(root, 0)], [⟨0, root, none, .running⟩]⟩

/-- A question that goes into the queue begins at once. -/
theorem begins_of_queued {disk : Disk} {question : Question} (root : RootKey)
    (asked : (start disk).ask question none =
      (0, { start disk with
        queue := (ProjectQueue.empty.accept root).2
        requests := [⟨question, none, .queued 0, true⟩] })) :
    ∃ request begun, BeginsAtOnce disk question request begun := by
  let request : Request := ⟨question, none, .queued 0, true⟩
  have found : (queueOf root).task? 0 = some ⟨0, root, none, .running⟩ := rfl
  refine ⟨request, { start disk with requests := [request], queue := queueOf root }, ?_⟩
  constructor
  case ready =>
    refine ⟨rfl, rfl, rfl, rfl, fun result => ?_⟩
    exact (queueOf root).complete_of_running found rfl result
  case asks | leads => rfl
  case fresh => exact ⟨rfl, rfl⟩
  case number | alone => rw [asked]
  case locator | begins =>
    rw [asked]
    rfl

/-- Every question begins at once. -/
theorem begins (disk : Disk) (question : Question) :
    ∃ request begun, BeginsAtOnce disk question request begun := by
  -- The task finds no other one in front of it, so it is called and its body runs.
  cases question with
  | status file =>
    let root := rootKey disk file
    let request : Request := ⟨.status file, none, .polled 0, true⟩
    let gate : StatusGate RootKey CheckerOutput :=
      ⟨1, [(root, ⟨0, 0⟩)], [⟨0, 0, root, none⟩], queueOf root⟩
    have found : gate.queue.task? 0 = some ⟨0, root, none, .running⟩ := rfl
    have polled : gate.run? 0 = some ⟨0, 0, root, none⟩ := rfl
    refine ⟨request, { start disk with requests := [request], gate := gate }, rfl, rfl, rfl, rfl,
      rfl, rfl, ⟨rfl, rfl⟩, rfl, rfl, rfl, rfl, fun result => ?_⟩
    rw [resultOf?_complete_polled]
    exact gate.complete_of_running found rfl polled rfl result
  | typeAt file | completions file | definition file | coverage file =>
    refine begins_of_queued (rootKey disk file) ?_
    rfl

/-- The session waits for a process that has not come to its end. -/
def Waits (session : Session) : Prop :=
  ∃ process ∈ session.processes, process.2.Pauses session.opened.contains

/-- A turn has the result that is expected, unless the session waits for a process that the checker
makes wait. -/
structure Ends (session : Session) (behaviour : Behaviour) (turn : Turn)
    (expected : CheckerResult) : Prop where
  waits : session.resultOf? turn = none ↔ session.Waits
  pauses : session.Waits → behaviour.Pauses
  result : ∀ result ∈ session.resultOf? turn, result = expected

namespace Begun

variable {session : Session} {request : Request}

/-- What the locator knows is of no account to a question whose turn has begun. -/
theorem withLocator (begun : session.Begun request) (locator : Locator) :
    { session with locator := locator }.Begun request where
  requests := begun.requests
  untokened := begun.untokened
  processes := begun.processes
  pending := by
    have pending := begun.pending
    cases turn : request.turn <;> rw [turn] at pending <;> exact pending
  settles result := by
    have settles := begun.settles result
    cases turn : request.turn <;> rw [turn] at settles <;> exact settles

/-- The end of a turn starts no process. -/
theorem idle (begun : session.Begun request) (result : CheckerResult) :
    (session.complete request.turn result).processes = [] := by
  rw [← begun.processes]
  cases request.turn <;> rfl

/-- A question without a process has its result as soon as its turn is ended. -/
theorem complete (begun : session.Begun request) (behaviour : Behaviour) (result : CheckerResult) :
    (session.complete request.turn result).Ends behaviour request.turn result where
  waits := by simp [begun.settles, Waits, begun.idle]
  pauses := by simp [Waits, begun.idle]
  result := by simp [begun.settles]

end Begun

/-- No result hangs on the processes. -/
theorem resultOf?_withProcesses (session : Session) (processes : List (Turn × RunningChecker))
    (turn : Turn) :
    { session with processes := processes }.resultOf? turn = session.resultOf? turn := by
  cases turn <;> rfl

/-- A question whose process runs has what the process comes to, unless it waits for the process. -/
theorem Begun.runProcess {session : Session} {request : Request} (begun : session.Begun request)
    {environment : Environment} {behaviour : Behaviour} {earlier : List Invocation}
    {invocation : Invocation} {running : RunningChecker}
    (started : RunningChecker.start session.disk environment behaviour earlier invocation =
      .ok running) :
    let ran := session.runProcess request.turn running
    { ran.2 with processes := ran.2.processes ++ [(request.turn, ran.1)] }.Ends behaviour
      request.turn (RunningChecker.comesTo running.conversation.program) := by
  intro ran
  -- A process that is over ends the turn, and one that pauses leaves the turn as it was.
  rcases RunningChecker.comesTo_or_pauses started session.opened.contains with brought | pauses
  · have ended : ran = (running.run session.opened.contains,
        session.complete request.turn (RunningChecker.comesTo running.conversation.program)) := by
      unfold ran Session.runProcess
      simp only [brought]
    rw [ended]
    constructor
    · rw [resultOf?_withProcesses, begun.settles]
      simp [Waits, begun.idle, RunningChecker.Pauses, brought]
    · simp [Waits, begun.idle, RunningChecker.Pauses, brought]
    · rw [resultOf?_withProcesses, begun.settles]
      exact fun result same => (Option.some.inj same).symm
  · have left : ran = (running.run session.opened.contains, session) := by
      unfold ran Session.runProcess
      simp only [pauses.1]
    rw [left]
    constructor
    · rw [resultOf?_withProcesses, begun.pending, begun.processes]
      exact iff_of_true rfl ⟨_, List.mem_singleton_self _, pauses⟩
    · exact fun _ => RunningChecker.Pauses.behaviour_pauses started pauses
    · rw [resultOf?_withProcesses, begun.pending]
      exact nofun

/-- A question whose turn has begun has what it comes to by itself, unless it waits for its
process. -/
theorem Begun.carryOut {session : Session} {request : Request} (begun : session.Begun request)
    (client : Client platform) (behaviour : Behaviour) :
    (session.carryOut client behaviour request).Ends behaviour request.turn
      (session.ownRun client behaviour request.question) := by
  have begunThen := begun.withLocator (session.decisionOn client request).2
  rw [carryOut_eq, ownRun, ← decisionOn_untokened begun.untokened]
  -- The question is answered without a process, or none is to be had, or it gets one.
  cases decided : (session.decisionOn client request).1 with
  | done result => exact begunThen.complete behaviour result
  | run invocation =>
    cases started : session.launched client behaviour invocation with
    | error error =>
      simp only [runOf, started]
      exact begunThen.complete behaviour (.error error)
    | ok running =>
      simp only [runOf, started]
      exact begunThen.runProcess started

/-- A locator that knows nothing has no watches to act on. -/
theorem settle_empty : Locator.empty.settle = .empty := rfl

/-- The only question of a session is carried out when everything is taken further. -/
theorem settle_of_begin? (client : Client platform) (behaviour : Behaviour) {asked begun : Session}
    {request : Request} (unknown : asked.locator = .empty) (alone : asked.requests = [request])
    (leads : request.leads) (begins : asked.begin? request.turn = some begun) :
    asked.settle client behaviour =
      { begun.carryOut client behaviour request with
        locator := (begun.carryOut client behaviour request).locator.settle } := by
  obtain ⟨disk, locator, queue, gate, requests, processes, canceled, opened⟩ := asked
  obtain rfl : locator = .empty := unknown
  obtain rfl : requests = [request] := alone
  simp only [settle, settle_empty, List.foldl_cons, List.foldl_nil, advance, leads, Bool.not_true,
    Bool.false_eq_true, if_false, begins]

/-- What the locator knows is of no account to a result. -/
theorem resultOf?_withLocator (session : Session) (locator : Locator) (turn : Turn) :
    { session with locator := locator }.resultOf? turn = session.resultOf? turn := by
  cases turn <;> rfl

/-- What the locator knows is of no account to how a turn ends. -/
theorem Ends.withLocator {session : Session} {behaviour : Behaviour} {turn : Turn}
    {expected : CheckerResult} (ends : session.Ends behaviour turn expected) (locator : Locator) :
    { session with locator := locator }.Ends behaviour turn expected where
  waits := by
    rw [resultOf?_withLocator]
    exact ends.waits
  pauses := ends.pauses
  result := by
    rw [resultOf?_withLocator]
    exact ends.result

/-- What a plan comes to when its question is carried out by itself. -/
def ownWork {α : Type} (client : Client platform) (behaviour : Behaviour) (session : Session) :
    Plan α → α
  | .answer result => result
  | .ask question read => read (session.ownRun client behaviour question)

/-- What a question comes to by itself is told by the disk as long as nothing is known and nothing
was started. -/
theorem ownRun_of_fresh {client : Client platform} {behaviour : Behaviour} {disk : Disk}
    {session : Session} (sameDisk : session.disk = disk) (unknown : session.locator = .empty)
    (idle : session.processes = []) (question : Question) :
    session.ownRun client behaviour question = (start disk).ownRun client behaviour question := by
  unfold ownRun runOf launched
  rw [sameDisk, unknown, idle]
  rfl

/-- A plan is worked out as if its question were the only one, unless it waits for the process that
was started for it. -/
theorem workOut_or_waits {α : Type} (client : Client platform) (behaviour : Behaviour) (disk : Disk)
    (plan : Plan α) :
    let worked := (start disk).workOut client behaviour plan none
    (worked.1 = none ↔ worked.2.Waits) ∧ (worked.2.Waits → behaviour.Pauses) ∧
      ∀ value ∈ worked.1, value = (start disk).ownWork client behaviour plan := by
  cases plan with
  | answer result => simp [workOut, Waits, start, ownWork]
  | ask question read =>
    obtain ⟨request, begun, began⟩ := begins disk question
    -- The question is the only one, so settling carries it out and nothing else.
    let settled := ((start disk).ask question none).2.settle client behaviour
    have went :=
      settle_of_begin? client behaviour began.locator began.alone began.leads began.begins
    have requests : settled.requests = [request] := by
      simp only [settled, went, carryOut_requests]
      exact began.ready.requests
    have own : begun.ownRun client behaviour request.question =
        (start disk).ownRun client behaviour question := by
      rw [began.asks]
      exact ownRun_of_fresh began.fresh.1 began.fresh.2 began.ready.processes question
    have ends : settled.Ends behaviour request.turn
        ((start disk).ownRun client behaviour question) := by
      simp only [settled, went, ← own]
      exact (began.ready.carryOut client behaviour).withLocator _
    have found : ((start disk).workOut client behaviour (.ask question read) none).1 =
        (settled.resultOf? request.turn).map read := by
      simp only [workOut, began.number, result?, settled] at requests ⊢
      simp only [requests, List.getElem?_cons_zero, Option.bind_some]
    dsimp only
    rw [found, Option.map_eq_none_iff]
    refine ⟨ends.waits, ends.pauses, fun value worked => ?_⟩
    obtain ⟨result, brought, rfl⟩ := Option.map_eq_some_iff.mp worked
    exact congrArg read (ends.result result brought)

end Session

end FlowService
