import FlowService.Checker.Reply.Fields
import FlowService.Proofs.Client.Checkers
import FlowService.Proofs.Client.Settling
import FlowService.Proofs.Client.SharedRuns

/-!
Whoever joins a poll gets the result of the run for its leader, and gets it for sure. It is the result
of a run of its own exactly as far as the checker comes to the same for both files.
-/

namespace FlowService

variable {platform : Option String}

/-- A poll and its task are those of one root. -/
theorem StatusGate.Sound.root_eq {κ α : Type} [DecidableEq κ] {gate : StatusGate κ α}
    {actions : List (StatusGate.Action κ α)} (sound : StatusGate.Sound actions gate)
    {run : PollRun κ α} (member : run ∈ gate.runs) {task : QueueTask κ α}
    (found : gate.queue.task? run.task = some task) : run.root = task.root := by
  have listed : (run.task, run.root) ∈ gate.queue.tasks.map fun task => (task.ticket, task.root) :=
    sound.lined ▸ List.mem_map_of_mem member
  obtain ⟨own, ownMember, same⟩ := List.mem_map.mp listed
  obtain ⟨ticket, rooted⟩ := Prod.mk.inj same
  have located := ProjectQueue.task?_of_mem sound.orderly.unique ownMember
  rw [ticket, found] at located
  rw [← rooted, Option.some.inj located]

namespace Traffic

variable {client : Client platform} {behaviour : Behaviour} {start traffic : Traffic}
variable {actions : List Action}

/-- An action takes a poll further, and no new question or end of a wait is needed for it. -/
def Action.ServesPolls (session : Session) : Action → Prop
  | .gate action => action.isOwn
  | .decide turn => ∃ task, turn = .polled task
  | .move index _ => ∃ task running, session.processes[index]? = some (.polled task, running)
  | .finish index => ∃ task running, session.processes[index]? = some (.polled task, running)
  | _ => False

/-- No poll can go on by itself. -/
def PollsRest (client : Client platform) (behaviour : Behaviour) (traffic : Traffic) : Prop :=
  ∀ action, Action.ServesPolls traffic.session action → traffic.step? client behaviour action = none

/-- The checker of a poll waits for a gate that is closed. -/
def Pauses (traffic : Traffic) (turn : Turn) : Prop :=
  ∃ running gate later, (turn, running) ∈ traffic.session.processes ∧
    running.conversation.program.instructions = .pause gate :: later ∧
    gate ∉ traffic.session.opened

namespace PollsRest

/-- At rest the gate takes no step of its own. -/
theorem gate (rest : traffic.PollsRest client behaviour)
    (action : StatusGate.Action RootKey CheckerOutput) (own : action.isOwn) :
    traffic.session.gate.step? action = none := by
  simpa [Traffic.step?, own] using rest (.gate action) own

/-- At rest the process of a poll and its pumps rest as well. -/
theorem conversation (rest : traffic.PollsRest client behaviour) {index task : Nat}
    {running : RunningChecker}
    (found : traffic.session.processes[index]? = some (.polled task, running)) :
    Conversation.AtRest Pipe.standardCapacity traffic.session.opened.contains
      running.conversation := by
  intro move
  have stuck := rest (.move index move) ⟨task, running, found⟩
  simpa [Traffic.step?, Session.move?, found, ← Option.eq_none_iff_forall_ne_some] using stuck

end PollsRest

/-- A process that is over at rest has an outcome. -/
theorem outcome?_of_atRest {running : RunningChecker} {program : Program} {capacity : Nat}
    {isOpen : String → Bool} (rest : running.conversation.AtRest capacity isOpen)
    (delivers : Conversation.Delivers program running.conversation)
    (dead : running.conversation.ended ≠ none) : ∃ result, running.outcome? = some result := by
  obtain ⟨exit, ended⟩ := Option.ne_none_iff_exists'.mp dead
  -- At rest both pumps have stopped, so nothing is waited for any more.
  obtain ⟨output, errors⟩ := rest.readersClosed delivers.hungUp dead
  have found : ∃ result, running.result? = some result := by
    simp [RunningChecker.result?, ended]
  obtain ⟨result, found⟩ := found
  unfold RunningChecker.outcome?
  rw [found, output, errors]
  split
  · exact ⟨_, rfl⟩
  · exact ⟨_, rfl⟩
  · rename_i missing
    cases missing

namespace Shares

/-- The checker of a poll whose body does not end at rest waits for a gate. -/
theorem pauses_of_isUnderWay (shares : Shares client behaviour start actions traffic)
    (inOrder : traffic.InOrder) (rest : traffic.PollsRest client behaviour)
    {run : PollRun RootKey CheckerOutput} {task : Nat} (member : run ∈ traffic.session.gate.runs)
    (named : run.task = task) (underWay : traffic.session.isUnderWay (.polled task)) :
    traffic.Pauses (.polled task) := by
  -- Either the question was decided on and has a process, or it could be decided on now.
  by_cases started : .polled task ∈ traffic.session.processes.map (·.1)
  · obtain ⟨⟨_, running⟩, listed, rfl⟩ := List.mem_map.mp started
    obtain ⟨index, located⟩ := List.mem_iff_getElem?.mp listed
    have still := rest.conversation located
    obtain ⟨_, _, _, first, _, _, _, _, fits, delivers⟩ := shares.working task running listed
    rcases still.over_or_pauses (by decide) delivers fits with dead | ⟨gate, later, waits, closed⟩
    · -- A process that is over ends the body of its turn.
      obtain ⟨result, outcome⟩ := outcome?_of_atRest still delivers dead
      obtain ⟨next, ended⟩ := Session.endBody?_of_isUnderWay underWay result
      have stuck := rest (.finish index) ⟨task, running, located⟩
      simp [Traffic.step?, Session.finish?, located, outcome, ended] at stuck
    · exact ⟨running, gate, later, listed, waits, by simpa using closed⟩
  · -- A question that was not decided on could be decided on.
    obtain ⟨leader, among, leads, turn⟩ := shares.led run member
    rw [named] at turn
    have undecided : traffic.session.Undecided (.polled task) leader :=
      ⟨turn ▸ inOrder.tidy.leader? among leads, underWay, started⟩
    have stuck := rest (.decide (.polled task)) ⟨task, rfl⟩
    simp only [Traffic.step?, Option.map_eq_none_iff, undecided.decide?] at stuck
    have ends : ∀ locator result, ∃ next,
        { traffic.session with locator := locator }.endBody? (.polled task) result = some next := by
      intro locator result
      have still : { traffic.session with locator := locator }.isUnderWay (.polled task) := underWay
      exact Session.endBody?_of_isUnderWay still result
    split at stuck
    · obtain ⟨next, ended⟩ := ends _ _
      rw [ended] at stuck
      cases stuck
    · split at stuck
      · obtain ⟨next, ended⟩ := ends _ _
        rw [ended] at stuck
        cases stuck
      · cases stuck

/-- A poll whose turn has come and that is not over at rest has a checker that waits for a gate. -/
theorem pauses_of_isReady (shares : Shares client behaviour start actions traffic)
    (inOrder : traffic.InOrder) (rest : traffic.PollsRest client behaviour)
    {task : QueueTask RootKey CheckerOutput} (member : task ∈ traffic.session.gate.queue.tasks)
    (ready : traffic.session.gate.queue.isReady task)
    (unsettled : ¬traffic.session.gate.queue.isSettled task.ticket) :
    task.stage = .running ∧ traffic.Pauses (.polled task.ticket) := by
  obtain ⟨gateActions, sound, _⟩ := shares.undying
  have found := ProjectQueue.task?_of_mem sound.orderly.unique member
  have stuck : ∀ {action : ProjectQueue.Action RootKey CheckerOutput},
      traffic.session.gate.withQueue action = none →
        traffic.session.gate.queue.step? action = none :=
    fun none => Option.map_eq_none_iff.mp none
  -- In every stage but one the task could go on by itself.
  cases stage : task.stage with
  | waiting =>
    have none := stuck (rest.gate (.wake task.ticket) rfl)
    simp [ProjectQueue.step?, found, stage, ready] at none
  | awake =>
    have none := stuck (rest.gate (.start task.ticket) rfl)
    simp [ProjectQueue.step?, found, stage] at none
  | ended result =>
    have none := stuck (rest.gate (.clear task.ticket) rfl)
    simp [ProjectQueue.step?, found, stage] at none
  | cleared result =>
    have none := stuck (rest.gate (.settle task.ticket) rfl)
    simp [ProjectQueue.step?, found, stage] at none
  | settled result => simp [ProjectQueue.isSettled, ProjectQueue.stage?, found, stage] at unsettled
  | running =>
    refine ⟨rfl, ?_⟩
    obtain ⟨run, runMember, named, course⟩ := sound.run_of_task found
    have runs : traffic.session.gate.queue.isRunning task.ticket :=
      ProjectQueue.isRunning_eq_true.mpr ⟨task, found, stage⟩
    obtain ⟨poll, located, same⟩ : ∃ poll, traffic.session.gate.run? task.ticket = some poll ∧
        poll = run := by
      cases located : traffic.session.gate.run? task.ticket with
      | none =>
        have missed := List.find?_eq_none.mp located run runMember
        simp [named] at missed
      | some poll =>
        obtain ⟨pollMember, same⟩ := StatusGate.mem_of_run? located
        exact ⟨poll, rfl, sound.run_unique pollMember runMember (same.trans named.symm)⟩
    subst same
    cases noted : poll.bodyResult with
    | some result =>
      -- The task of a body that returned takes its entry away.
      have none := rest.gate (.leave task.ticket) rfl
      obtain ⟨_, ticket, root, bodyResult⟩ := poll
      obtain rfl : bodyResult = some result := noted
      simp [StatusGate.step?, located, StatusGate.withQueue, StatusGate.clearEntry_queue,
        ProjectQueue.step?, found, stage] at none
    | none =>
      have underWay : traffic.session.isUnderWay (.polled task.ticket) := by
        simp [Session.isUnderWay, runs, located, noted]
      exact shares.pauses_of_isUnderWay inOrder rest runMember named underWay

/-- At rest every poll is over, unless its checker waits for a gate that is closed. -/
theorem isSettled_or_pauses (shares : Shares client behaviour start actions traffic)
    (inOrder : traffic.InOrder) (rest : traffic.PollsRest client behaviour)
    {run : PollRun RootKey CheckerOutput} (member : run ∈ traffic.session.gate.runs) :
    traffic.session.gate.queue.isSettled run.task ∨ traffic.Pauses (.polled run.task) := by
  by_contra neither
  obtain ⟨unsettled, free⟩ := not_or.mp neither
  obtain ⟨gateActions, sound, _⟩ := shares.undying
  obtain ⟨task, found, course⟩ := sound.courses run member
  obtain ⟨taskMember, named⟩ := ProjectQueue.mem_of_task? found
  have inLine : task ∈ traffic.session.gate.queue.line task.root :=
    ProjectQueue.mem_line.mpr ⟨taskMember, rfl⟩
  -- The oldest poll of the root that is not over has had its turn, so its checker waits.
  obtain ⟨oldest, located⟩ := Option.isSome_iff_exists.mp
    (List.find?_isSome.mpr ⟨task, inLine, by simpa [named] using unsettled⟩ :
      ((traffic.session.gate.queue.line task.root).find?
        (!traffic.session.gate.queue.isSettled ·.ticket)).isSome)
  obtain ⟨oldestUnsettled, ahead, behind, split, settled⟩ :=
    List.find?_eq_some_iff_append.mp located
  obtain ⟨oldestMember, sameRoot⟩ :=
    ProjectQueue.mem_line.mp (List.mem_of_find?_eq_some located)
  have ready := sound.orderly.isReady_of_oldest shares.headed split fun other early => by
    simpa using settled other early
  obtain ⟨running, pauses⟩ := shares.pauses_of_isReady inOrder rest oldestMember ready
    (by simpa using oldestUnsettled)
  -- The poll behind it would be a second one of the root that may be joined.
  have oldestFound := ProjectQueue.task?_of_mem sound.orderly.unique oldestMember
  obtain ⟨other, otherMember, otherTask, _⟩ := sound.run_of_task oldestFound
  have otherOut : traffic.session.gate.Outstanding other :=
    ⟨oldest, by rw [otherTask, oldestFound], Or.inr (by simp [running])⟩
  rw [split] at inLine
  rcases List.mem_append.mp inLine with early | late
  · exact unsettled (by simpa [named] using settled task early)
  · rcases List.mem_cons.mp late with rfl | after
    · exact free (named ▸ pauses)
    · have order := sound.orderly.pairwise task.root
      rw [split] at order
      have inTurn := (List.pairwise_cons.mp (List.pairwise_append.mp order).2.1).1 task after
      have going : ¬task.stage.Over := fun passed => by simpa [running] using inTurn passed.called
      have rooted : run.root = other.root := by
        rw [sound.root_eq member found, ← sameRoot]
        exact (sound.root_eq otherMember (by rw [otherTask, oldestFound])).symm
      have same := sound.outstanding_unique member otherMember rooted
        ⟨task, found, Or.inr going⟩ otherOut
      exact free (by rw [same, otherTask]; exact pauses)

/-- The result of a poll is that of its leader's own run. -/
theorem ownRun_of_result (shares : Shares client behaviour start actions traffic) {task : Nat}
    {result : CheckerResult} (known : traffic.session.resultOf? (.polled task) = some result) :
    ∃ leader moment, Decided client behaviour start actions traffic (.polled task) leader moment ∧
      result = moment.session.ownRun client behaviour leader.question := by
  obtain ⟨gateActions, sound, deathless⟩ := shares.undying
  obtain ⟨run, member, rfl, noted⟩ := sound.noted_of_result deathless known
  exact shares.noted run member result noted

end Shares

/-- The request for which a turn was decided on is the one that leads it from then on. -/
theorem Decided.leader? {turn : Turn} {leader : Request} {moment : Traffic}
    (decided : Decided client behaviour start actions traffic turn leader moment)
    (inOrder : traffic.InOrder) : traffic.session.leader? turn = some leader := by
  obtain ⟨_, named, leads⟩ := Session.mem_of_leader? decided.undecided.leader
  exact named ▸ inOrder.tidy.leader? decided.member leads

/-- Whatever happens in whichever order, a question for the state of a project is answered with what
the run for the file of its leader comes to, at the moment when the turn was decided on. The answer is
that of a run of its own where the checker does not care for which of the two files it is run, and it
tells of a missing file exactly if that of the leader was missing. Every question has its answer once
no poll can go on, unless the checker waits for a gate that is closed. -/
theorem polls_come_to_the_leaders_run {disk : Disk}
    (ran : (Traffic.start disk).run? client behaviour actions = some traffic)
    {request : Request} (asked : request ∈ traffic.session.requests) {file : Path}
    (status : request.question = .status file) :
    ∃ leader ∈ traffic.session.requests, ∃ first, leader.leads ∧ leader.turn = request.turn ∧
      leader.question = .status first ∧
      (∀ result, traffic.session.resultOf? request.turn = some result → ∃ moment,
        Decided client behaviour (Traffic.start disk) actions traffic request.turn leader moment ∧
        result = moment.session.ownRun client behaviour (.status first) ∧
        (moment.session.Alike client behaviour first file →
          result = moment.session.ownRun client behaviour (.status file)) ∧
        (client.options.enabled → (result = .ok (.skipped .fileMissing) ↔
          moment.session.disk.exists? first = false))) ∧
      (traffic.PollsRest client behaviour →
        (traffic.session.resultOf? request.turn).isSome ∨ traffic.Pauses request.turn) := by
  have shares := Shares.of_run ran
  have inOrder := InOrder.of_run (inOrder_start disk) ran
  obtain ⟨_, run, member, polled⟩ := shares.polls request asked file status
  obtain ⟨leader, among, leads, turn⟩ := shares.led run member
  obtain ⟨first, question⟩ := shares.statuses leader among run.task turn
  rw [polled]
  refine ⟨leader, among, first, leads, turn, question, fun result known => ?_, fun rest => ?_⟩
  · obtain ⟨decider, moment, decided, own⟩ := shares.ownRun_of_result known
    -- A turn has one leader, so it was decided on for this one.
    have same : decider = leader := by
      have leading := inOrder.tidy.leader? among leads
      rw [turn, decided.leader? inOrder] at leading
      exact Option.some.inj leading
    subst same
    rw [question] at own
    refine ⟨moment, decided, own, fun alike => own.trans alike.ownRun_eq, fun enabled => ?_⟩
    rw [own]
    exact Session.ownRun_status_eq_fileMissing enabled first
  · rcases shares.isSettled_or_pauses inOrder rest member with settled | pauses
    · exact Or.inl (Option.isSome_iff_exists.mpr (ProjectQueue.result_of_isSettled settled))
    · exact Or.inr pauses

/-- A checker that tells that all is well. -/
def contented : Behaviour := fun _ _ =>
  ⟨[.write .out (Utf8.encode "\x7b\"passed\":true,\"errors\":[]\x7d")], .code 0, false⟩

/-- The state of a project is asked for twice, and the poll of it is begun. -/
def sharing (one other : Path) : List Action :=
  [.ask (.status one) none, .ask (.status other) none, .gate (.wake 0), .gate (.start 0)]

/-- A poll is decided on, and its checker runs to its end. -/
def checking : List Action :=
  [.decide (.polled 0), .move 0 .child, .move 0 .child, .move 0 .child, .move 0 .drainOutput,
    .move 0 .drainOutput, .move 0 .drainErrors, .finish 0]

/-- The task of a poll gives its result away. -/
def settling : List Action := [.gate (.leave 0), .gate (.clear 0), .gate (.settle 0)]

/-- What is told to all who asked for the state of a project. -/
def told (traffic : Traffic) :
    List (Question × Option (Except CheckerError (Option Reply.Status))) :=
  traffic.session.requests.map fun request =>
    (request.question, (traffic.session.resultOf? request.turn).map
      (CheckerResult.decode Reply.Status.ofJson?))

/-- Somebody who joins a poll whose leader has a file of the project gets what the checker said. -/
theorem polls_come_to_the_leaders_run_in_project :
    ∃ traffic, (Traffic.start linkedDisk).run? overridden contented
        (sharing ⟨true, ["a.js", "proj"]⟩ ⟨true, ["b.js", "src", "proj"]⟩ ++ checking ++ settling) =
          some traffic ∧
      ∃ request ∈ traffic.session.requests,
        request.question = .status ⟨true, ["b.js", "src", "proj"]⟩ ∧
        ∃ (leader : Request) (first : Path) (moment : Traffic) (result : CheckerResult),
          leader.question = .status first ∧
          moment.session.Undecided request.turn leader ∧
          traffic.session.resultOf? request.turn = some result ∧
          result = moment.session.ownRun overridden contented (.status first) ∧
          result.decode Reply.Status.ofJson? = .ok (some ⟨true, []⟩) := by
  have view : ((Traffic.start linkedDisk).run? overridden contented
      (sharing ⟨true, ["a.js", "proj"]⟩ ⟨true, ["b.js", "src", "proj"]⟩ ++ checking ++
        settling)).map told =
      some [(.status ⟨true, ["a.js", "proj"]⟩, some (.ok (some ⟨true, []⟩))),
        (.status ⟨true, ["b.js", "src", "proj"]⟩, some (.ok (some ⟨true, []⟩)))] := by
    decide +kernel
  obtain ⟨traffic, ran, tells⟩ := Option.map_eq_some_iff.mp view
  have listed : (Question.status ⟨true, ["b.js", "src", "proj"]⟩,
      some (Except.ok (some (Reply.Status.mk true [])))) ∈ traffic.told := by
    rw [tells]
    exact .tail _ (.head _)
  obtain ⟨request, member, same⟩ := List.mem_map.mp listed
  obtain ⟨asked, reads⟩ := Prod.mk.inj same
  obtain ⟨result, known, decoded⟩ := Option.map_eq_some_iff.mp reads
  obtain ⟨leader, _, first, _, _, question, answered, _⟩ :=
    polls_come_to_the_leaders_run ran member asked
  obtain ⟨moment, decided, own, _⟩ := answered result known
  exact ⟨traffic, ran, request, member, asked, leader, first, moment, result, question,
    decided.undecided, known, own, decoded⟩

/-- A question about a file that is there gets no result, for it joined that about a missing file of
the project; a run of its own would have told that all is well. -/
theorem joiner_of_missing_file_gets_nothing :
    ∃ moment traffic,
      (Traffic.start linkedDisk).run? overridden contented
        (sharing ⟨true, ["gone.js", "proj"]⟩ ⟨true, ["a.js", "proj"]⟩) = some moment ∧
      (Traffic.start linkedDisk).run? overridden contented
        (sharing ⟨true, ["gone.js", "proj"]⟩ ⟨true, ["a.js", "proj"]⟩ ++
          .decide (.polled 0) :: settling) = some traffic ∧
      overridden.options.enabled ∧ linkedDisk.exists? ⟨true, ["a.js", "proj"]⟩ ∧
      Session.rootKey linkedDisk ⟨true, ["gone.js", "proj"]⟩ =
        Session.rootKey linkedDisk ⟨true, ["a.js", "proj"]⟩ ∧
      traffic.told = [(.status ⟨true, ["gone.js", "proj"]⟩, some (.ok none)),
        (.status ⟨true, ["a.js", "proj"]⟩, some (.ok none))] ∧
      (moment.session.ownRun overridden contented (.status ⟨true, ["a.js", "proj"]⟩)).decode
        Reply.Status.ofJson? = .ok (some ⟨true, []⟩) := by
  have alone : ((Traffic.start linkedDisk).run? overridden contented
      (sharing ⟨true, ["gone.js", "proj"]⟩ ⟨true, ["a.js", "proj"]⟩)).map (fun moment =>
        (moment.session.ownRun overridden contented (.status ⟨true, ["a.js", "proj"]⟩)).decode
          Reply.Status.ofJson?) = some (.ok (some ⟨true, []⟩)) := by decide +kernel
  have view : ((Traffic.start linkedDisk).run? overridden contented
      (sharing ⟨true, ["gone.js", "proj"]⟩ ⟨true, ["a.js", "proj"]⟩ ++
        .decide (.polled 0) :: settling)).map told =
      some [(.status ⟨true, ["gone.js", "proj"]⟩, some (.ok none)),
        (.status ⟨true, ["a.js", "proj"]⟩, some (.ok none))] := by decide +kernel
  obtain ⟨moment, reached, well⟩ := Option.map_eq_some_iff.mp alone
  obtain ⟨traffic, ran, tells⟩ := Option.map_eq_some_iff.mp view
  exact ⟨moment, traffic, reached, ran, by decide +kernel, by decide +kernel, by decide +kernel,
    tells, well⟩

end Traffic

end FlowService
