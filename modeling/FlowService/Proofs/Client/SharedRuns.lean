import FlowService.Proofs.Client.Polling
import FlowService.Proofs.Process.Verdicts

/-!
Whoever asks for the state of a project gets what the checker says when it is run for the question
that leads the poll. That is as good as a run of its own where the checker does not care which of the
two files it is run for.
-/

namespace FlowService

variable {platform : Option String}

namespace RunningChecker

/-- A process that was just started has all of its program before it. -/
theorem start_eq {disk : Disk} {environment : Environment} {behaviour : Behaviour}
    {earlier : List Invocation} {invocation : Invocation} {running : RunningChecker}
    (started : start disk environment behaviour earlier invocation = .ok running) :
    ∃ payload, running.conversation = .start running.conversation.program payload ∧
      running.interrupted = false := by
  unfold start at started
  split at started
  · cases started
  · cases started
    exact ⟨_, rfl, rfl⟩

/-- What a program comes to that is left alone. -/
def comesTo (program : Program) : CheckerResult :=
  .ofExit program.exit (Conversation.written .out program.instructions)
    (Conversation.written .err program.instructions)

/-- A process that nobody interrupted comes to what its program says. -/
theorem outcome?_eq {program : Program} {running : RunningChecker} {result : CheckerResult}
    (delivers : Conversation.Delivers program running.conversation)
    (untold : running.interrupted = false) (outcome : running.outcome? = some result) :
    result = comesTo program := by
  -- A process that is not over has no outcome, and one that is over ended as its program says.
  cases ended : running.conversation.ended with
  | none => simp [outcome?, RunningChecker.result?, ended] at outcome
  | some exit =>
    have found : running.result? = some
        (.ofExit exit running.conversation.output running.conversation.errors) := by
      simp [RunningChecker.result?, ended, untold, CheckerResult.ofEnding]
    unfold outcome? at outcome
    rw [found] at outcome
    split at outcome
    · rename_i canceled
      exact absurd (Option.some.inj canceled) (CheckerResult.ofExit_ne_canceled _ _ _ _)
    · rename_i known
      split at outcome
      · cases outcome
      · rename_i closed
        simp only [Bool.or_eq_true, not_or, Bool.not_eq_true] at closed
        have output : running.conversation.output = _ := delivers.kept .out closed.1
        have errors : running.conversation.errors = _ := delivers.kept .err closed.2
        rw [output, errors, (delivers.done exit ended).1] at known
        rw [← Option.some.inj outcome, ← Option.some.inj known]
        exact CheckerResult.ofExit_take ..
    · cases outcome

end RunningChecker

namespace Session

/-- What an invocation comes to that is carried out in a session as it stands and is left alone. -/
def runOf (client : Client platform) (behaviour : Behaviour) (session : Session)
    (invocation : Invocation) : CheckerResult :=
  match session.launched client behaviour invocation with
  | .error error => .error error
  | .ok running => RunningChecker.comesTo running.conversation.program

/-- What a question comes to that is carried out by itself in a session as it stands. -/
def ownRun (client : Client platform) (behaviour : Behaviour) (session : Session)
    (question : Question) : CheckerResult :=
  match (client.decide session.disk session.locator question false).1 with
  | .done result => result
  | .run invocation => session.runOf client behaviour invocation

/-- The checker does not care for which of two files it is asked for the state of their project: both
are there or neither is, they have the same binary, and it answers the same in their directories. -/
structure Alike (client : Client platform) (behaviour : Behaviour) (session : Session)
    (one other : Path) : Prop where
  there : session.disk.exists? one = session.disk.exists? other
  binary : (client.binaryFor session.disk session.locator (Project.directoryOf one)).1 =
    (client.binaryFor session.disk session.locator (Project.directoryOf other)).1
  answer : ∀ binary, session.runOf client behaviour
      ⟨binary, (Question.status one).arguments, Project.directoryOf one, none⟩ =
    session.runOf client behaviour
      ⟨binary, (Question.status other).arguments, Project.directoryOf other, none⟩

variable {client : Client platform} {behaviour : Behaviour} {session : Session}

/-- What a question for the state of a project comes to depends on the file in three ways. -/
theorem ownRun_status (file : Path) :
    session.ownRun client behaviour (.status file) =
      if !client.options.enabled then .ok (.skipped .disabled)
      else if !session.disk.exists? file then .ok (.skipped .fileMissing)
      else match (client.binaryFor session.disk session.locator (Project.directoryOf file)).1 with
        | none => .ok (.skipped .binaryMissing)
        | some binary => session.runOf client behaviour
          ⟨binary, (Question.status file).arguments, Project.directoryOf file, none⟩ := by
  -- The reasons to leave the checker alone come in the order in which they are listed.
  unfold ownRun Client.decide
  cases enabled : client.options.enabled with
  | false => rfl
  | true =>
    cases there : session.disk.exists? file with
    | false => simp [Question.file, there]
    | true =>
      cases found : client.binaryFor session.disk session.locator (Project.directoryOf file) with
      | mk binary locator =>
        cases binary <;> simp [Question.file, Question.contents?, there, found]

/-- An enabled client finds a file missing exactly when the disk does not have it. -/
theorem ownRun_status_eq_fileMissing (enabled : client.options.enabled) (file : Path) :
    session.ownRun client behaviour (.status file) = .ok (.skipped .fileMissing) ↔
      session.disk.exists? file = false := by
  rw [ownRun_status, enabled]
  cases there : session.disk.exists? file with
  | false => simp
  | true =>
    -- A checker that was run brings something else.
    have ran : ∀ invocation, session.runOf client behaviour invocation ≠
        .ok (.skipped .fileMissing) := by
      intro invocation
      unfold runOf
      split
      · simp
      · exact CheckerResult.ofExit_ne_skipped _ _ _ _ _
    simp only [Bool.not_true, Bool.false_eq_true, if_false, Bool.true_eq_false, iff_false]
    split
    · simp
    · exact ran _

/-- Runs for files that are alike to the checker come to the same. -/
theorem Alike.ownRun_eq {one other : Path} (alike : session.Alike client behaviour one other) :
    session.ownRun client behaviour (.status one) =
      session.ownRun client behaviour (.status other) := by
  rw [ownRun_status, ownRun_status, alike.there, alike.binary]
  simp only [alike.answer]

end Session

namespace Session

variable {client : Client platform} {behaviour : Behaviour} {session : Session}

/-- A question that cannot be canceled is decided on as if it were asked by itself. -/
theorem decisionOn_untokened {request : Request} (untokened : request.token = none) :
    session.decisionOn client request =
      client.decide session.disk session.locator request.question false := by
  rw [decisionOn, isCanceled, untokened]
  rfl

end Session

namespace Traffic

variable {client : Client platform} {behaviour : Behaviour} {start traffic next : Traffic}
variable {actions : List Action}

/-- The requests after a step: one more for a poll, or one more for a task that is admitted. -/
theorem Step.requests {action : Action} (step : Step client behaviour traffic action next) :
    next.session.requests = traffic.session.requests ∨
    (∃ file token, action = .ask (.status file) token ∧ next.session =
      (traffic.session.ask (.status file) token).2) ∨
    ∃ asking ∈ traffic.asked, next.session.gate = traffic.session.gate ∧
      next.session.requests = traffic.session.requests ++
        [⟨asking.question, asking.token, .queued asking.ticket, true⟩] := by
  cases step with
  | @poll file token => exact Or.inr (Or.inl ⟨file, token, rfl, rfl⟩)
  | enter member drawn => exact Or.inr (Or.inr ⟨_, member, rfl, rfl⟩)
  | answer _ _ ends | fail _ _ _ ends | kill _ _ _ ends | finish _ _ ends =>
    exact Or.inl ends.requests
  | _ => exact Or.inl rfl

/-- A poll adds a request for the task whose result is shared. -/
theorem ask_status_requests (session : Session) (file : Path) (token : Option String) :
    (session.ask (.status file) token).2.requests = session.requests ++
      [⟨.status file, none, .polled (session.gate.poll (Session.rootKey session.disk file)).1,
        (session.gate.poll (Session.rootKey session.disk file)).2.1⟩] := rfl

/-- No request is forgotten. -/
theorem Step.mem_requests {action : Action} (step : Step client behaviour traffic action next)
    {request : Request} (member : request ∈ traffic.session.requests) :
    request ∈ next.session.requests := by
  rcases step.requests with same | ⟨file, token, _, same⟩ | ⟨asking, _, _, same⟩
  · exact same ▸ member
  · rw [same, ask_status_requests]
    exact List.mem_append_left _ member
  · rw [same]
    exact List.mem_append_left _ member

/-- No poll is forgotten. -/
theorem Step.run_lasts {action : Action} (step : Step client behaviour traffic action next)
    {run : PollRun RootKey CheckerOutput} (member : run ∈ traffic.session.gate.runs) :
    ∃ later ∈ next.session.gate.runs, later.task = run.task := by
  rcases step.gateStep with same | ⟨_, stepped, _⟩ | ⟨_, _, _, stepped⟩ | ⟨_, _, _, stepped⟩
  · exact ⟨run, same ▸ member, rfl⟩
  all_goals exact stepped.run_lasts member

/-- A process of a turn is as it was, or it was just started, or it made a move, or it was told of a
cancellation. -/
theorem Step.process {action : Action} (step : Step client behaviour traffic action next)
    {turn : Turn} {running : RunningChecker} (member : (turn, running) ∈ next.session.processes) :
    (turn, running) ∈ traffic.session.processes ∨
    (∃ request invocation, action = .decide turn ∧ traffic.session.Undecided turn request ∧
      (traffic.session.decisionOn client request).1 = .run invocation ∧
      traffic.session.launched client behaviour invocation = .ok running) ∨
    ∃ before, (turn, before) ∈ traffic.session.processes ∧
      ((∃ move, before.conversation.Step Pipe.standardCapacity traffic.session.opened.contains move
          running.conversation ∧ running.interrupted = before.interrupted) ∨
        before.interrupted ∨ ∃ request, traffic.session.leader? turn = some request ∧
          traffic.session.isCanceled request) := by
  cases step with
  | answer _ _ ends | fail _ _ _ ends | finish _ _ ends =>
    rw [withSession, ends.processes] at member
    exact Or.inl member
  | @launch other request invocation launched locator undecided decided started =>
    rcases List.mem_append.mp member with old | new
    · exact Or.inl old
    · obtain ⟨rfl, rfl⟩ := Prod.mk.inj (List.mem_singleton.mp new)
      exact Or.inr (Or.inl ⟨request, invocation, rfl, undecided, by rw [decided], started⟩)
  | @move index other before move conversation found moves =>
    rcases Session.mem_modify member with old | ⟨earlier, located, rfl⟩
    · exact Or.inl old
    · obtain ⟨rfl, rfl⟩ := Prod.mk.inj (Option.some.inj (found.symm.trans located))
      exact Or.inr (Or.inr ⟨before, List.mem_of_getElem? found, Or.inl ⟨move, moves, rfl⟩⟩)
  | @interrupt index other before request found leader canceled untold alive =>
    rcases Session.mem_modify member with old | ⟨earlier, located, rfl⟩
    · exact Or.inl old
    · obtain ⟨rfl, rfl⟩ := Prod.mk.inj (Option.some.inj (found.symm.trans located))
      exact Or.inr (Or.inr ⟨before, List.mem_of_getElem? found,
        Or.inr (Or.inr ⟨request, leader, canceled⟩)⟩)
  | @kill index other before session found alive told ends =>
    rw [withSession, ends.processes] at member
    rcases Session.mem_modify member with old | ⟨earlier, located, same⟩
    · exact Or.inl old
    · obtain ⟨rfl, rfl⟩ := Prod.mk.inj (Option.some.inj (found.symm.trans located))
      exact Or.inr (Or.inr ⟨before, List.mem_of_getElem? found, Or.inr (Or.inl told)⟩)
  | _ => exact Or.inl member

/-- In some state of a run that led to a client its turn was decided on, for the request that leads
it. -/
structure Decided (client : Client platform) (behaviour : Behaviour) (start : Traffic)
    (actions : List Action) (traffic : Traffic) (turn : Turn) (leader : Request)
    (moment : Traffic) : Prop where
  reached : ∃ before, before ++ [.decide turn] <+: actions ∧
    start.run? client behaviour before = some moment
  undecided : moment.session.Undecided turn leader
  member : leader ∈ traffic.session.requests

/-- What was decided stays so. -/
theorem Decided.later {turn : Turn} {leader : Request} {moment : Traffic}
    (decided : Decided client behaviour start actions traffic turn leader moment)
    {action : Action} (step : Step client behaviour traffic action next) :
    Decided client behaviour start (actions ++ [action]) next turn leader moment where
  reached := by
    obtain ⟨before, within, ran⟩ := decided.reached
    exact ⟨before, within.trans (List.prefix_append ..), ran⟩
  undecided := decided.undecided
  member := step.mem_requests decided.member

/-- A turn that is decided on now was decided on from then on. -/
theorem Decided.now {turn : Turn} {leader : Request}
    (ran : start.run? client behaviour actions = some traffic)
    (undecided : traffic.session.Undecided turn leader)
    (step : Step client behaviour traffic (.decide turn) next) :
    Decided client behaviour start (actions ++ [.decide turn]) next turn leader traffic where
  reached := ⟨actions, List.prefix_refl _, ran⟩
  undecided := undecided
  member := step.mem_requests (Session.mem_of_leader? undecided.leader).1

/-- The process of a poll says what its program says, which was started for the leader. -/
def WorksOut (client : Client platform) (behaviour : Behaviour) (start : Traffic)
    (actions : List Action) (traffic : Traffic) (turn : Turn) (running : RunningChecker) : Prop :=
  ∃ leader moment invocation first,
    Decided client behaviour start actions traffic turn leader moment ∧
    (moment.session.decisionOn client leader).1 = .run invocation ∧
    moment.session.launched client behaviour invocation = .ok first ∧
    running.interrupted = false ∧ running.conversation.Fits Pipe.standardCapacity ∧
    Conversation.Delivers first.conversation.program running.conversation

/-- What holds of the polls of a client at any time of a run. -/
structure Shares (client : Client platform) (behaviour : Behaviour) (start : Traffic)
    (actions : List Action) (traffic : Traffic) : Prop where
  undying : traffic.Undying
  headed : traffic.session.gate.queue.Headed
  queued : ∀ asking ∈ traffic.asked, ∀ file, asking.question ≠ .status file
  polls : ∀ request ∈ traffic.session.requests, ∀ file, request.question = .status file →
    request.token = none ∧ ∃ run ∈ traffic.session.gate.runs, request.turn = .polled run.task
  statuses : ∀ request ∈ traffic.session.requests, ∀ task, request.turn = .polled task →
    ∃ file, request.question = .status file
  led : ∀ run ∈ traffic.session.gate.runs, ∃ leader ∈ traffic.session.requests,
    leader.leads ∧ leader.turn = .polled run.task
  working : ∀ task running, (.polled task, running) ∈ traffic.session.processes →
    WorksOut client behaviour start actions traffic (.polled task) running
  noted : ∀ run ∈ traffic.session.gate.runs, ∀ result, run.bodyResult = some result →
    ∃ leader moment,
      Decided client behaviour start actions traffic (.polled run.task) leader moment ∧
      result = moment.session.ownRun client behaviour leader.question

namespace Shares

/-- The leader of a poll cannot be canceled. -/
theorem untokened (shares : Shares client behaviour start actions traffic) {task : Nat}
    {leader : Request} (member : leader ∈ traffic.session.requests)
    (polled : leader.turn = .polled task) : leader.token = none := by
  obtain ⟨file, asked⟩ := shares.statuses leader member task polled
  exact (shares.polls leader member file asked).1

/-- Every question for a state that is asked has a poll. -/
theorem pollsStep (shares : Shares client behaviour start actions traffic) {action : Action}
    (step : Step client behaviour traffic action next) :
    ∀ request ∈ next.session.requests, ∀ file, request.question = .status file →
      request.token = none ∧
        ∃ run ∈ next.session.gate.runs, request.turn = .polled run.task := by
  intro request member file asked
  have old : request ∈ traffic.session.requests → request.token = none ∧
      ∃ run ∈ next.session.gate.runs, request.turn = .polled run.task := by
    intro member
    obtain ⟨untokened, run, runMember, polled⟩ := shares.polls request member file asked
    obtain ⟨later, laterMember, same⟩ := step.run_lasts runMember
    exact ⟨untokened, later, laterMember, same ▸ polled⟩
  -- A request that is new is that of a poll, or it was asked for the queue.
  rcases step.requests with same | ⟨other, token, _, same⟩ | ⟨asking, among, _, same⟩
  · exact old (same ▸ member)
  · rw [same, ask_status_requests] at member
    rcases List.mem_append.mp member with among | new
    · exact old among
    · obtain rfl := List.mem_singleton.mp new
      have gate : next.session.gate = (traffic.session.gate.poll
          (Session.rootKey traffic.session.disk other)).2.2 := by
        rw [same]
        rfl
      refine ⟨rfl, ?_⟩
      -- Whoever polls joins a poll that is there, or starts a new one.
      obtain ⟨gateActions, sound, _⟩ := shares.undying
      rw [gate]
      cases out : traffic.session.gate.outstanding?
          (Session.rootKey traffic.session.disk other) with
      | none =>
        rw [StatusGate.poll_of_free out]
        exact ⟨_, List.mem_append_right _ (List.mem_singleton_self _), rfl⟩
      | some entry =>
        rw [StatusGate.poll_of_outstanding out]
        obtain ⟨run, runMember, _, rfl, _⟩ := (sound.entries _ entry).mp out
        exact ⟨run, runMember, rfl⟩
  · rw [same] at member
    rcases List.mem_append.mp member with old' | new
    · exact old old'
    · obtain rfl := List.mem_singleton.mp new
      exact absurd asked (shares.queued asking among file)

/-- Every poll has a leader. -/
theorem ledStep (shares : Shares client behaviour start actions traffic) {action : Action}
    (step : Step client behaviour traffic action next) :
    ∀ run ∈ next.session.gate.runs, ∃ leader ∈ next.session.requests,
      leader.leads ∧ leader.turn = .polled run.task := by
  intro run member
  have old : (∃ before ∈ traffic.session.gate.runs, before.task = run.task) →
      ∃ leader ∈ next.session.requests, leader.leads ∧ leader.turn = .polled run.task := by
    rintro ⟨before, beforeMember, same⟩
    obtain ⟨leader, among, leads, turn⟩ := shares.led before beforeMember
    exact ⟨leader, step.mem_requests among, leads, same ▸ turn⟩
  rcases step.gateStep with same | ⟨own, stepped, isOwn⟩ | ⟨file, token, asked, stepped⟩ |
    ⟨task, result, _, stepped⟩
  · exact old ⟨run, same ▸ member, rfl⟩
  · rcases stepped.runs member with before | ⟨root, _, rfl, _⟩
    · exact old before
    · cases isOwn
  · rcases stepped.runs member with before | ⟨root, free, polled, fresh⟩
    · exact old before
    · -- The question that starts a poll leads it.
      obtain rfl := StatusGate.Action.poll.inj polled
      subst asked
      cases step with
      | poll =>
        refine ⟨⟨.status file, none,
          .polled (traffic.session.gate.poll (Session.rootKey traffic.session.disk file)).1,
          (traffic.session.gate.poll (Session.rootKey traffic.session.disk file)).2.1⟩,
          List.mem_append_right _ (List.mem_singleton_self _), ?_⟩
        rw [StatusGate.poll_of_free free, fresh]
        exact ⟨rfl, rfl⟩
      | ask queued => exact absurd rfl (queued file)
  · rcases stepped.runs member with before | ⟨root, _, ends, _⟩
    · exact old before
    · cases ends

/-- A process of a poll goes on as its program says, since nobody can cancel it. -/
theorem workingStep (shares : Shares client behaviour start actions traffic)
    (ran : start.run? client behaviour actions = some traffic) {action : Action}
    (step : Step client behaviour traffic action next) :
    ∀ task running, (.polled task, running) ∈ next.session.processes →
      WorksOut client behaviour start (actions ++ [action]) next (.polled task) running := by
  intro task running member
  -- A process is the same, or it was just started, or it went on from an earlier one.
  rcases step.process member with old | ⟨leader, invocation, rfl, undecided, decided, started⟩ |
    ⟨before, beforeMember, happened⟩
  · obtain ⟨leader, moment, invocation, first, decided, others⟩ := shares.working task running old
    exact ⟨leader, moment, invocation, first, decided.later step, others⟩
  · obtain ⟨payload, begun, untold⟩ := RunningChecker.start_eq started
    refine ⟨leader, traffic, invocation, running, .now ran undecided step, decided, started,
      untold, ?_, ?_⟩
    · rw [begun]
      exact Conversation.fits_start _ _ _
    · rw [begun]
      exact .start ..
  · obtain ⟨leader, moment, invocation, first, decided, runs, started, untold, fits, delivers⟩ :=
      shares.working task before beforeMember
    rcases happened with ⟨move, moves, same⟩ | told | ⟨request, leads, canceled⟩
    · exact ⟨leader, moment, invocation, first, decided.later step, runs, started,
        same.trans untold, fits.step moves, delivers.step moves⟩
    · rw [untold] at told
      cases told
    · obtain ⟨among, named, _⟩ := Session.mem_of_leader? leads
      rw [Session.isCanceled, shares.untokened among named] at canceled
      cases canceled

/-- Whatever the body of a poll comes to is what its leader's own run comes to. -/
theorem ending (shares : Shares client behaviour start actions traffic)
    (ran : start.run? client behaviour actions = some traffic) {action : Action} {task : Nat}
    {result : CheckerResult} (ends : Ending client behaviour traffic action (.polled task) result)
    (step : Step client behaviour traffic action next) :
    ∃ leader moment, Decided client behaviour start (actions ++ [action]) next (.polled task)
        leader moment ∧ result = moment.session.ownRun client behaviour leader.question := by
  -- A decision on the leader is one on its question alone, for it cannot be canceled.
  have alone : ∀ leader, traffic.session.leader? (.polled task) = some leader →
      traffic.session.decisionOn client leader = client.decide traffic.session.disk
        traffic.session.locator leader.question false := by
    intro leader leads
    obtain ⟨among, named, _⟩ := Session.mem_of_leader? leads
    exact Session.decisionOn_untokened (shares.untokened among named)
  cases ends with
  | @answer _ leader _ undecided decided =>
    refine ⟨leader, traffic, .now ran undecided step, ?_⟩
    rw [alone leader undecided.leader] at decided
    simp [Session.ownRun, decided]
  | @fail _ leader invocation error undecided decided failed =>
    refine ⟨leader, traffic, .now ran undecided step, ?_⟩
    rw [alone leader undecided.leader] at decided
    simp [Session.ownRun, decided, Session.runOf, failed]
  | kill found told =>
    obtain ⟨_, _, _, _, _, _, _, untold, _⟩ :=
      shares.working task _ (List.mem_of_getElem? found)
    rw [untold] at told
    cases told
  | finish found outcome =>
    obtain ⟨leader, moment, invocation, first, decided, runs, started, untold, _, delivers⟩ :=
      shares.working task _ (List.mem_of_getElem? found)
    refine ⟨leader, moment, decided.later step, ?_⟩
    obtain ⟨_, named, _⟩ := Session.mem_of_leader? decided.undecided.leader
    rw [Session.decisionOn_untokened (shares.untokened decided.member named)] at runs
    rw [RunningChecker.outcome?_eq delivers untold outcome]
    simp [Session.ownRun, runs, Session.runOf, started]

/-- Every result that is noted is that of the leader's own run. -/
theorem notedStep (shares : Shares client behaviour start actions traffic)
    (ran : start.run? client behaviour actions = some traffic) {action : Action}
    (step : Step client behaviour traffic action next) :
    ∀ run ∈ next.session.gate.runs, ∀ result, run.bodyResult = some result →
      ∃ leader moment, Decided client behaviour start (actions ++ [action]) next
          (.polled run.task) leader moment ∧
        result = moment.session.ownRun client behaviour leader.question := by
  intro run member result noted
  -- What was noted before stays as it was decided then.
  have old : (∃ before ∈ traffic.session.gate.runs, before.task = run.task ∧
      before.bodyResult = some result) →
      ∃ leader moment, Decided client behaviour start (actions ++ [action]) next
          (.polled run.task) leader moment ∧
        result = moment.session.ownRun client behaviour leader.question := by
    rintro ⟨before, beforeMember, same, known⟩
    obtain ⟨leader, moment, decided, own⟩ := shares.noted before beforeMember result known
    exact ⟨leader, moment, same ▸ decided.later step, own⟩
  rcases step.gateStep with same | ⟨own, stepped, isOwn⟩ | ⟨file, token, _, stepped⟩ |
    ⟨task, brought, ends, stepped⟩
  · exact old ⟨run, same ▸ member, rfl, noted⟩
  · rcases stepped.noted member noted with before | rfl
    · exact old before
    · cases isOwn
  · rcases stepped.noted member noted with before | polled
    · exact old before
    · cases polled
  · rcases stepped.noted member noted with before | finished
    · exact old before
    · obtain ⟨rfl, rfl⟩ : task = run.task ∧ brought = result := by simpa using finished
      exact shares.ending ran ends step

/-- What holds of the polls of a client holds after every step. -/
theorem step (shares : Shares client behaviour start actions traffic)
    (ran : start.run? client behaviour actions = some traffic) {action : Action}
    (step : Step client behaviour traffic action next) :
    Shares client behaviour start (actions ++ [action]) next where
  undying := shares.undying.step step
  headed := by
    obtain ⟨gateActions, sound, _⟩ := shares.undying
    rcases step.gateStep with same | ⟨_, stepped, _⟩ | ⟨_, _, _, stepped⟩ | ⟨_, _, _, stepped⟩
    · rw [same]
      exact shares.headed
    all_goals exact stepped.headed sound.orderly shares.headed
  queued := by
    cases step with
    | ask queued =>
      intro asking member
      rcases List.mem_append.mp member with old | new
      · exact shares.queued asking old
      · obtain rfl := List.mem_singleton.mp new
        exact queued
    | _ => exact shares.queued
  polls := shares.pollsStep step
  statuses := by
    intro request member task polled
    rcases step.requests with same | ⟨other, token, _, same⟩ | ⟨asking, _, _, same⟩
    · exact shares.statuses request (same ▸ member) task polled
    · rw [same, ask_status_requests] at member
      rcases List.mem_append.mp member with old | new
      · exact shares.statuses request old task polled
      · obtain rfl := List.mem_singleton.mp new
        exact ⟨other, rfl⟩
    · rw [same] at member
      rcases List.mem_append.mp member with old | new
      · exact shares.statuses request old task polled
      · obtain rfl := List.mem_singleton.mp new
        cases polled
  led := shares.ledStep step
  working := shares.workingStep ran step
  noted := shares.notedStep ran step

/-- Nothing was asked of a client whose session has just begun. -/
theorem begin (client : Client platform) (behaviour : Behaviour) (disk : Disk) :
    Shares client behaviour (Traffic.start disk) [] (Traffic.start disk) where
  undying := ⟨[], StatusGate.sound_empty, fun _ _ member => nomatch member⟩
  headed _ _ member := nomatch member
  queued _ member := nomatch member
  polls _ member := nomatch member
  statuses _ member := nomatch member
  led _ member := nomatch member
  working _ _ member := nomatch member
  noted _ member := nomatch member

/-- What holds of the polls of a client holds in every run. -/
theorem of_run {disk : Disk} (ran : (Traffic.start disk).run? client behaviour actions =
    some traffic) : Shares client behaviour (Traffic.start disk) actions traffic :=
  run_induction_along (motive := Shares client behaviour (Traffic.start disk))
    (.begin client behaviour disk) (fun _ _ _ _ ran shares step => shares.step ran step) ran

end Shares

end Traffic

end FlowService
