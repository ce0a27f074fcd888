import FlowService.Proofs.Client.Checkers
import FlowService.Proofs.Client.Omissions
import FlowService.Proofs.Queue.Brought

/-!
A question that is refused in its turn leaves no trace but its answer: the client goes on as if it
had never been asked, and as if its token had never fired.
-/

namespace FlowService

variable {platform : Option String}

open ProjectQueue (place)

/-- The request that a question becomes when its task is admitted. -/
def Asking.request (asking : Asking) : Request :=
  ⟨asking.question, asking.token, .queued asking.ticket, true⟩

namespace Traffic

variable {client : Client platform} {behaviour : Behaviour} {start traffic next moment : Traffic}
variable {actions before : List Action} {asking : Asking}

/-- A run comes through the state to which its first actions lead. -/
theorem run?_of_prefix (ran : start.run? client behaviour actions = some traffic)
    (within : before <+: actions) :
    ∃ moment later, start.run? client behaviour before = some moment ∧
      moment.run? client behaviour later = some traffic ∧ actions = before ++ later := by
  obtain ⟨later, rfl⟩ := within
  rw [run?_append] at ran
  obtain ⟨moment, reached, ranOn⟩ := Option.bind_eq_some_iff.mp ran
  exact ⟨moment, later, reached, ranOn, rfl⟩

/-- Every request of the queue is that of a question that was asked. -/
theorem request_of_run {disk : Disk}
    (ran : (Traffic.start disk).run? client behaviour actions = some traffic) :
    ∀ request ∈ traffic.session.requests, ∀ ticket, request.turn = .queued ticket →
      ∃ asking ∈ traffic.asked, request = asking.request := by
  refine run_induction (motive := fun _ traffic => ∀ request ∈ traffic.session.requests,
    ∀ ticket, request.turn = .queued ticket → ∃ asking ∈ traffic.asked, request = asking.request)
    (fun _ member => absurd member List.not_mem_nil) ?_ ran
  intro actions traffic action next requested step
  have old : ∀ request ∈ traffic.session.requests, ∀ ticket, request.turn = .queued ticket →
      ∃ asking ∈ next.asked, request = asking.request := by
    intro request member ticket turn
    obtain ⟨asking, asked, same⟩ := requested request member ticket turn
    exact ⟨asking, step.asked_lasts asked, same⟩
  intro request member ticket turn
  -- A new request is that of a poll, or of a question that was asked.
  rcases step.requests with same | ⟨file, token, _, same⟩ | ⟨asking, asked, _, same⟩
  · exact old request (same ▸ member) ticket turn
  · rw [same, ask_status_requests] at member
    rcases List.mem_append.mp member with before | new
    · exact old request before ticket turn
    · obtain rfl := List.mem_singleton.mp new
      cases turn
  · rw [same] at member
    rcases List.mem_append.mp member with before | new
    · exact old request before ticket turn
    · exact ⟨asking, step.asked_lasts asked, List.mem_singleton.mp new⟩

/-- Whoever leads the turn of a question is its own request. -/
theorem leader_eq_request {disk : Disk}
    (ran : (Traffic.start disk).run? client behaviour actions = some traffic)
    (asked : asking ∈ traffic.asked) (within : before <+: actions)
    (reached : (Traffic.start disk).run? client behaviour before = some moment)
    {request : Request} (leads : moment.session.leader? (.queued asking.ticket) = some request) :
    request = asking.request := by
  obtain ⟨member, named, _⟩ := Session.mem_of_leader? leads
  obtain ⟨other, otherAsked, rfl⟩ := request_of_run reached request member asking.ticket named
  obtain ⟨same, later, alsoReached, ranOn, _⟩ := run?_of_prefix ran within
  obtain rfl := Option.some.inj (reached.symm.trans alsoReached)
  -- No two questions have the same ticket.
  have distinct := (isExclusive_of_run ran).named
  rw [List.inj_on_of_nodup_map distinct (asked_lasts ranOn otherAsked) asked
    (Turn.queued.inj named)]

/-- A token that has fired stays so. -/
theorem Step.canceled_lasts {action : Action} (step : Step client behaviour traffic action next)
    {token : String} (fired : token ∈ traffic.session.canceled) :
    token ∈ next.session.canceled := by
  cases step with
  | poll | ask | enter | queue | gate | launch | move | interrupt | openGate | change | locate =>
    exact fired
  | answer _ _ ends | fail _ _ _ ends | kill _ _ _ ends | finish _ _ ends =>
    cases ends <;> exact fired
  | cancel => exact List.mem_append_left _ fired

/-- What a task of the queue has to give is what some step of the run ended its body with. -/
theorem ending_of_outcome {disk : Disk}
    (ran : (Traffic.start disk).run? client behaviour actions = some traffic) {ticket : Nat}
    {result : CheckerResult} (known : traffic.session.queue.outcome? ticket = some result) :
    ∃ before action moment, before ++ [action] <+: actions ∧
      (Traffic.start disk).run? client behaviour before = some moment ∧
      Ending client behaviour moment action (.queued ticket) result := by
  refine run_induction_along (motive := fun actions traffic =>
    traffic.session.queue.outcome? ticket = some result → ∃ before action moment,
      before ++ [action] <+: actions ∧
      (Traffic.start disk).run? client behaviour before = some moment ∧
      Ending client behaviour moment action (.queued ticket) result) ?_ ?_ ran known
  · exact fun none => nomatch none
  · intro actions traffic action next ran ended step known
    have earlier : traffic.session.queue.outcome? ticket = some result → ∃ before other moment,
        before ++ [other] <+: actions ++ [action] ∧
        (Traffic.start disk).run? client behaviour before = some moment ∧
        Ending client behaviour moment other (.queued ticket) result := by
      intro known
      obtain ⟨before, other, moment, within, others⟩ := ended known
      exact ⟨before, other, moment, within.trans (List.prefix_append actions [action]), others⟩
    have orderly : traffic.session.queue.Orderly := (isExclusive_of_run ran).orderly
    -- A task that has something to give had it before, or its body ends with it now.
    rcases step.queueStep with same | ⟨own, stepped, endless⟩ | ⟨other, brought, ending, stepped⟩
    · exact earlier (same ▸ known)
    · rcases stepped.outcome? orderly known with old | ⟨bodyEnd, same, _⟩
      · exact earlier old
      · exact absurd same (endless _ _)
    · rcases stepped.outcome? orderly known with old | ⟨bodyEnd, same, gives⟩
      · exact earlier old
      · cases same
        obtain rfl : brought = result := gives
        exact ⟨actions, action, traffic, List.prefix_refl _, ran, ending⟩

/-- If a question is decided on in the course of a run, it is to be refused then. -/
def RefusedInTurn (client : Client platform) (behaviour : Behaviour) (start : Traffic)
    (actions : List Action) (asking : Asking) : Prop :=
  ∀ before later, actions = before ++ .decide (.queued asking.ticket) :: later →
    ∀ moment, start.run? client behaviour before = some moment →
      moment.session.Refuses client asking.request

/-- A token that fired in the course of a run has fired. -/
theorem canceled_of_run {token : String} (ran : start.run? client behaviour actions = some traffic)
    (fired : .cancel token ∈ actions) : token ∈ traffic.session.canceled := by
  refine run_induction (motive := fun actions traffic =>
    .cancel token ∈ actions → token ∈ traffic.session.canceled) ?_ ?_ ran fired
  · exact fun member => absurd member List.not_mem_nil
  · intro actions traffic action next known step fired
    rcases List.mem_append.mp fired with before | now
    · exact step.canceled_lasts (known before)
    · obtain rfl := List.mem_singleton.mp now
      cases step with
      | cancel => exact List.mem_append_right _ (List.mem_singleton_self token)

/-- A question is refused if its token fires before it is decided on. -/
theorem RefusedInTurn.of_canceled {token : String} (bears : asking.token = some token)
    (fires : ∀ before later, actions = before ++ .decide (.queued asking.ticket) :: later →
      .cancel token ∈ before) : RefusedInTurn client behaviour start actions asking := by
  intro before later split moment reached
  left
  -- What has fired stays fired, so the question is canceled when its turn comes.
  have fired := canceled_of_run reached (fires before later split)
  simpa [Session.isCanceled, Asking.request, bears] using fired

/-- A client for which a ticket was never drawn is for all others as it is with it, where tickets
that were drawn later have moved up by one. -/
structure AsWithout (ticket : Nat) (whole part : Traffic) : Prop where
  disk : part.session.disk = whole.session.disk
  locator : part.session.locator = whole.session.locator
  gate : part.session.gate = whole.session.gate
  processes : part.session.processes =
    whole.session.processes.map (Prod.map (Turn.rename (place (· != ticket))) id)
  underWay : ∀ turn, turn ≠ .queued ticket →
    part.session.isUnderWay (turn.rename (place (· != ticket))) = whole.session.isUnderWay turn
  results : ∀ turn, turn ≠ .queued ticket →
    part.session.resultOf? (turn.rename (place (· != ticket))) = whole.session.resultOf? turn

/-- What remains without one ticket is as the whole to all others. -/
theorem Remains.asWithout {ticket : Nat} {muted : String → Bool} {whole part : Traffic}
    (remains : Remains (· != ticket) muted whole part) : AsWithout ticket whole part := by
  have kept : ∀ turn : Turn, turn ≠ .queued ticket → turn.isKept (· != ticket) := by
    intro turn apart
    cases turn with
    | queued other => simpa [Turn.isKept] using apart
    | polled => rfl
  refine ⟨remains.session.disk, remains.session.locator, remains.session.gate,
    remains.session.processes, fun turn apart => remains.session.isUnderWay (kept turn apart),
    fun turn apart => ?_⟩
  cases turn with
  | queued other =>
    show part.session.queue.result? _ = whole.session.queue.result? other
    unfold ProjectQueue.result?
    rw [remains.session.queue.stage? (kept _ apart)]
  | polled task =>
    show part.session.gate.result? task = whole.session.gate.result? task
    rw [remains.session.gate]

/-- A run without a question that is refused comes to what remains without its ticket. -/
theorem RefusedInTurn.remains {disk : Disk}
    (refused : RefusedInTurn client behaviour (Traffic.start disk) actions asking)
    (ran : (Traffic.start disk).run? client behaviour actions = some traffic)
    (asked : asking ∈ traffic.asked) {muted : String → Bool}
    (unmuted : ∀ other ∈ traffic.asked, other.ticket ≠ asking.ticket →
      other.token.any muted = false)
    (within : before <+: actions)
    (reached : (Traffic.start disk).run? client behaviour before = some moment) :
    ∃ other, (Traffic.start disk).run? client behaviour
        (keptActions (· != asking.ticket) muted 0 before) = some other ∧
      Remains (· != asking.ticket) muted moment other := by
  obtain ⟨_, later, alsoReached, ranOn, rest⟩ := run?_of_prefix ran within
  obtain rfl := Option.some.inj (reached.symm.trans alsoReached)
  have begins : Remains (· != asking.ticket) muted (Traffic.start disk) (Traffic.start disk) :=
    ⟨.start _ muted disk, rfl⟩
  refine begins.run (inOrder_start disk) ProjectQueue.patient_empty reached ?_ ?_
  · -- Of all tickets only that of the question is left out, and whoever leads its turn is refused.
    intro earlier ticket after split left middle came request leads
    obtain rfl : ticket = asking.ticket := by simpa using left
    have early : earlier <+: actions := by
      rw [rest, split, List.append_assoc]
      exact List.prefix_append ..
    rw [leader_eq_request ran asked early came leads]
    exact refused earlier (after ++ later) (by rw [rest, split, List.append_assoc]; rfl) middle came
  · intro other member kept
    exact unmuted other (asked_lasts ranOn member) (by simpa using kept)

/-- A question is refused at some moment of a run, and nothing but the queue takes notice of it. -/
structure Refusal (client : Client platform) (behaviour : Behaviour) (start : Traffic)
    (actions : List Action) (asking : Asking) (result : CheckerResult) (moment : Traffic) :
    Prop where
  reached : ∃ before, before ++ [.decide (.queued asking.ticket)] <+: actions ∧
    start.run? client behaviour before = some moment
  refuses : moment.session.Refuses client asking.request
  result : result = moment.session.refusal client asking.request
  step : ∃ queue, moment.step? client behaviour (.decide (.queued asking.ticket)) =
    some (moment.withSession { moment.session with queue := queue })

/-- A question that is refused has no process. -/
theorem RefusedInTurn.idle {disk : Disk}
    (refused : RefusedInTurn client behaviour (Traffic.start disk) actions asking)
    (ran : (Traffic.start disk).run? client behaviour actions = some traffic)
    (asked : asking ∈ traffic.asked) (within : before <+: actions)
    (reached : (Traffic.start disk).run? client behaviour before = some moment) :
    .queued asking.ticket ∉ moment.session.processes.map (·.1) := by
  -- Every process of a client works for a ticket that is kept.
  intro member
  obtain ⟨_, _, remains⟩ :=
    refused.remains ran asked (fun _ _ _ => Option.any_false) within reached
  obtain ⟨entry, listed, same⟩ := List.mem_map.mp member
  have kept := remains.session.working entry listed
  rw [same] at kept
  simp [Turn.isKept] at kept

/-- Whatever a question that is refused has for an answer is what it was refused with. -/
theorem RefusedInTurn.refusal {disk : Disk}
    (refused : RefusedInTurn client behaviour (Traffic.start disk) actions asking)
    (ran : (Traffic.start disk).run? client behaviour actions = some traffic)
    (asked : asking ∈ traffic.asked) {result : CheckerResult}
    (known : traffic.session.queue.outcome? asking.ticket = some result) :
    ∃ moment, Refusal client behaviour (Traffic.start disk) actions asking result moment := by
  obtain ⟨before, action, moment, within, reached, ending⟩ := ending_of_outcome ran known
  have early : before <+: actions := (List.prefix_append before [action]).trans within
  -- Whoever has no process gets its answer when it is decided on.
  have processless : ∀ (index : Nat) (running : RunningChecker),
      moment.session.processes[index]? ≠ some (Turn.queued asking.ticket, running) := by
    intro index running found
    exact refused.idle ran asked early reached
      (List.mem_map_of_mem (List.mem_of_getElem? found))
  have decisive : ∀ request, moment.session.Undecided (.queued asking.ticket) request →
      action = .decide (.queued asking.ticket) →
      request = asking.request ∧ moment.session.Refuses client request := by
    rintro request undecided rfl
    have same := leader_eq_request ran asked early reached undecided.leader
    obtain ⟨later, rfl⟩ := within
    refine ⟨same, same ▸ refused before later (by simp) moment reached⟩
  cases ending with
  | @answer _ request _ undecided decided =>
    obtain ⟨rfl, refuses⟩ := decisive request undecided rfl
    rw [refuses.decisionOn] at decided
    obtain ⟨after, ended⟩ := Session.endBody?_of_isUnderWay undecided.runs
      (moment.session.refusal client asking.request)
    refine ⟨moment, ⟨before, within, reached⟩, refuses, (Decision.done.inj decided).symm, ?_⟩
    obtain ⟨queue, _, rfl⟩ := Option.map_eq_some_iff.mp ended
    exact ⟨queue, by simp [step?, refuses.decide? undecided, ended]⟩
  | @fail _ request _ _ undecided decided failed =>
    obtain ⟨rfl, refuses⟩ := decisive request undecided rfl
    rw [refuses.decisionOn] at decided
    cases decided
  | kill found told => exact absurd found (processless _ _)
  | finish found outcome => exact absurd found (processless _ _)

/-- An action carries out nothing but the question with a ticket. -/
def Action.Serves (ticket : Nat) : Action → Prop
  | .queue action => action ∈ ProjectQueue.ownSteps ticket
  | .decide turn => turn = .queued ticket
  | _ => False

/-- A question gets a result by actions for itself alone, which change nothing but the queue. -/
def ComesTo (client : Client platform) (behaviour : Behaviour) (traffic : Traffic) (ticket : Nat)
    (result : CheckerResult) : Prop :=
  ∃ actions queue, (∀ action ∈ actions, action.Serves ticket) ∧
    traffic.run? client behaviour actions =
      some (traffic.withSession { traffic.session with queue := queue }) ∧
    queue.result? ticket = some result

namespace ComesTo

variable {ticket : Nat} {result : CheckerResult} {queue : ProjectQueue RootKey CheckerOutput}

/-- What is there already needs no action. -/
theorem now (known : traffic.session.queue.result? ticket = some result) :
    ComesTo client behaviour traffic ticket result :=
  ⟨[], traffic.session.queue, by simp, rfl, known⟩

/-- What comes after an action for the question alone comes. -/
theorem after (action : Action) (serves : action.Serves ticket)
    (stepped : traffic.step? client behaviour action =
      some (traffic.withSession { traffic.session with queue := queue }))
    (comes : ComesTo client behaviour
      (traffic.withSession { traffic.session with queue := queue }) ticket result) :
    ComesTo client behaviour traffic ticket result := by
  obtain ⟨actions, last, serve, ran, known⟩ := comes
  refine ⟨action :: actions, last, ?_, ?_, known⟩
  · intro other member
    rcases List.mem_cons.mp member with rfl | later
    · exact serves
    · exact serve other later
  · rw [run?, List.foldlM_cons, stepped]
    exact ran

/-- What comes after a step that the task takes by itself comes. -/
theorem afterOwn {action : ProjectQueue.Action RootKey CheckerOutput}
    (own : action ∈ ProjectQueue.ownSteps ticket)
    (stepped : traffic.session.queue.step? action = some queue)
    (comes : ComesTo client behaviour
      (traffic.withSession { traffic.session with queue := queue }) ticket result) :
    ComesTo client behaviour traffic ticket result := by
  refine .after (.queue action) own ?_ comes
  have alone : action.isOwn := by
    simp only [ProjectQueue.ownSteps, List.mem_cons, List.not_mem_nil, or_false] at own
    rcases own with rfl | rfl | rfl | rfl <;> rfl
  simp [step?, alone, stepped]

end ComesTo

/-- The question with a ticket is refused as soon as its turn has come. -/
structure Rejects (client : Client platform) (traffic : Traffic) (ticket : Nat)
    (request : Request) : Prop where
  leader : traffic.session.leader? (.queued ticket) = some request
  idle : .queued ticket ∉ traffic.session.processes.map (·.1)
  refuses : traffic.session.Refuses client request

namespace Rejects

variable {ticket : Nat} {request : Request} {task : QueueTask RootKey CheckerOutput}

/-- Whether a question is refused has nothing to do with the queue. -/
theorem withQueue (rejects : Rejects client traffic ticket request)
    (queue : ProjectQueue RootKey CheckerOutput) :
    Rejects client (traffic.withSession { traffic.session with queue := queue }) ticket request :=
  ⟨rejects.leader, rejects.idle, rejects.refuses⟩

/-- A question whose turn has begun is refused and comes to its result. -/
theorem comesTo_of_running (rejects : Rejects client traffic ticket request)
    (found : traffic.session.queue.task? ticket = some task) (runs : task.stage = .running) :
    ComesTo client behaviour traffic ticket (traffic.session.refusal client request) := by
  have undecided : traffic.session.Undecided (.queued ticket) request :=
    ⟨rejects.leader, ProjectQueue.isRunning_eq_true.mpr ⟨task, found, runs⟩, rejects.idle⟩
  obtain ⟨ended, cleared, settled, finishes, clears, settles, known⟩ :=
    ProjectQueue.settles_of_running found runs (traffic.session.refusal client request)
  have decided : traffic.step? client behaviour (.decide (.queued ticket)) =
      some (traffic.withSession { traffic.session with queue := ended }) := by
    simp [step?, rejects.refuses.decide? undecided, Session.endBody?, finishes]
  have decides : ComesTo client behaviour (traffic.withSession { traffic.session with
      queue := ended }) ticket (traffic.session.refusal client request) :=
    .afterOwn (by simp [ProjectQueue.ownSteps]) clears
      (.afterOwn (by simp [ProjectQueue.ownSteps]) settles (.now known))
  exact .after (.decide (.queued ticket)) rfl decided decides

/-- A question that is awake begins its turn and is refused. -/
theorem comesTo_of_awake (rejects : Rejects client traffic ticket request)
    (found : traffic.session.queue.task? ticket = some task) (awake : task.stage = .awake) :
    ComesTo client behaviour traffic ticket (traffic.session.refusal client request) := by
  have starts : traffic.session.queue.step? (.start ticket) =
      some (traffic.session.queue.setStage ticket .running) := by
    simp [ProjectQueue.step?, found, awake]
  obtain ⟨later, laterFound, runs⟩ := ProjectQueue.setStage_task?_self found .running
  exact .afterOwn (by simp [ProjectQueue.ownSteps]) starts
    ((rejects.withQueue _).comesTo_of_running laterFound runs)

/-- A question that has nothing to wait for and no answer yet is refused. -/
theorem comesTo (rejects : Rejects client traffic ticket request)
    (found : traffic.session.queue.task? ticket = some task)
    (ready : traffic.session.queue.isReady task)
    (unanswered : traffic.session.queue.outcome? ticket = none) :
    ComesTo client behaviour traffic ticket (traffic.session.refusal client request) := by
  rw [ProjectQueue.outcome?_of_task found] at unanswered
  -- The task goes on by itself as far as its body, and a task that is past it has an answer.
  cases stage : task.stage with
  | waiting =>
    have wakes : traffic.session.queue.step? (.wake ticket) =
        some (traffic.session.queue.setStage ticket .awake) := by
      simp [ProjectQueue.step?, found, stage, ready]
    obtain ⟨later, laterFound, awake⟩ := ProjectQueue.setStage_task?_self found .awake
    exact .afterOwn (by simp [ProjectQueue.ownSteps]) wakes
      ((rejects.withQueue _).comesTo_of_awake laterFound awake)
  | awake => exact rejects.comesTo_of_awake found stage
  | running => exact rejects.comesTo_of_running found stage
  | ended | cleared | settled => simp [stage, Stage.result?] at unanswered

end Rejects

/-- Whatever happens in whichever order, a question that is to be refused when its turn comes gets
nothing but its refusal, at a moment when that changes nothing but the queue, and gets it by itself
as soon as nothing is before it. No process is ever started for it, and at any time of the run all
others are where they would be if it had not been asked, whether or not its token had fired. -/
theorem refused_request_leaves_no_trace {disk : Disk}
    (ran : (Traffic.start disk).run? client behaviour actions = some traffic)
    (asked : asking ∈ traffic.asked)
    (refused : RefusedInTurn client behaviour (Traffic.start disk) actions asking) :
    (∀ result, traffic.session.resultOf? (.queued asking.ticket) = some result →
      ∃ moment, Refusal client behaviour (Traffic.start disk) actions asking result moment ∧
        ∀ {α : Type} (read : Json → Option α), result.decode read =
          if moment.session.isCanceled asking.request then .error .canceled else .ok none) ∧
    (asking.request ∈ traffic.session.requests →
      ∃ task, traffic.session.queue.task? asking.ticket = some task ∧
        (traffic.session.queue.isReady task →
          traffic.session.queue.outcome? asking.ticket = none →
          traffic.session.Refuses client asking.request →
            ComesTo client behaviour traffic asking.ticket
              (traffic.session.refusal client asking.request))) ∧
    .queued asking.ticket ∉ traffic.session.processes.map (·.1) ∧
    ∀ muted : String → Bool,
      (∀ other ∈ traffic.asked, other.ticket ≠ asking.ticket → other.token.any muted = false) →
      ∀ before, before <+: actions →
        ∀ moment, (Traffic.start disk).run? client behaviour before = some moment →
          ∃ other, (Traffic.start disk).run? client behaviour
              (keptActions (· != asking.ticket) muted 0 before) = some other ∧
            AsWithout asking.ticket moment other := by
  have idle := refused.idle ran asked (List.prefix_refl _) ran
  -- The four parts are the answer, the way to it, the missing process, and the run without it.
  refine ⟨fun result known => ?_, fun admitted => ?_, idle,
    fun muted unmuted before within moment reached => ?_⟩
  · obtain ⟨moment, refusal⟩ :=
      refused.refusal ran asked (ProjectQueue.outcome?_of_result known)
    refine ⟨moment, refusal, fun read => ?_⟩
    rw [refusal.result]
    exact Session.refusal_decode read
  · have tidy := (InOrder.of_run (inOrder_start disk) ran).tidy
    obtain ⟨task, found⟩ := Option.isSome_iff_exists.mp (tidy.admitted _ admitted rfl)
    exact ⟨task, found, fun ready unanswered refuses =>
      Rejects.comesTo ⟨tidy.leader? admitted rfl, idle, refuses⟩ found ready unanswered⟩
  · obtain ⟨other, ranWithout, remains⟩ := refused.remains ran asked unmuted within reached
    exact ⟨other, ranWithout, remains.asWithout⟩

/-- Three questions about one project are asked. The second one, about a file that is missing, is
canceled while the first one has its checker, and its turn comes after that. -/
def liningUp : List Action :=
  [.ask (.coverage ⟨true, ["a.js", "proj"]⟩ "") none,
    .ask (.coverage ⟨true, ["gone.js", "proj"]⟩ "") (some "token"),
    .ask (.coverage ⟨true, ["b.js", "src", "proj"]⟩ "") none, .enter 0, .enter 1, .enter 2,
    .queue (.wake 0), .queue (.start 0), .decide (.queued 0), .cancel "token", .openGate "gate",
    .move 0 .child, .move 0 .child, .move 0 .drainOutput, .move 0 .drainErrors, .finish 0,
    .queue (.clear 0), .queue (.settle 0), .queue (.wake 1), .queue (.start 1)]

/-- The task of the second question gives its result away, and the third one gets its checker. -/
def movingUp : List Action :=
  [.queue (.clear 1), .queue (.settle 1), .queue (.wake 2), .queue (.start 2), .decide (.queued 2)]

/-- What is to be seen of a client: the tickets and tokens of its questions, and how the second one
was answered. -/
def glance (traffic : Traffic) :
    List (Nat × Option String) × Option (Except CheckerError (Option Unit)) :=
  (traffic.asked.map fun asking => (asking.ticket, asking.token),
    (traffic.session.resultOf? (.queued 1)).map (CheckerResult.decode fun _ => some ()))

/-- A question that is canceled while it waits is told so, although its file is missing as well, and
the third question finds everything as it would without the second one. -/
theorem refused_request_leaves_no_trace_canceled :
    ∃ traffic, (Traffic.start linkedDisk).run? overridden waiting
        (liningUp ++ .decide (.queued 1) :: movingUp) = some traffic ∧
      linkedDisk.exists? ⟨true, ["gone.js", "proj"]⟩ = false ∧
      traffic.session.resultOf? (.queued 1) = some (.error .canceled) ∧
      .queued 1 ∉ traffic.session.processes.map (·.1) ∧
      ∃ other, (Traffic.start linkedDisk).run? overridden waiting
          (keptActions (· != 1) (· == "token") 0 (liningUp ++ .decide (.queued 1) :: movingUp)) =
            some other ∧ AsWithout 1 traffic other := by
  have view : ((Traffic.start linkedDisk).run? overridden waiting
      (liningUp ++ .decide (.queued 1) :: movingUp)).map glance =
      some ([(0, none), (1, some "token"), (2, none)], some (.error .canceled)) := by decide +kernel
  obtain ⟨traffic, ran, sees⟩ := Option.map_eq_some_iff.mp view
  obtain ⟨questions, answer⟩ := Prod.mk.inj sees
  have listed : (1, some "token") ∈
      traffic.asked.map fun asking => (asking.ticket, asking.token) := by
    rw [questions]
    simp
  obtain ⟨asking, asked, same⟩ := List.mem_map.mp listed
  obtain ⟨ticket, bears⟩ := Prod.mk.inj same
  obtain ⟨result, known, decoded⟩ := Option.map_eq_some_iff.mp answer
  have refused : RefusedInTurn overridden waiting (Traffic.start linkedDisk)
      (liningUp ++ .decide (.queued 1) :: movingUp) asking := by
    refine .of_canceled bears fun before later split => ?_
    rw [ticket] at split
    -- The question is decided on only once, and its token fires before that.
    obtain ⟨rfl, _⟩ := (List.append_cons_inj_of_notMem (by simp [liningUp]) (by simp [movingUp])).mp
      split
    simp [liningUp]
  obtain ⟨answers, _, idle, without⟩ := refused_request_leaves_no_trace ran asked refused
  rw [ticket] at answers idle without
  have unmuted : ∀ other ∈ traffic.asked, other.ticket ≠ 1 →
      other.token.any (· == "token") = false := by
    intro other member apart
    have among : (other.ticket, other.token) ∈
        traffic.asked.map fun asking => (asking.ticket, asking.token) := List.mem_map_of_mem member
    rw [questions] at among
    simp only [List.mem_cons, Prod.mk.injEq, List.not_mem_nil, or_false] at among
    rcases among with ⟨_, token⟩ | ⟨own, _⟩ | ⟨_, token⟩
    · rw [token]; rfl
    · exact absurd own apart
    · rw [token]; rfl
  refine ⟨traffic, ran, by decide +kernel, ?_, idle,
    without _ unmuted _ (List.prefix_refl _) traffic ran⟩
  obtain ⟨moment, refusal, decodes⟩ := answers result known
  have canceled : moment.session.isCanceled asking.request := by
    by_contra uncanceled
    rw [decodes, if_neg uncanceled] at decoded
    cases decoded
  rw [known, refusal.result, Session.refusal, if_pos canceled]

end Traffic

end FlowService
