import FlowService.Proofs.Client.Reaching

/-!
A session that asks, and then takes everything as far as it can go, does nothing but single steps
that can happen, so whatever holds of all steps in any order holds of it.
-/

namespace FlowService

variable {platform : Option String}

namespace ProjectQueue

variable {κ α : Type} [DecidableEq κ]

/-- The body that is called is that of a task which was not called before. -/
theorem awake_of_start {queue next : ProjectQueue κ α} {ticket : Nat}
    (started : queue.step? (.start ticket) = some next) :
    (∃ task, queue.task? ticket = some task ∧ task.stage = .awake) ∧ next.isRunning ticket := by
  cases step_of_step? started with
  | @start _ task found awake =>
    refine ⟨⟨task, found, awake⟩, isRunning_eq_true.mpr ⟨task.restage ticket .running, ?_, ?_⟩⟩
    · rw [setStage_task?, found]
      rfl
    · rw [QueueTask.restage_stage_same (mem_of_task? found).2]

end ProjectQueue

namespace StatusGate

variable {κ α : Type} [DecidableEq κ]

/-- Nothing is noted of the body of a poll before it is called. -/
theorem Sound.unknown_of_awake {actions : List (Action κ α)} {gate : StatusGate κ α}
    (sound : Sound actions gate) {ticket : Nat} {task : QueueTask κ α}
    (found : gate.queue.task? ticket = some task) (awake : task.stage = .awake) :
    ∃ run, gate.run? ticket = some run ∧ run.bodyResult = none := by
  obtain ⟨run, member, named, course⟩ := sound.run_of_task found
  have idle := course.idle (by simp [awake]) (by simp [awake])
  cases located : gate.run? ticket with
  | none =>
    have missed := List.find?_eq_none.mp located run member
    simp [named] at missed
  | some other =>
    obtain ⟨otherMember, same⟩ := mem_of_run? located
    obtain rfl := sound.run_unique otherMember member (same.trans named.symm)
    exact ⟨other, rfl, idle.2⟩

end StatusGate

namespace Session

variable {session begun : Session} {request : Request}

/-- A request that leads is the one that is found for its turn. -/
theorem Tidy.leader? (tidy : session.Tidy) (member : request ∈ session.requests)
    (leads : request.leads) : session.leader? request.turn = some request := by
  cases found : session.leader? request.turn with
  | none =>
    have missed := List.find?_eq_none.mp found request member
    simp [leads] at missed
  | some other =>
    obtain ⟨otherMember, named, otherLeads⟩ := mem_of_leader? found
    have same := List.inj_on_of_nodup_map tidy.leaders
      (List.mem_filter.mpr ⟨otherMember, otherLeads⟩) (List.mem_filter.mpr ⟨member, leads⟩) named
    rw [same]

/-- A task that is not called yet has no process. -/
theorem Tidy.idle (tidy : session.Tidy) {turn : Turn} {task : QueueTask RootKey CheckerOutput}
    (known : session.task? turn = some task) (awake : task.stage = .awake) :
    turn ∉ session.processes.map (·.1) := by
  intro member
  obtain ⟨entry, listed, rfl⟩ := List.mem_map.mp member
  obtain ⟨other, found, called⟩ := tidy.begun entry listed
  rw [known] at found
  obtain rfl := Option.some.inj found
  simp [awake, Stage.rank] at called

variable {turn : Turn}

/-- A body that runs can end. -/
theorem endBody?_of_isUnderWay (runs : session.isUnderWay turn) (result : CheckerResult) :
    ∃ next, session.endBody? turn result = some next := by
  cases turn with
  | queued ticket =>
    obtain ⟨task, found, running⟩ := ProjectQueue.isRunning_eq_true.mp runs
    simp [endBody?, ProjectQueue.step?, found, running]
  | polled task =>
    simp only [isUnderWay, Bool.and_eq_true] at runs
    obtain ⟨poll, found, running⟩ := ProjectQueue.isRunning_eq_true.mp runs.1
    have stage : session.gate.queue.stage? task = some .running := by
      simp [ProjectQueue.stage?, found, running]
    cases located : session.gate.run? task with
    | none => simp [located] at runs
    | some run =>
      obtain ⟨owner, ticket, root, bodyResult⟩ := run
      obtain rfl : bodyResult = none := by simpa [located] using runs.2
      simp [endBody?, StatusGate.step?, stage, located]

variable (client : Client platform) (behaviour : Behaviour)

/-- A question that is still to be decided on can be decided on. -/
theorem Undecided.decide? (undecided : session.Undecided turn request) :
    session.decide? client behaviour turn =
      match (session.decisionOn client request).1 with
      | .done result =>
        { session with locator := (session.decisionOn client request).2 }.endBody? turn result
      | .run invocation =>
        match session.launched client behaviour invocation with
        | .error error => { session with
            locator := (session.decisionOn client request).2 }.endBody? turn (.error error)
        | .ok running => some { session with
            locator := (session.decisionOn client request).2
            processes := session.processes ++ [(turn, running)] } := by
  have free : (!session.isUnderWay turn || session.processes.any (·.1 == turn)) = false := by
    rw [undecided.runs, Bool.not_true, Bool.false_or, List.any_eq_false]
    intro entry member same
    exact undecided.first (List.mem_map.mpr ⟨entry, member, by simpa using same⟩)
  unfold Session.decide?
  rw [undecided.leader]
  simp only [Option.bind_eq_bind, Option.bind_some, free, Bool.false_eq_true, if_false]
  rfl

/-- What comes of a question that is carried out. -/
theorem carryOut_eq :
    session.carryOut client behaviour request =
      match (session.decisionOn client request).1 with
      | .done result =>
        { session with locator := (session.decisionOn client request).2 }.complete
          request.turn result
      | .run invocation =>
        match session.launched client behaviour invocation with
        | .error error => { session with
            locator := (session.decisionOn client request).2 }.complete request.turn (.error error)
        | .ok running =>
          let session := { session with locator := (session.decisionOn client request).2 }
          let ran := session.runProcess request.turn running
          { ran.2 with processes := ran.2.processes ++ [(request.turn, ran.1)] } := by
  rfl

end Session

namespace Traffic

variable (client : Client platform) (behaviour : Behaviour) {traffic : Traffic} {request : Request}

/-- A turn begins when its task notices that it may go on and calls its body, and then its question
is still to be decided on. -/
theorem reaches_begin {begun : Session} (inOrder : traffic.InOrder)
    (member : request ∈ traffic.session.requests) (leads : request.leads)
    (begins : traffic.session.begin? request.turn = some begun) :
    traffic.Reaches client behaviour (traffic.withSession begun) ∧
      begun.Undecided request.turn request := by
  have leader := inOrder.tidy.leader? member leads
  -- Between the two steps the task is awake, so it has no process and nothing is noted of its body.
  cases turn : request.turn with
  | queued ticket =>
    rw [turn] at begins leader
    obtain ⟨queue, started, rfl⟩ := Option.map_eq_some_iff.mp begins
    have woken := reaches_queue client behaviour traffic (.wake ticket) rfl
    have tidy := (woken.inOrder inOrder).tidy
    obtain ⟨⟨task, found, awake⟩, runs⟩ := ProjectQueue.awake_of_start started
    refine ⟨woken.trans (.of_step? (.queue (.start ticket)) ?_), leader, runs, ?_⟩
    · simp only [step?, withSession, started]
      rfl
    · exact tidy.idle (by exact found) awake
  | polled task =>
    rw [turn] at begins leader
    obtain ⟨gate, started, rfl⟩ := Option.map_eq_some_iff.mp begins
    have woken := reaches_gate client behaviour traffic (.wake task) rfl
    have tidy := (woken.inOrder inOrder).tidy
    obtain ⟨queue, calls, rfl⟩ := Option.map_eq_some_iff.mp started
    obtain ⟨⟨poll, found, awake⟩, runs⟩ := ProjectQueue.awake_of_start calls
    obtain ⟨actions, sound⟩ := tidy.sound
    obtain ⟨run, located, unknown⟩ := sound.unknown_of_awake found awake
    refine ⟨woken.trans (.of_step? (.gate (.start task)) ?_), leader, ?_, ?_⟩
    · simp only [step?, withSession, started]
      rfl
    · -- The body is called, and nothing is noted of it.
      have unended : (some run).any (·.bodyResult.isNone) := by simp [unknown]
      exact Bool.and_eq_true_iff.mpr
        ⟨runs, (congrArg (Option.any (·.bodyResult.isNone)) located).trans unended⟩
    · exact tidy.idle (by exact found) awake

/-- A question that is answered without a process settles its turn. -/
theorem reaches_answer {turn : Turn} {result : CheckerResult} {session : Session}
    (runs : session.isUnderWay turn)
    (decided : traffic.session.decide? client behaviour turn = session.endBody? turn result) :
    traffic.Reaches client behaviour (traffic.withSession (session.complete turn result)) := by
  obtain ⟨next, ended⟩ := Session.endBody?_of_isUnderWay runs result
  have settled := reaches_complete client behaviour traffic session turn result
  rw [ended] at decided settled
  have answered : traffic.Reaches client behaviour (traffic.withSession next) := by
    refine .of_step? (.decide turn) ?_
    simp [step?, decided]
  exact answered.trans settled

/-- A question that is still to be decided on is carried out in single steps. -/
theorem reaches_carryOut (inOrder : traffic.InOrder)
    (undecided : traffic.session.Undecided request.turn request) :
    traffic.Reaches client behaviour
      (traffic.withSession (traffic.session.carryOut client behaviour request)) := by
  have decided := undecided.decide? client behaviour
  rw [Session.carryOut_eq]
  -- Looking for the binary only concerns the locator, so the body of the turn still runs.
  split at decided
  · exact reaches_answer client behaviour (by exact undecided.runs) decided
  · split at decided
    · exact reaches_answer client behaviour (by exact undecided.runs) decided
    · rename_i running started
      have launched : traffic.Reaches client behaviour (traffic.withSession { traffic.session with
          locator := (traffic.session.decisionOn client request).2
          processes := traffic.session.processes ++ [(request.turn, running)] }) := by
        refine .of_step? (.decide request.turn) ?_
        simp [step?, decided]
      exact reaches_launch client behaviour inOrder launched

end Traffic

namespace Session

/-- Lets a process go on if it is that of a request and is not over. -/
def goOn (request : Request) (canceled : Bool) (session : Session)
    (entry : Turn × RunningChecker) : RunningChecker × Session :=
  if entry.1 = request.turn && entry.2.result?.isNone then
    session.runProcess entry.1 (if canceled then entry.2.interrupt else entry.2)
  else (entry.2, session)

/-- Lets one process after the other go on. -/
def goOnAll (request : Request) (canceled : Bool) (done : List (Turn × RunningChecker))
    (session : Session) : List (Turn × RunningChecker) → Session
  | [] => { session with processes := done }
  | entry :: later =>
    goOnAll request canceled (done ++ [(entry.1, (session.goOn request canceled entry).1)])
      (session.goOn request canceled entry).2 later

/-- Processes that go on one after the other are those that are gone through to resume one. -/
theorem goOnAll_eq (request : Request) (canceled : Bool) (later : List (Turn × RunningChecker))
    (done : List (Turn × RunningChecker)) (session : Session) :
    goOnAll request canceled done session later =
      let (processes, session) := later.foldl (fun (done, session) (turn, running) =>
        if turn = request.turn && running.result?.isNone then
          let running := if canceled then running.interrupt else running
          let (running, session) := session.runProcess turn running
          (done ++ [(turn, running)], session)
        else (done ++ [(turn, running)], session)) (done, session)
      { session with processes := processes } := by
  induction later generalizing done session with
  | nil => rfl
  | cons entry later ih =>
    obtain ⟨turn, running⟩ := entry
    rw [goOnAll, ih, List.foldl_cons]
    by_cases due : turn = request.turn && running.result?.isNone
    · simp only [goOn, if_pos due]
    · simp only [goOn, if_neg due]

/-- To resume a process is to let all go on one after the other, which matters to that one only. -/
theorem resume_eq (session : Session) (request : Request) :
    session.resume request =
      goOnAll request (session.isCanceled request) [] session session.processes :=
  (goOnAll_eq ..).symm

/-- The end of a turn asks no question and cancels none. -/
theorem complete_requests (session : Session) (turn : Turn) (result : CheckerResult) :
    (session.complete turn result).requests = session.requests ∧
      (session.complete turn result).canceled = session.canceled := by
  cases turn <;> exact ⟨rfl, rfl⟩

/-- A process that runs asks no question and cancels none. -/
theorem runProcess_requests (session : Session) (turn : Turn) (running : RunningChecker) :
    (session.runProcess turn running).2.requests = session.requests ∧
      (session.runProcess turn running).2.canceled = session.canceled := by
  unfold runProcess
  dsimp only
  cases (running.run session.opened.contains).result? with
  | none => exact ⟨rfl, rfl⟩
  | some result => exact session.complete_requests turn result

/-- A process that goes on asks no question and cancels none. -/
theorem goOn_requests (request : Request) (canceled : Bool) (session : Session)
    (entry : Turn × RunningChecker) :
    (session.goOn request canceled entry).2.requests = session.requests ∧
      (session.goOn request canceled entry).2.canceled = session.canceled := by
  unfold goOn
  split
  · exact session.runProcess_requests _ _
  · exact ⟨rfl, rfl⟩

/-- Processes that go on ask no question. -/
theorem goOnAll_requests (request : Request) (canceled : Bool)
    (later : List (Turn × RunningChecker)) (done : List (Turn × RunningChecker))
    (session : Session) :
    (goOnAll request canceled done session later).requests = session.requests := by
  induction later generalizing done session with
  | nil => rfl
  | cons entry later ih =>
    rw [goOnAll, ih, (session.goOn_requests request canceled entry).1]

/-- A question that is carried out asks no other one. -/
theorem carryOut_requests (client : Client platform) (behaviour : Behaviour) (session : Session)
    (request : Request) :
    (session.carryOut client behaviour request).requests = session.requests := by
  rw [carryOut_eq]
  split
  · exact (complete_requests _ _ _).1
  · split
    · exact (complete_requests _ _ _).1
    · exact (runProcess_requests _ _ _).1

/-- Taking a question further asks no other one. -/
theorem advance_requests (client : Client platform) (behaviour : Behaviour) (session : Session)
    (request : Request) :
    (session.advance client behaviour request).requests = session.requests := by
  unfold advance
  split
  · rfl
  · split
    · rename_i begun begins
      rw [carryOut_requests]
      cases turn : request.turn <;> rw [turn] at begins <;>
        obtain ⟨_, _, rfl⟩ := Option.map_eq_some_iff.mp begins <;> rfl
    · rw [resume_eq, goOnAll_requests]

end Session

namespace Traffic

variable (client : Client platform) (behaviour : Behaviour) {traffic : Traffic} {request : Request}

/-- A process goes on in single steps, after an interrupt if its question was canceled. -/
theorem reaches_goOn {session : Session} {done later : List (Turn × RunningChecker)}
    {entry : Turn × RunningChecker}
    (inOrder : (traffic.withSession { session with processes := done ++ entry :: later }).InOrder)
    (member : request ∈ session.requests) (leads : request.leads) :
    Reaches client behaviour
      (traffic.withSession { session with processes := done ++ entry :: later })
      (traffic.withSession
        { (session.goOn request (session.isCanceled request) entry).2 with
          processes := done ++
            (entry.1, (session.goOn request (session.isCanceled request) entry).1) :: later }) := by
  obtain ⟨turn, running⟩ := entry
  unfold Session.goOn
  split
  · rename_i due
    simp only [Bool.and_eq_true, decide_eq_true_eq, Option.isNone_iff_eq_none] at due
    obtain ⟨rfl, going⟩ := due
    have told : Reaches client behaviour
        (traffic.withSession { session with
          processes := done ++ (request.turn, running) :: later })
        (traffic.withSession { session with
          processes := done ++ (request.turn,
            if session.isCanceled request then running.interrupt else running) :: later }) := by
      split
      · rename_i canceled
        have standing : (done ++ (request.turn, running) :: later)[done.length]? =
            some (request.turn, running) := by simp
        have leader := inOrder.tidy.leader? (by exact member) leads
        have interrupted := reaches_interrupt client behaviour (by exact standing) leader canceled
          (Option.map_eq_none_iff.mp going)
        simp only [withSession] at interrupted
        rwa [Session.setProcess_among] at interrupted
      · exact .refl client behaviour _
    exact told.trans (reaches_runProcess_among client behaviour (told.inOrder inOrder))
  · exact .refl client behaviour _

/-- Processes go on one after the other in single steps. -/
theorem reaches_goOnAll {session : Session} {done later : List (Turn × RunningChecker)}
    (inOrder : (traffic.withSession { session with processes := done ++ later }).InOrder)
    (member : request ∈ session.requests) (leads : request.leads) :
    Reaches client behaviour
      (traffic.withSession { session with processes := done ++ later })
      (traffic.withSession
        (Session.goOnAll request (session.isCanceled request) done session later)) := by
  -- Induction on the processes that are still to go on; those before them are done.
  induction later generalizing done session with
  | nil =>
    rw [List.append_nil]
    exact .refl client behaviour _
  | cons entry later ih =>
    have first := reaches_goOn client behaviour inOrder member leads
    obtain ⟨requests, canceled⟩ :=
      session.goOn_requests request (session.isCanceled request) entry
    have same : (session.goOn request (session.isCanceled request) entry).2.isCanceled request =
        session.isCanceled request := by rw [Session.isCanceled, canceled, Session.isCanceled]
    have going := first.inOrder inOrder
    rw [List.append_cons] at going
    have others := ih going (requests ▸ member)
    rw [same, ← List.append_cons] at others
    exact first.trans others

/-- The process of a turn goes on in single steps. -/
theorem reaches_resume (inOrder : traffic.InOrder) (member : request ∈ traffic.session.requests)
    (leads : request.leads) :
    traffic.Reaches client behaviour (traffic.withSession (traffic.session.resume request)) := by
  rw [Session.resume_eq]
  have all : (traffic.withSession
      { traffic.session with processes := [] ++ traffic.session.processes }).InOrder := inOrder
  exact reaches_goOnAll client behaviour all member leads

/-- A question is taken as far as it can go in single steps. -/
theorem reaches_advance (inOrder : traffic.InOrder) (member : request ∈ traffic.session.requests) :
    traffic.Reaches client behaviour
      (traffic.withSession (traffic.session.advance client behaviour request)) := by
  unfold Session.advance
  cases leads : request.leads with
  | false => exact .refl client behaviour traffic
  | true =>
    simp only [Bool.not_true, Bool.false_eq_true, if_false]
    cases begins : traffic.session.begin? request.turn with
    | none => exact reaches_resume client behaviour inOrder member leads
    | some begun =>
      obtain ⟨begin, undecided⟩ := reaches_begin client behaviour inOrder member leads begins
      exact begin.trans (reaches_carryOut client behaviour (begin.inOrder inOrder) undecided)

/-- Questions are taken as far as they can go one after the other. -/
theorem reaches_advanceAll (inOrder : traffic.InOrder) {requests : List Request}
    (members : ∀ request ∈ requests, request ∈ traffic.session.requests) :
    traffic.Reaches client behaviour
      (traffic.withSession (requests.foldl (Session.advance client behaviour) traffic.session)) := by
  -- Nobody asks meanwhile, so each question is still there when it is taken.
  induction requests generalizing traffic with
  | nil => exact .refl client behaviour traffic
  | cons request requests ih =>
    have first := reaches_advance client behaviour inOrder (members request (by simp))
    refine first.trans (ih (first.inOrder inOrder) fun other member => ?_)
    show other ∈ (traffic.session.advance client behaviour request).requests
    rw [Session.advance_requests]
    exact members other (List.mem_cons_of_mem _ member)

/-- Watches of the locator go on one after the other. -/
theorem reaches_run (watches : List Nat) (traffic : Traffic) :
    traffic.Reaches client behaviour (traffic.withSession { traffic.session with
      locator := watches.foldl Locator.run traffic.session.locator }) := by
  induction watches generalizing traffic with
  | nil => exact .refl client behaviour traffic
  | cons watch watches ih =>
    have first : traffic.Reaches client behaviour (traffic.withSession
        { traffic.session with locator := traffic.session.locator.run watch }) :=
      .of_step? (.locate (.run watch)) rfl
    exact first.trans (ih _)

/-- Everything is taken as far as it can go in single steps. -/
theorem reaches_settle (inOrder : traffic.InOrder) :
    traffic.Reaches client behaviour
      (traffic.withSession (traffic.session.settle client behaviour)) := by
  have first := reaches_run client behaviour
    (List.range traffic.session.locator.watches.length) traffic
  have second := reaches_advanceAll client behaviour (first.inOrder inOrder)
    fun (request : Request) (member : request ∈ traffic.session.requests) => member
  exact (first.trans second).trans (reaches_run client behaviour _ _)

/-- A question for the queue is asked and then its task is admitted. -/
theorem reaches_enter (inOrder : traffic.InOrder) {question : Question} (token : Option String)
    (queued : ∀ file, question ≠ .status file) :
    ∃ next, traffic.Reaches client behaviour next ∧
      next.session = (traffic.session.ask question token).2 := by
  have asks : traffic.ask question token =
      ⟨{ traffic.session with queue := traffic.session.queue.draw }, traffic.asked ++
        [⟨question, token, Session.rootKey traffic.session.disk question.file,
          traffic.session.queue.nextTicket⟩]⟩ := by
    cases question with
    | status file => exact absurd rfl (queued file)
    | _ => rfl
  -- Nobody else has drawn the ticket, so it leads to this question.
  have found : (traffic.ask question token).asked.find?
      (·.ticket == traffic.session.queue.nextTicket) = some ⟨question, token,
        Session.rootKey traffic.session.disk question.file, traffic.session.queue.nextTicket⟩ := by
    have others : traffic.asked.find? (·.ticket == traffic.session.queue.nextTicket) = none := by
      refine List.find?_eq_none.mpr fun asking member same => ?_
      have bound := inOrder.exclusive.bounded asking member
      simp only [beq_iff_eq] at same
      omega
    simp [asks, List.find?_append, others]
  have drawn : traffic.session.queue.nextTicket ∈ traffic.session.queue.draw.drawn := by
    simp [ProjectQueue.draw]
  have enters : ∃ next, (traffic.ask question token).enter? traffic.session.queue.nextTicket =
      some next ∧ next.session = (traffic.session.ask question token).2 := by
    rw [enter?, found]
    simp only [Option.bind_eq_bind, Option.bind_some, asks, ProjectQueue.step?,
      List.contains_iff_mem.mpr drawn, if_true]
    refine ⟨_, rfl, ?_⟩
    cases question with
    | status file => exact absurd rfl (queued file)
    | _ => rfl
  obtain ⟨next, entered, same⟩ := enters
  have first : traffic.Reaches client behaviour (traffic.ask question token) :=
    .of_step? (.ask question token) rfl
  exact ⟨next, first.trans (.of_step? (.enter traffic.session.queue.nextTicket) entered), same⟩

/-- A question is asked in single steps. -/
theorem reaches_ask (inOrder : traffic.InOrder) (question : Question) (token : Option String) :
    ∃ next, traffic.Reaches client behaviour next ∧
      next.session = (traffic.session.ask question token).2 := by
  by_cases polls : ∃ file, question = .status file
  · obtain ⟨file, rfl⟩ := polls
    exact ⟨_, .of_step? (.ask (.status file) token) rfl, rfl⟩
  · exact reaches_enter client behaviour inOrder token fun file same => polls ⟨file, same⟩

/-- A plan is worked out in single steps. -/
theorem reaches_workOut {α : Type} (inOrder : traffic.InOrder) (plan : Plan α)
    (token : Option String) :
    ∃ next, traffic.Reaches client behaviour next ∧
      next.session = (traffic.session.workOut client behaviour plan token).2 := by
  cases plan with
  | answer result => exact ⟨traffic, .refl client behaviour traffic, rfl⟩
  | ask question read =>
    obtain ⟨asked, asks, same⟩ := reaches_ask client behaviour inOrder question token
    have settles := reaches_settle client behaviour (asks.inOrder inOrder)
    rw [same] at settles
    exact ⟨_, asks.trans settles, rfl⟩

end Traffic

namespace Session

/-- Something that is done with a session as a whole. -/
inductive Deed
  | ask (question : Question) (token : Option String)
  | settle
  /-- A plan is worked out, with the question that it may need. -/
  | workOut {α : Type} (plan : Plan α) (token : Option String)
  | cancel (token : String)
  | openGate (gate : String)
  | change (disk : Disk)
  | locate (action : Locator.Action)

variable (client : Client platform) (behaviour : Behaviour)

/-- The session after a deed. -/
def after (session : Session) : Deed → Session
  | .ask question token => (session.ask question token).2
  | .settle => session.settle client behaviour
  | .workOut plan token => (session.workOut client behaviour plan token).2
  | .cancel token => { session with canceled := session.canceled ++ [token] }
  | .openGate gate => { session with opened := session.opened ++ [gate] }
  | .change disk => { session with disk := disk }
  | .locate action => { session with locator := session.locator.act session.disk action }

/-- Whatever is done with sessions as a whole is a run of single steps. -/
theorem reached_of_deeds (disk : Disk) (deeds : List Deed) :
    ∃ traffic, (Traffic.start disk).Reaches client behaviour traffic ∧
      traffic.session = deeds.foldl (after client behaviour) (start disk) := by
  induction deeds using List.reverseRecOn with
  | nil => exact ⟨_, .refl client behaviour _, rfl⟩
  | append_singleton deeds deed ih =>
    obtain ⟨traffic, reaches, same⟩ := ih
    have inOrder := reaches.inOrder (Traffic.inOrder_start disk)
    rw [List.foldl_append, ← same]
    -- Apart from asking, settling and what needs both every deed is one step.
    cases deed with
    | ask question token =>
      obtain ⟨next, asks, asked⟩ := Traffic.reaches_ask client behaviour inOrder question token
      exact ⟨next, reaches.trans asks, asked⟩
    | settle => exact ⟨_, reaches.trans (Traffic.reaches_settle client behaviour inOrder), rfl⟩
    | workOut plan token =>
      obtain ⟨next, works, worked⟩ := Traffic.reaches_workOut client behaviour inOrder plan token
      exact ⟨next, reaches.trans works, worked⟩
    | cancel token => exact ⟨_, reaches.trans (.of_step? (.cancel token) rfl), rfl⟩
    | openGate gate => exact ⟨_, reaches.trans (.of_step? (.openGate gate) rfl), rfl⟩
    | change disk => exact ⟨_, reaches.trans (.of_step? (.change disk) rfl), rfl⟩
    | locate action => exact ⟨_, reaches.trans (.of_step? (.locate action) rfl), rfl⟩

/-- In a session that is used as a whole no root has two checkers at work. -/
theorem root_ne_of_deeds (disk : Disk) (deeds : List Deed) {session : Session}
    (used : session = deeds.foldl (after client behaviour) (start disk))
    {one other : QueueTask RootKey CheckerOutput} (oneTask : one ∈ session.queue.tasks)
    (otherTask : other ∈ session.queue.tasks) (apart : one ≠ other) {left right : RunningChecker}
    (leftWorks : (Turn.queued one.ticket, left) ∈ session.processes)
    (rightWorks : (Turn.queued other.ticket, right) ∈ session.processes)
    (leftAlive : left.conversation.ended = none) (rightAlive : right.conversation.ended = none) :
    one.root ≠ other.root := by
  obtain ⟨traffic, reaches, same⟩ := reached_of_deeds client behaviour disk deeds
  have exclusive := (reaches.inOrder (Traffic.inOrder_start disk)).exclusive
  obtain rfl : traffic.session = session := same.trans used.symm
  have orderly : traffic.session.queue.Orderly := exclusive.orderly
  have runs : ∀ task ∈ traffic.session.queue.tasks, ∀ running,
      (Turn.queued task.ticket, running) ∈ traffic.session.processes →
        running.conversation.ended = none → task.stage = .running := by
    intro task member running works alive
    obtain ⟨found, located, stage⟩ :=
      ProjectQueue.isRunning_eq_true.mp (exclusive.running _ running works alive)
    rw [ProjectQueue.task?_of_mem orderly.unique member] at located
    exact Option.some.inj located ▸ stage
  intro root
  exact apart (orderly.running_unique (ProjectQueue.mem_line.mpr ⟨oneTask, root⟩)
    (ProjectQueue.mem_line.mpr ⟨otherTask, rfl⟩) (runs one oneTask left leftWorks leftAlive)
      (runs other otherTask right rightWorks rightAlive))

end Session

end FlowService
