import FlowService.Proofs.Client.Leaders
import FlowService.Proofs.Process.Rest

/-!
Where a client can come by single steps: tasks settle by themselves once their bodies are over, and a
process that is run makes its moves and ends its turn.
-/

namespace FlowService

variable {platform : Option String}

namespace Traffic

variable (client : Client platform) (behaviour : Behaviour)

/-- A client can come from one state to another. -/
def Reaches (traffic next : Traffic) : Prop :=
  ∃ actions, traffic.run? client behaviour actions = some next

namespace Reaches

variable {traffic middle next : Traffic}

/-- Nothing has to happen. -/
theorem refl (traffic : Traffic) : Reaches client behaviour traffic traffic := ⟨[], rfl⟩

variable {client behaviour}

/-- A client that came to some state can go on from there. -/
theorem trans (first : Reaches client behaviour traffic middle)
    (second : Reaches client behaviour middle next) : Reaches client behaviour traffic next := by
  obtain ⟨actions, ran⟩ := first
  obtain ⟨more, ranOn⟩ := second
  exact ⟨actions ++ more, by rw [run?_append, ran, Option.bind_some, ranOn]⟩

/-- One action that can happen is enough. -/
theorem of_step? (action : Action) (stepped : traffic.step? client behaviour action = some next) :
    Reaches client behaviour traffic next := by
  refine ⟨[action], ?_⟩
  rw [run?, List.foldlM_cons, stepped]
  rfl

/-- A client remains in order wherever it comes. -/
theorem inOrder (reaches : Reaches client behaviour traffic next) (inOrder : traffic.InOrder) :
    next.InOrder := by
  obtain ⟨actions, ran⟩ := reaches
  exact .of_run inOrder ran

end Reaches

/-- A step that a task of the queue takes by itself is taken, or it cannot happen. -/
theorem reaches_queue (traffic : Traffic) (action : ProjectQueue.Action RootKey CheckerOutput)
    (own : action.isOwn) : traffic.Reaches client behaviour (traffic.withSession
      { traffic.session with queue := traffic.session.queue.perform action }) := by
  unfold ProjectQueue.perform
  cases stepped : traffic.session.queue.step? action with
  | none => exact .refl client behaviour traffic
  | some queue =>
    refine .of_step? (.queue action) ?_
    simp [step?, own, stepped]

/-- A step that a task of the gate takes by itself is taken, or it cannot happen. -/
theorem reaches_gate (traffic : Traffic) (action : StatusGate.Action RootKey CheckerOutput)
    (own : action.isOwn) : traffic.Reaches client behaviour (traffic.withSession
      { traffic.session with gate := traffic.session.gate.perform action }) := by
  unfold StatusGate.perform
  cases stepped : traffic.session.gate.step? action with
  | none => exact .refl client behaviour traffic
  | some gate =>
    refine .of_step? (.gate action) ?_
    simp [step?, own, stepped]

/-- A task settles by itself once its body is over. -/
theorem reaches_complete (traffic : Traffic) (session : Session) (turn : Turn)
    (result : CheckerResult) :
    Reaches client behaviour
      (traffic.withSession ((session.endBody? turn result).getD session))
      (traffic.withSession (session.complete turn result)) := by
  -- The session performs the end of the body and what the task does then, each if it can happen.
  cases turn with
  | queued ticket =>
    have finished : (session.endBody? (.queued ticket) result).getD session =
        { session with queue := session.queue.perform (.finish ticket (.returned result)) } := by
      simp only [Session.endBody?, ProjectQueue.perform]
      cases session.queue.step? (.finish ticket (.returned result)) <;> rfl
    rw [finished]
    exact (reaches_queue client behaviour _ (.clear ticket) rfl).trans
      (reaches_queue client behaviour _ (.settle ticket) rfl)
  | polled task =>
    have finished : (session.endBody? (.polled task) result).getD session =
        { session with gate := session.gate.perform (.finish task (.returned result)) } := by
      simp only [Session.endBody?, StatusGate.perform]
      cases session.gate.step? (.finish task (.returned result)) <;> rfl
    rw [finished]
    exact ((reaches_gate client behaviour _ (.leave task) rfl).trans
      (reaches_gate client behaviour _ (.clear task) rfl)).trans
        (reaches_gate client behaviour _ (.settle task) rfl)

end Traffic

namespace Session

variable {session : Session} {index : Nat} {turn : Turn} {running : RunningChecker}

/-- A process that is put in its own place changes nothing. -/
theorem setProcess_self (found : session.processes[index]? = some (turn, running)) :
    session.setProcess index running = session := by
  have same : session.processes.modify index ({ · with snd := running }) = session.processes := by
    refine List.ext_getElem? fun place => ?_
    rw [List.getElem?_modify]
    by_cases meant : index = place
    · subst meant
      simp [found]
    · simp [meant]
  rw [setProcess, same]

/-- Only the last process that is put in a place counts. -/
theorem setProcess_setProcess (session : Session) (index : Nat) (one other : RunningChecker) :
    (session.setProcess index one).setProcess index other = session.setProcess index other := by
  simp only [setProcess, List.modify_modify_eq]
  rfl

/-- A process is found in the place in which it is put. -/
theorem setProcess_found (found : session.processes[index]? = some (turn, running))
    (after : RunningChecker) :
    (session.setProcess index after).processes[index]? = some (turn, after) := by
  simp [setProcess, found]

/-- A process that has others before it has the place after theirs. -/
theorem setProcess_among (session : Session) (done later : List (Turn × RunningChecker))
    (turn : Turn) (before after : RunningChecker) :
    { session with processes := done ++ (turn, before) :: later }.setProcess done.length after =
      { session with processes := done ++ (turn, after) :: later } := by
  have modified : (done ++ (turn, before) :: later).modify done.length
      ({ · with snd := after }) = done ++ (turn, after) :: later := by
    induction done with
    | nil => rfl
    | cons entry done ih => simpa using ih
  rw [setProcess, modified]

/-- The end of a turn has nothing to do with the processes. -/
theorem complete_setProcess (session : Session) (turn : Turn) (result : CheckerResult)
    (index : Nat) (running : RunningChecker) :
    (session.complete turn result).setProcess index running =
      (session.setProcess index running).complete turn result := by
  cases turn <;> rfl

/-- What a process does has nothing to do with the other ones. -/
theorem runProcess_withProcesses (session : Session) (turn : Turn) (running : RunningChecker)
    (processes : List (Turn × RunningChecker)) :
    { session with processes := processes }.runProcess turn running =
      ((session.runProcess turn running).1,
        { (session.runProcess turn running).2 with processes := processes }) := by
  unfold runProcess
  dsimp only
  cases (running.run session.opened.contains).result? with
  | none => rfl
  | some result => cases turn <;> rfl

end Session

/-- A process that is over and at rest has come to its outcome. -/
theorem RunningChecker.outcome?_run {running : RunningChecker} {isOpen : String → Bool}
    (hungUp : (running.run isOpen).conversation.IsHungUp) {result : CheckerResult}
    (brought : (running.run isOpen).result? = some result) :
    (running.run isOpen).outcome? = some result := by
  obtain ⟨exit, ended, _⟩ := Option.map_eq_some_iff.mp brought
  have rest := (running.conversation.run_atRest isOpen).1
  have closed := rest.readersClosed hungUp fun alive => nomatch alive.symm.trans ended
  -- Both pumps have stopped, so nothing is waited for.
  have stopped : ((running.run isOpen).conversation.stdout.readerOpen ||
      (running.run isOpen).conversation.stderr.readerOpen) = false :=
    Bool.or_eq_false_iff.mpr closed
  unfold outcome?
  rw [brought]
  split
  · rename_i same
    exact same.symm
  · rename_i same
    rw [if_neg (by simp [stopped])]
    exact same.symm
  · rename_i none
    cases none

namespace Traffic

variable (client : Client platform) (behaviour : Behaviour)
variable {traffic : Traffic} {index : Nat} {turn : Turn} {running : RunningChecker}

/-- The moves of a conversation are those of its process. -/
theorem reaches_moves {moves : List Conversation.Move} {conversation : Conversation}
    (found : traffic.session.processes[index]? = some (turn, running))
    (moved : running.conversation.after? Pipe.standardCapacity traffic.session.opened.contains
      moves = some conversation) :
    traffic.Reaches client behaviour (traffic.withSession
      (traffic.session.setProcess index { running with conversation := conversation })) := by
  -- After each move the process stands in its place again, with less before it.
  induction moves generalizing traffic running with
  | nil =>
    cases moved
    rw [Session.setProcess_self found]
    exact .refl client behaviour traffic
  | cons move moves ih =>
    obtain ⟨middle, stepped, moved⟩ := Option.bind_eq_some_iff.mp moved
    have first : traffic.step? client behaviour (.move index move) = some (traffic.withSession
        (traffic.session.setProcess index { running with conversation := middle })) := by
      simp [step?, Session.move?, found, stepped]
    have standing := Session.setProcess_found found { running with conversation := middle }
    have others := @ih (traffic.withSession
      (traffic.session.setProcess index { running with conversation := middle })) _ standing moved
    rw [withSession, Session.setProcess_setProcess] at others
    exact (Reaches.of_step? _ first).trans others

/-- A process is interrupted when its question was canceled, unless it was interrupted before. -/
theorem reaches_interrupt {request : Request}
    (found : traffic.session.processes[index]? = some (turn, running))
    (leader : traffic.session.leader? turn = some request)
    (canceled : traffic.session.isCanceled request) (alive : running.conversation.ended = none) :
    traffic.Reaches client behaviour
      (traffic.withSession (traffic.session.setProcess index running.interrupt)) := by
  by_cases told : running.interrupted
  · have same : running.interrupt = running := by simp [RunningChecker.interrupt, told]
    rw [same, Session.setProcess_self found]
    exact .refl client behaviour traffic
  · refine .of_step? (.interrupt index) ?_
    simp [step?, Session.interrupt?, found, leader, canceled, told, alive]

/-- The turn of a process ends once the process has come to its outcome. -/
theorem reaches_finish {result : CheckerResult}
    (found : traffic.session.processes[index]? = some (turn, running))
    (outcome : running.outcome? = some result) :
    traffic.Reaches client behaviour
      (traffic.withSession (traffic.session.complete turn result)) := by
  refine Reaches.trans ?_ (reaches_complete client behaviour traffic traffic.session turn result)
  cases ended : traffic.session.endBody? turn result with
  | none => exact .refl client behaviour traffic
  | some next =>
    refine .of_step? (.finish index) ?_
    simp [step?, Session.finish?, found, outcome, ended]

/-- A process that is run makes its moves, and its turn ends when it is over. -/
theorem reaches_runProcess (inOrder : traffic.InOrder)
    (found : traffic.session.processes[index]? = some (turn, running)) :
    traffic.Reaches client behaviour (traffic.withSession
      ((traffic.session.runProcess turn running).2.setProcess index
        (traffic.session.runProcess turn running).1)) := by
  obtain ⟨moves, moved⟩ :=
    (running.conversation.run_atRest traffic.session.opened.contains).2
  have ran := reaches_moves client behaviour found moved
  unfold Session.runProcess
  cases brought : (running.run traffic.session.opened.contains).result? with
  | none =>
    simp only [brought]
    exact ran
  | some result =>
    simp only [brought]
    rw [Session.complete_setProcess]
    -- A process that is over has closed its outputs, so at rest there is nothing left to read.
    have standing := Session.setProcess_found found (running.run traffic.session.opened.contains)
    have hungUp := (ran.inOrder inOrder).tidy.hungUp _ (List.mem_of_getElem? standing)
    exact ran.trans
      (reaches_finish client behaviour standing (RunningChecker.outcome?_run hungUp brought))

/-- A process that is run among others makes its moves in its place. -/
theorem reaches_runProcess_among {session : Session} {done later : List (Turn × RunningChecker)}
    (inOrder : (traffic.withSession
      { session with processes := done ++ (turn, running) :: later }).InOrder) :
    Reaches client behaviour
      (traffic.withSession { session with processes := done ++ (turn, running) :: later })
      (traffic.withSession { (session.runProcess turn running).2 with
        processes := done ++ (turn, (session.runProcess turn running).1) :: later }) := by
  have standing : (done ++ (turn, running) :: later)[done.length]? = some (turn, running) := by simp
  have ran := reaches_runProcess client behaviour inOrder standing
  simp only [withSession] at ran
  rwa [Session.runProcess_withProcesses, Session.setProcess_among] at ran

/-- A process that was just started is run in its place behind all others. -/
theorem reaches_launch {session : Session} (inOrder : traffic.InOrder)
    (launched : traffic.Reaches client behaviour (traffic.withSession
      { session with processes := session.processes ++ [(turn, running)] })) :
    traffic.Reaches client behaviour (traffic.withSession
      { (session.runProcess turn running).2 with
        processes := (session.runProcess turn running).2.processes ++
          [(turn, (session.runProcess turn running).1)] }) := by
  have untouched : (session.runProcess turn running).2.processes = session.processes :=
    congrArg (·.2.processes) (session.runProcess_withProcesses turn running session.processes)
  rw [untouched]
  exact launched.trans (reaches_runProcess_among client behaviour (launched.inOrder inOrder))

end Traffic

end FlowService
