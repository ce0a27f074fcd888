import FlowService.Proofs.Client.Steps
import Mathlib.Data.List.Induction

/-!
A process that works on a question of the queue runs only while the body of its task does, so the
checkers of one root take turns.
-/

namespace FlowService

variable {platform : Option String}

/-- No interrupt brings a process back to life. -/
theorem RunningChecker.alive_of_interrupt {running : RunningChecker}
    (alive : running.interrupt.conversation.ended = none) : running.conversation.ended = none := by
  by_contra dead
  have same : running.interrupt = running := by
    simp [interrupt, Option.isSome_iff_ne_none.mpr dead]
  rw [same] at alive
  exact dead alive

namespace ProjectQueue

variable {κ α : Type}

/-- A body runs when the ticket of its task leads to a task at that stage. -/
theorem isRunning_eq_true {queue : ProjectQueue κ α} {ticket : Nat} :
    queue.isRunning ticket ↔ ∃ task, queue.task? ticket = some task ∧ task.stage = .running := by
  unfold isRunning stage?
  cases queue.task? ticket with
  | none => simp
  | some task => cases stage : task.stage <;> simp [stage]

/-- A body still runs when a task that does not run comes to another stage. -/
theorem setStage_isRunning {queue : ProjectQueue κ α} {moved ticket : Nat} {task : QueueTask κ α}
    (found : queue.task? moved = some task) (idle : task.stage ≠ .running) (stage : Stage α)
    (runs : queue.isRunning ticket) : (queue.setStage moved stage).isRunning ticket := by
  obtain ⟨runner, located, running⟩ := isRunning_eq_true.mp runs
  refine isRunning_eq_true.mpr ⟨runner, ?_, running⟩
  -- The one that runs is another task than the one that is moved.
  have apart : runner.ticket ≠ moved := by
    intro same
    rw [← same, (mem_of_task? located).2, located] at found
    exact idle (Option.some.inj found ▸ running)
  rw [setStage_task?, located, Option.map_some, QueueTask.restage_of_ne apart]

variable [DecidableEq κ]

/-- A body runs until it ends. -/
theorem Step.running_lasts {queue next : ProjectQueue κ α} {action : Action κ α}
    (step : Step queue action next) {ticket : Nat}
    (unended : ∀ bodyEnd, action ≠ .finish ticket bodyEnd) (runs : queue.isRunning ticket) :
    next.isRunning ticket := by
  cases step with
  | draw => exact runs
  | enter drawn =>
    obtain ⟨runner, found, running⟩ := isRunning_eq_true.mp runs
    exact isRunning_eq_true.mpr ⟨runner, enter_task? found, running⟩
  | wake found waits ready => exact setStage_isRunning found (by simp [waits]) _ runs
  | start found awake => exact setStage_isRunning found (by simp [awake]) _ runs
  | @finish other task bodyEnd found _ =>
    obtain ⟨runner, located, running⟩ := isRunning_eq_true.mp runs
    refine isRunning_eq_true.mpr ⟨runner, ?_, running⟩
    have apart : runner.ticket ≠ other := by
      rintro rfl
      exact unended bodyEnd (by rw [(mem_of_task? located).2])
    rw [setStage_task?, located, Option.map_some, QueueTask.restage_of_ne apart]
  | clear found ended =>
    refine setStage_isRunning (by simpa using found) (by simp [ended]) _ ?_
    obtain ⟨runner, located, running⟩ := isRunning_eq_true.mp runs
    exact isRunning_eq_true.mpr ⟨runner, by simpa using located, running⟩
  | settle found cleared => exact setStage_isRunning found (by simp [cleared]) _ runs

/-- Only an admission brings a new task, and no task changes its ticket or its root. -/
theorem Step.roots {queue next : ProjectQueue κ α} {action : Action κ α}
    (step : Step queue action next) (admits : ∀ ticket root, action ≠ .enter ticket root) :
    next.tasks.map (fun task => (task.ticket, task.root)) =
      queue.tasks.map (fun task => (task.ticket, task.root)) := by
  cases step with
  | draw => rfl
  | enter drawn => exact absurd rfl (admits _ _)
  | clear =>
    rw [clearTail_setStage_tasks]
    simp [Function.comp_def]
  | _ => simp [setStage, Function.comp_def]

/-- Tickets are drawn in increasing order. -/
theorem Step.nextTicket_le {queue next : ProjectQueue κ α} {action : Action κ α}
    (step : Step queue action next) : queue.nextTicket ≤ next.nextTicket := by
  cases step with
  | draw => exact Nat.le_succ _
  | clear =>
    unfold setStage clearTail
    split <;> exact Nat.le_refl _
  | _ => exact Nat.le_refl _

end ProjectQueue

/-- Every process that is not over works on a task whose body runs, and no task has two. -/
structure Exclusive (queue : ProjectQueue RootKey CheckerOutput)
    (processes : List (Turn × RunningChecker)) (asked : List Asking) : Prop where
  orderly : queue.Orderly
  single : (processes.map (·.1)).Nodup
  running : ∀ ticket running, (Turn.queued ticket, running) ∈ processes →
    running.conversation.ended = none → queue.isRunning ticket
  -- The root of a task is the one that was worked out when its question was asked.
  named : (asked.map (·.ticket)).Nodup
  bounded : ∀ asking ∈ asked, asking.ticket < queue.nextTicket
  rooted : ∀ task ∈ queue.tasks, ∃ asking ∈ asked,
    asking.ticket = task.ticket ∧ asking.root = task.root

namespace Exclusive

variable {queue next : ProjectQueue RootKey CheckerOutput}
variable {processes : List (Turn × RunningChecker)} {asked : List Asking}

/-- Nothing changes for the processes when a task goes on, unless its body ends. -/
theorem goOn (exclusive : Exclusive queue processes asked)
    {action : ProjectQueue.Action RootKey CheckerOutput}
    (step : ProjectQueue.Step queue action next)
    (admits : ∀ ticket root, action ≠ .enter ticket root)
    (dead : ∀ ticket bodyEnd, action = .finish ticket bodyEnd → ∀ running,
      (Turn.queued ticket, running) ∈ processes → running.conversation.ended ≠ none) :
    Exclusive next processes asked where
  orderly := exclusive.orderly.step step
  single := exclusive.single
  running ticket running member alive :=
    step.running_lasts (fun bodyEnd same => dead ticket bodyEnd same running member alive)
      (exclusive.running ticket running member alive)
  named := exclusive.named
  bounded asking member :=
    Nat.lt_of_lt_of_le (exclusive.bounded asking member) step.nextTicket_le
  rooted task member := by
    have listed : (task.ticket, task.root) ∈ next.tasks.map fun task => (task.ticket, task.root) :=
      List.mem_map_of_mem member
    rw [step.roots admits] at listed
    obtain ⟨before, beforeMember, same⟩ := List.mem_map.mp listed
    obtain ⟨sameTicket, sameRoot⟩ := Prod.mk.inj same
    obtain ⟨asking, known, ticket, root⟩ := exclusive.rooted before beforeMember
    exact ⟨asking, known, ticket.trans sameTicket, root.trans sameRoot⟩

/-- A question that is asked is another one than all before it. -/
theorem ask (exclusive : Exclusive queue processes asked) (question : Question)
    (token : Option String) (root : RootKey) :
    Exclusive queue.draw processes
      (asked ++ [⟨question, token, root, queue.nextTicket⟩]) where
  orderly := exclusive.orderly.draw
  single := exclusive.single
  running ticket running member alive :=
    ProjectQueue.Step.draw.running_lasts (fun _ same => nomatch same)
      (exclusive.running ticket running member alive)
  named := by
    rw [List.map_append, List.nodup_append]
    refine ⟨exclusive.named, List.nodup_singleton _, ?_⟩
    intro ticket known other fresh
    obtain ⟨asking, member, rfl⟩ := List.mem_map.mp known
    obtain rfl := List.mem_singleton.mp fresh
    exact Nat.ne_of_lt (exclusive.bounded asking member)
  bounded asking member := by
    show asking.ticket < queue.nextTicket + 1
    rcases List.mem_append.mp member with old | fresh
    · exact Nat.lt_succ_of_lt (exclusive.bounded asking old)
    · obtain rfl := List.mem_singleton.mp fresh
      exact Nat.lt_succ_self _
  rooted task member := by
    obtain ⟨asking, known, same⟩ := exclusive.rooted task member
    exact ⟨asking, List.mem_append_left _ known, same⟩

/-- A task is admitted with the root of its question. -/
theorem enter (exclusive : Exclusive queue processes asked) {asking : Asking}
    (member : asking ∈ asked) (drawn : asking.ticket ∈ queue.drawn) :
    Exclusive (queue.enter asking.ticket asking.root) processes asked where
  orderly := exclusive.orderly.enter drawn _
  single := exclusive.single
  running ticket running found alive :=
    (ProjectQueue.Step.enter drawn).running_lasts (fun _ same => nomatch same)
      (exclusive.running ticket running found alive)
  named := exclusive.named
  bounded := exclusive.bounded
  rooted task listed := by
    rcases List.mem_append.mp listed with old | new
    · exact exclusive.rooted task old
    · obtain rfl := List.mem_singleton.mp new
      exact ⟨asking, member, rfl, rfl⟩

/-- A process goes on in its place. -/
theorem replace (exclusive : Exclusive queue processes asked) {index : Nat} {turn : Turn}
    {before after : RunningChecker} (found : processes[index]? = some (turn, before))
    (lives : after.conversation.ended = none → before.conversation.ended = none) :
    Exclusive queue (processes.modify index ({ · with snd := after })) asked := by
  refine ⟨exclusive.orderly, (Session.turns_modify processes index after).symm ▸ exclusive.single,
    fun ticket running member alive => ?_, exclusive.named, exclusive.bounded, exclusive.rooted⟩
  rcases Session.mem_modify member with old | ⟨earlier, standing, rfl⟩
  · exact exclusive.running ticket running old alive
  · obtain ⟨rfl, rfl⟩ := Prod.mk.inj (Option.some.inj (found.symm.trans standing))
    exact exclusive.running ticket before (List.mem_of_getElem? found) (lives alive)

/-- A process is started for a task whose body runs and that has none. -/
theorem add (exclusive : Exclusive queue processes asked) {turn : Turn} (running : RunningChecker)
    (runs : ∀ ticket, turn = .queued ticket → queue.isRunning ticket)
    (first : turn ∉ processes.map (·.1)) :
    Exclusive queue (processes ++ [(turn, running)]) asked := by
  refine ⟨exclusive.orderly, ?_, fun ticket process member alive => ?_, exclusive.named,
    exclusive.bounded, exclusive.rooted⟩
  · rw [List.map_append, List.nodup_append]
    refine ⟨exclusive.single, List.nodup_singleton _, ?_⟩
    intro other known same fresh
    obtain rfl := List.mem_singleton.mp fresh
    rintro rfl
    exact first known
  · rcases List.mem_append.mp member with old | new
    · exact exclusive.running ticket process old alive
    · cases List.mem_singleton.mp new
      exact runs ticket rfl

/-- The processes of a turn are one process or none. -/
theorem eq_of_turn (exclusive : Exclusive queue processes asked) {turn : Turn}
    {one other : RunningChecker} (oneMember : (turn, one) ∈ processes)
    (otherMember : (turn, other) ∈ processes) : one = other :=
  (Prod.mk.inj (List.inj_on_of_nodup_map exclusive.single oneMember otherMember rfl)).2

/-- The body of a turn ends after its process did, if it has one. -/
theorem bodyEnds {session next : Session}
    (exclusive : Exclusive session.queue session.processes asked) {turn : Turn}
    {result : CheckerResult} (ends : session.BodyEnds turn result next)
    (dead : ∀ running, (turn, running) ∈ session.processes →
      running.conversation.ended ≠ none) :
    Exclusive next.queue next.processes asked := by
  cases ends with
  | @queued ticket result queue step =>
    refine exclusive.goOn step (fun _ _ same => nomatch same) ?_
    rintro other bodyEnd same running member
    cases same
    exact dead running member
  | polled => exact exclusive

/-- A process that is killed is over before the body of its turn is. -/
theorem kill {session next : Session}
    (exclusive : Exclusive session.queue session.processes asked) {index : Nat} {turn : Turn}
    {running : RunningChecker} {result : CheckerResult}
    (found : session.processes[index]? = some (turn, running))
    (ends : (session.setProcess index running.kill).BodyEnds turn result next) :
    Exclusive next.queue next.processes asked := by
  -- The process of the turn is the killed one, which stands in the place of the one before.
  have replaced : Exclusive session.queue (session.setProcess index running.kill).processes
      asked := exclusive.replace found fun alive => nomatch alive
  have standing : (turn, running.kill) ∈ (session.setProcess index running.kill).processes := by
    refine List.mem_of_getElem? (i := index) ?_
    simp [Session.setProcess, found]
  refine bodyEnds (by exact replaced) ends fun other member => ?_
  obtain rfl := replaced.eq_of_turn standing member
  exact fun alive => nomatch alive

/-- A process is over before the body of its turn is. -/
theorem finish {session next : Session}
    (exclusive : Exclusive session.queue session.processes asked) {index : Nat} {turn : Turn}
    {running : RunningChecker} {result : CheckerResult}
    (found : session.processes[index]? = some (turn, running))
    (outcome : running.outcome? = some result) (ends : session.BodyEnds turn result next) :
    Exclusive next.queue next.processes asked := by
  refine exclusive.bodyEnds ends fun other member => ?_
  obtain rfl := exclusive.eq_of_turn (List.mem_of_getElem? found) member
  intro alive
  simp [RunningChecker.outcome?, RunningChecker.result?, alive] at outcome

end Exclusive

namespace Traffic

variable {client : Client platform} {behaviour : Behaviour}

/-- A run of actions and of more actions is one of the former and from there one of the latter. -/
theorem run?_append (start : Traffic) (actions more : List Action) :
    start.run? client behaviour (actions ++ more) =
      (start.run? client behaviour actions).bind (·.run? client behaviour more) :=
  List.foldlM_append ..

/-- Whatever holds at the start of a run and is kept by every action of the run holds at its end. -/
theorem run_induction_along {start : Traffic} {motive : List Action → Traffic → Prop}
    (begins : motive [] start)
    (keeps : ∀ actions traffic action next, start.run? client behaviour actions = some traffic →
      motive actions traffic → Step client behaviour traffic action next →
        motive (actions ++ [action]) next)
    {actions : List Action} {traffic : Traffic}
    (ran : start.run? client behaviour actions = some traffic) : motive actions traffic := by
  induction actions using List.reverseRecOn generalizing traffic with
  | nil =>
    cases ran
    exact begins
  | append_singleton actions action ih =>
    rw [run?_append] at ran
    obtain ⟨before, ranBefore, ran⟩ := Option.bind_eq_some_iff.mp ran
    obtain ⟨after, stepped, same⟩ := Option.bind_eq_some_iff.mp ran
    cases same
    exact keeps actions before action _ ranBefore (ih ranBefore) (step_of_step? stepped)

/-- Whatever holds at the start of a run and is kept by every action holds at its end. -/
theorem run_induction {start : Traffic} {motive : List Action → Traffic → Prop}
    (begins : motive [] start)
    (keeps : ∀ actions traffic action next, motive actions traffic →
      Step client behaviour traffic action next → motive (actions ++ [action]) next)
    {actions : List Action} {traffic : Traffic}
    (ran : start.run? client behaviour actions = some traffic) : motive actions traffic :=
  run_induction_along begins
    (fun actions traffic action next _ holds step => keeps actions traffic action next holds step)
    ran

/-- The processes of a client exclude each other. -/
def IsExclusive (traffic : Traffic) : Prop :=
  Exclusive traffic.session.queue traffic.session.processes traffic.asked

/-- Processes exclude each other after every action. -/
theorem IsExclusive.step {traffic next : Traffic} (exclusive : traffic.IsExclusive)
    {action : Action} (step : Step client behaviour traffic action next) : next.IsExclusive := by
  -- No process has the turn of a question that is still to be decided on.
  have idle : ∀ turn, turn ∉ traffic.session.processes.map (·.1) → ∀ running,
      (turn, running) ∈ traffic.session.processes → running.conversation.ended ≠ none :=
    fun turn first running member => absurd (List.mem_map_of_mem member) first
  cases step with
  | poll => exact exclusive
  | ask => exact Exclusive.ask exclusive _ _ _
  | enter member drawn => exact Exclusive.enter exclusive member drawn
  | queue own step =>
    refine Exclusive.goOn exclusive step ?_ ?_
    · rintro ticket root rfl
      cases own
    · rintro ticket bodyEnd rfl
      cases own
  | gate => exact exclusive
  | answer undecided _ ends =>
    exact Exclusive.bodyEnds (by exact exclusive) ends (idle _ undecided.first)
  | fail undecided _ _ ends =>
    exact Exclusive.bodyEnds (by exact exclusive) ends (idle _ undecided.first)
  | launch undecided =>
    refine Exclusive.add exclusive _ (fun ticket same => ?_) undecided.first
    subst same
    exact undecided.runs
  | move found step => exact Exclusive.replace exclusive found step.alive
  | interrupt found => exact Exclusive.replace exclusive found RunningChecker.alive_of_interrupt
  | kill found _ _ ends => exact Exclusive.kill exclusive found ends
  | finish found outcome ends => exact Exclusive.finish exclusive found outcome ends
  | cancel | openGate | change | locate => exact exclusive

/-- There is no process before anything was asked. -/
theorem isExclusive_start (disk : Disk) : (start disk).IsExclusive :=
  ⟨ProjectQueue.orderly_empty, List.nodup_nil, fun _ _ member => (nomatch member),
    List.nodup_nil, fun _ member => (nomatch member), fun _ member => (nomatch member)⟩

/-- Processes exclude each other in every state that a client can come to. -/
theorem isExclusive_of_run {disk : Disk} {actions : List Action} {traffic : Traffic}
    (ran : (start disk).run? client behaviour actions = some traffic) : traffic.IsExclusive :=
  run_induction (motive := fun _ traffic => traffic.IsExclusive) (isExclusive_start disk)
    (fun _ _ _ _ exclusive step => exclusive.step step) ran

/-- A process that is not over works on a task that runs, and for the root of its question. -/
theorem IsExclusive.runner {traffic : Traffic} (exclusive : traffic.IsExclusive)
    {asking : Asking} (member : asking ∈ traffic.asked) {running : RunningChecker}
    (works : (Turn.queued asking.ticket, running) ∈ traffic.session.processes)
    (alive : running.conversation.ended = none) :
    ∃ task ∈ traffic.session.queue.line asking.root,
      task.ticket = asking.ticket ∧ task.stage = .running := by
  have runs := exclusive.running _ running works alive
  obtain ⟨task, found, stage⟩ := ProjectQueue.isRunning_eq_true.mp runs
  obtain ⟨taskMember, named⟩ := ProjectQueue.mem_of_task? found
  -- No two questions drew one ticket.
  obtain ⟨known, knownMember, ticket, root⟩ := exclusive.rooted task taskMember
  obtain rfl := List.inj_on_of_nodup_map exclusive.named knownMember member (ticket.trans named)
  exact ⟨task, ProjectQueue.mem_line.mpr ⟨taskMember, root.symm⟩, named, stage⟩

/-- Two processes that are not over and work on questions of the queue work for different roots. -/
theorem IsExclusive.root_ne {traffic : Traffic} (exclusive : traffic.IsExclusive)
    {one other : Asking} (oneAsked : one ∈ traffic.asked) (otherAsked : other ∈ traffic.asked)
    (apart : one.ticket ≠ other.ticket) {left right : RunningChecker}
    (leftWorks : (Turn.queued one.ticket, left) ∈ traffic.session.processes)
    (rightWorks : (Turn.queued other.ticket, right) ∈ traffic.session.processes)
    (leftAlive : left.conversation.ended = none) (rightAlive : right.conversation.ended = none) :
    one.root ≠ other.root := by
  -- Otherwise two tasks of one line would run at the same time.
  intro same
  obtain ⟨first, firstInLine, firstTicket, firstRuns⟩ :=
    exclusive.runner oneAsked leftWorks leftAlive
  obtain ⟨second, secondInLine, secondTicket, secondRuns⟩ :=
    exclusive.runner otherAsked rightWorks rightAlive
  rw [← same] at secondInLine
  obtain rfl := exclusive.orderly.running_unique firstInLine secondInLine firstRuns secondRuns
  exact apart (firstTicket.symm.trans secondTicket)

end Traffic

end FlowService
