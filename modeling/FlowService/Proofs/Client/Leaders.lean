import FlowService.Proofs.Client.Exclusion
import FlowService.Proofs.Queue.Entries

/-!
Each turn is led by one question at most, which is admitted with its task, and only a task whose body
was called may have a process.
-/

namespace FlowService

variable {platform : Option String}

/-- A process that was started has just begun its conversation. -/
theorem RunningChecker.start_fresh {disk : Disk} {environment : Environment}
    {behaviour : Behaviour} {earlier : List Invocation} {invocation : Invocation}
    {running : RunningChecker}
    (started : start disk environment behaviour earlier invocation = .ok running) :
    running.conversation.ended = none := by
  unfold start at started
  split at started <;> cases started
  rfl

namespace ProjectQueue

variable {κ α : Type}

/-- A task that comes to a stage that is not before its own has not gone back, nor has any other. -/
theorem setStage_task_lasts {queue : ProjectQueue κ α} {moved ticket : Nat}
    {task other : QueueTask κ α} (found : queue.task? moved = some task) {stage : Stage α}
    (onwards : task.stage.rank ≤ stage.rank) (known : queue.task? ticket = some other) :
    ∃ later, (queue.setStage moved stage).task? ticket = some later ∧
      other.stage.rank ≤ later.stage.rank := by
  refine ⟨other.restage moved stage, by rw [setStage_task?, known]; rfl, ?_⟩
  by_cases same : other.ticket = moved
  · rw [← same, (mem_of_task? known).2, known] at found
    rw [QueueTask.restage_stage_same same, Option.some.inj found]
    exact onwards
  · rw [QueueTask.restage_of_ne same]

variable [DecidableEq κ]

/-- No task is lost, and none goes back. -/
theorem Step.task_lasts {queue next : ProjectQueue κ α} {action : Action κ α}
    (step : Step queue action next) {ticket : Nat} {task : QueueTask κ α}
    (known : queue.task? ticket = some task) :
    ∃ later, next.task? ticket = some later ∧ task.stage.rank ≤ later.stage.rank := by
  cases step with
  | draw => exact ⟨task, known, Nat.le_refl _⟩
  | enter drawn => exact ⟨task, enter_task? known, Nat.le_refl _⟩
  | wake found waits => exact setStage_task_lasts found (by simp [waits, Stage.rank]) known
  | start found awake => exact setStage_task_lasts found (by simp [awake, Stage.rank]) known
  | @finish _ _ bodyEnd found runs =>
    refine setStage_task_lasts found ?_ known
    cases bodyEnd <;> simp [runs, Stage.rank, BodyEnd.stage]
  | clear found ended =>
    exact setStage_task_lasts (by simpa using found) (by simp [ended, Stage.rank])
      (by simpa using known)
  | settle found cleared => exact setStage_task_lasts found (by simp [cleared, Stage.rank]) known

end ProjectQueue

namespace StatusGate

variable {κ α : Type} [DecidableEq κ]

/-- No task of a gate is lost, and none goes back. -/
theorem Step.task_lasts {gate next : StatusGate κ α} {action : Action κ α}
    (step : Step gate action next) {ticket : Nat} {task : QueueTask κ α}
    (known : gate.queue.task? ticket = some task) :
    ∃ later, next.queue.task? ticket = some later ∧ task.stage.rank ≤ later.stage.rank := by
  cases step with
  | join | note => exact ⟨task, known, Nat.le_refl _⟩
  | begin => exact ⟨task, ProjectQueue.enter_task? known, Nat.le_refl _⟩
  | wake step | start step | die _ _ step | leave _ _ step | clear step | settle step =>
    exact step.task_lasts known

end StatusGate

namespace Session

/-- The task of a turn. -/
def task? (session : Session) : Turn → Option (QueueTask RootKey CheckerOutput)
  | .queued ticket => session.queue.task? ticket
  | .polled task => session.gate.queue.task? task

/-- Every task of a session is still there in another one, and has not gone back. -/
def Lasts (session next : Session) : Prop :=
  ∀ turn task, session.task? turn = some task →
    ∃ later, next.task? turn = some later ∧ task.stage.rank ≤ later.stage.rank

/-- Tasks last where neither the queue nor the gate is touched. -/
theorem Lasts.same {session next : Session} (queue : next.queue = session.queue)
    (gate : next.gate = session.gate) : session.Lasts next := by
  intro turn task known
  refine ⟨task, ?_, Nat.le_refl _⟩
  cases turn with
  | queued ticket => rw [task?, queue]; exact known
  | polled other => rw [task?, gate]; exact known

/-- Tasks last while the queue goes on. -/
theorem Lasts.queue {session next : Session}
    {action : ProjectQueue.Action RootKey CheckerOutput}
    (step : session.queue.Step action next.queue) (gate : next.gate = session.gate) :
    session.Lasts next := by
  intro turn task known
  cases turn with
  | queued ticket => exact step.task_lasts known
  | polled other => exact ⟨task, by rw [task?, gate]; exact known, Nat.le_refl _⟩

/-- Tasks last while the gate goes on. -/
theorem Lasts.gate {session next : Session}
    {action : StatusGate.Action RootKey CheckerOutput}
    (step : session.gate.Step action next.gate) (queue : next.queue = session.queue) :
    session.Lasts next := by
  intro turn task known
  cases turn with
  | queued ticket => exact ⟨task, by rw [task?, queue]; exact known, Nat.le_refl _⟩
  | polled other => exact step.task_lasts known

/-- A turn whose body runs has a task at that stage. -/
theorem running_of_isUnderWay {session : Session} {turn : Turn} (runs : session.isUnderWay turn) :
    ∃ task, session.task? turn = some task ∧ task.stage = .running := by
  cases turn with
  | queued ticket => exact ProjectQueue.isRunning_eq_true.mp runs
  | polled task =>
    simp only [isUnderWay, Bool.and_eq_true] at runs
    exact ProjectQueue.isRunning_eq_true.mp runs.1

/-- What holds of the questions and the processes of a session at any time. -/
structure Tidy (session : Session) : Prop where
  sound : ∃ actions, StatusGate.Sound actions session.gate
  leaders : ((session.requests.filter (·.leads)).map (·.turn)).Nodup
  admitted : ∀ request ∈ session.requests, request.leads → (session.task? request.turn).isSome
  -- A task that is not yet called has no process.
  begun : ∀ entry ∈ session.processes, ∃ task, session.task? entry.1 = some task ∧
    2 ≤ task.stage.rank
  hungUp : ∀ entry ∈ session.processes, entry.2.conversation.IsHungUp

namespace Tidy

variable {session next : Session}

/-- A session in which nothing was asked is tidy. -/
theorem start (disk : Disk) : (Session.start disk).Tidy where
  sound := ⟨[], StatusGate.sound_empty⟩
  leaders := List.nodup_nil
  admitted _ member := nomatch member
  begun _ member := nomatch member
  hungUp _ member := nomatch member

/-- A session stays tidy while its tasks go on. -/
theorem goOn (tidy : session.Tidy) (sound : ∃ actions, StatusGate.Sound actions next.gate)
    (lasts : session.Lasts next) (requests : next.requests = session.requests)
    (processes : next.processes = session.processes) : next.Tidy where
  sound := sound
  leaders := requests ▸ tidy.leaders
  admitted request member leads := by
    obtain ⟨task, known⟩ := Option.isSome_iff_exists.mp
      (tidy.admitted request (requests ▸ member) leads)
    obtain ⟨later, found, _⟩ := lasts _ _ known
    exact Option.isSome_iff_exists.mpr ⟨later, found⟩
  begun entry member := by
    obtain ⟨task, known, called⟩ := tidy.begun entry (processes ▸ member)
    obtain ⟨later, found, onwards⟩ := lasts _ _ known
    exact ⟨later, found, Nat.le_trans called onwards⟩
  hungUp entry member := tidy.hungUp entry (processes ▸ member)

/-- No question leads a turn that has no task. -/
theorem turn_ne (tidy : session.Tidy) {turn : Turn} (free : session.task? turn = none) :
    ∀ request ∈ session.requests, request.leads → request.turn ≠ turn := by
  rintro request member leads rfl
  have known := tidy.admitted request member leads
  rw [free] at known
  cases known

/-- A question that leads a turn is the first one to do so, and any other may come at any time. -/
theorem ask (tidy : session.Tidy) {request : Request}
    (leader : request.leads →
      (∀ other ∈ session.requests, other.leads → other.turn ≠ request.turn) ∧
        (session.task? request.turn).isSome) :
    { session with requests := session.requests ++ [request] }.Tidy where
  sound := tidy.sound
  leaders := by
    -- Only a new leader adds a turn, and its turn is none of the old ones.
    cases leads : request.leads with
    | false => simpa [List.filter_append, leads] using tidy.leaders
    | true =>
      rw [List.filter_append, List.map_append, List.nodup_append]
      refine ⟨tidy.leaders, by simp [leads], ?_⟩
      intro turn known other new
      obtain ⟨earlier, among, rfl⟩ := List.mem_map.mp known
      obtain ⟨member, earlierLeads⟩ := List.mem_filter.mp among
      obtain rfl : other = request.turn := by simpa [leads] using new
      exact (leader leads).1 earlier member earlierLeads
  admitted other member leads := by
    rcases List.mem_append.mp member with old | new
    · exact tidy.admitted other old leads
    · obtain rfl := List.mem_singleton.mp new
      exact (leader leads).2
  begun := tidy.begun
  hungUp := tidy.hungUp

/-- A process is started for a task whose body runs. -/
theorem launch (tidy : session.Tidy) {turn : Turn} {running : RunningChecker}
    (runs : session.isUnderWay turn) (fresh : running.conversation.ended = none) :
    { session with processes := session.processes ++ [(turn, running)] }.Tidy where
  sound := tidy.sound
  leaders := tidy.leaders
  admitted := tidy.admitted
  begun entry member := by
    rcases List.mem_append.mp member with old | new
    · exact tidy.begun entry old
    · obtain rfl := List.mem_singleton.mp new
      obtain ⟨task, known, stage⟩ := running_of_isUnderWay runs
      exact ⟨task, known, by simp [stage, Stage.rank]⟩
  hungUp entry member := by
    rcases List.mem_append.mp member with old | new
    · exact tidy.hungUp entry old
    · obtain rfl := List.mem_singleton.mp new
      exact fun ended => absurd fresh ended

/-- A process goes on in its place. -/
theorem replace (tidy : session.Tidy) {index : Nat} {turn : Turn} {before after : RunningChecker}
    (found : session.processes[index]? = some (turn, before))
    (hungUp : before.conversation.IsHungUp → after.conversation.IsHungUp) :
    (session.setProcess index after).Tidy where
  sound := tidy.sound
  leaders := tidy.leaders
  admitted := tidy.admitted
  begun entry member := by
    have listed : entry.1 ∈ session.processes.map (·.1) := by
      rw [← turns_modify session.processes index after]
      exact List.mem_map_of_mem member
    obtain ⟨other, otherMember, same⟩ := List.mem_map.mp listed
    exact same ▸ tidy.begun other otherMember
  hungUp entry member := by
    rcases mem_modify member with old | ⟨earlier, standing, same⟩
    · exact tidy.hungUp entry old
    · obtain ⟨rfl, rfl⟩ := Prod.mk.inj (Option.some.inj (found.symm.trans standing))
      rw [same]
      exact hungUp (tidy.hungUp _ (List.mem_of_getElem? found))

/-- A body that ends leaves a session tidy. -/
theorem bodyEnds (tidy : session.Tidy) {turn : Turn} {result : CheckerResult}
    (ends : session.BodyEnds turn result next) : next.Tidy := by
  cases ends with
  | queued step => exact tidy.goOn tidy.sound (.queue step rfl) rfl rfl
  | polled step =>
    obtain ⟨actions, sound⟩ := tidy.sound
    exact tidy.goOn ⟨_, sound.step step⟩ (.gate step rfl) rfl rfl

/-- A question for the state of a project leads the poll that it starts. -/
theorem poll (tidy : session.Tidy) (file : Path) (token : Option String) :
    (session.ask (.status file) token).2.Tidy := by
  obtain ⟨actions, sound⟩ := tidy.sound
  cases out : session.gate.outstanding? (rootKey session.disk file) with
  | some entry =>
    -- Whoever joins a poll only shares its turn.
    simp only [Session.ask, Question.file, StatusGate.poll_of_outstanding out]
    exact tidy.ask fun leads => nomatch leads
  | none =>
    have step : session.gate.Step (.poll (rootKey session.disk file))
        (session.gate.begun (rootKey session.disk file)) := .begin out
    have free : session.task? (.polled session.gate.queue.nextTicket) = none :=
      sound.orderly.task?_fresh
    have first := tidy.turn_ne free
    have going : { session with gate := session.gate.begun (rootKey session.disk file) }.Tidy :=
      tidy.goOn ⟨_, sound.step step⟩ (.gate step rfl) rfl rfl
    simp only [Session.ask, Question.file, StatusGate.poll_of_free out]
    refine going.ask fun _ => ⟨first, ?_⟩
    exact Option.isSome_iff_exists.mpr ⟨_, ProjectQueue.enter_task?_self _ free⟩

end Tidy

end Session

namespace Traffic

/-- What holds of a client at any time. -/
structure InOrder (traffic : Traffic) : Prop where
  exclusive : traffic.IsExclusive
  tidy : traffic.session.Tidy

namespace InOrder

variable {client : Client platform} {behaviour : Behaviour} {traffic next : Traffic}

/-- A client remains in order after every action. -/
theorem step (inOrder : traffic.InOrder) {action : Action}
    (step : Step client behaviour traffic action next) : next.InOrder := by
  refine ⟨inOrder.exclusive.step step, ?_⟩
  -- Tasks go on or stay as they are; beyond that a step adds a question or touches one process.
  have tidy := inOrder.tidy
  have orderly : traffic.session.queue.Orderly := inOrder.exclusive.orderly
  cases step with
  | @poll file token => exact tidy.poll file token
  | ask => exact tidy.goOn tidy.sound (.queue .draw rfl) rfl rfl
  | @enter asking member drawn =>
    have free : traffic.session.task? (.queued asking.ticket) = none := orderly.task?_drawn drawn
    have first := tidy.turn_ne free
    have entered : { traffic.session with
        queue := traffic.session.queue.enter asking.ticket asking.root }.Tidy :=
      tidy.goOn tidy.sound (.queue (.enter drawn) rfl) rfl rfl
    refine entered.ask fun _ => ⟨first, ?_⟩
    exact Option.isSome_iff_exists.mpr ⟨_, ProjectQueue.enter_task?_self _ free⟩
  | queue own step => exact tidy.goOn tidy.sound (.queue step rfl) rfl rfl
  | gate own step =>
    obtain ⟨actions, sound⟩ := tidy.sound
    exact tidy.goOn ⟨_, sound.step step⟩ (.gate step rfl) rfl rfl
  | answer _ _ ends =>
    refine Session.Tidy.bodyEnds ?_ ends
    exact tidy.goOn tidy.sound (.same rfl rfl) rfl rfl
  | fail _ _ _ ends =>
    refine Session.Tidy.bodyEnds ?_ ends
    exact tidy.goOn tidy.sound (.same rfl rfl) rfl rfl
  | launch undecided _ started =>
    have launched := tidy.launch undecided.runs (RunningChecker.start_fresh started)
    exact launched.goOn tidy.sound (.same rfl rfl) rfl rfl
  | move found step => exact tidy.replace found fun hungUp => hungUp.step step
  | interrupt found =>
    refine tidy.replace found fun hungUp => ?_
    unfold RunningChecker.interrupt
    split
    · exact hungUp
    · exact hungUp.interrupt
  | @kill _ _ running _ found _ _ ends =>
    refine Session.Tidy.bodyEnds ?_ ends
    exact tidy.replace found fun _ => Conversation.isHungUp_finish running.conversation _
  | finish _ _ ends => exact tidy.bodyEnds ends
  | cancel | openGate | change | locate =>
    exact tidy.goOn tidy.sound (.same rfl rfl) rfl rfl

/-- A client is in order in every state that it can come to. -/
theorem of_run {start : Traffic} {actions : List Action} (begins : start.InOrder)
    (ran : start.run? client behaviour actions = some traffic) : traffic.InOrder :=
  run_induction (motive := fun _ traffic => traffic.InOrder) begins
    (fun _ _ _ _ inOrder step => inOrder.step step) ran

end InOrder

/-- A client whose session has just begun is in order. -/
theorem inOrder_start (disk : Disk) : (start disk).InOrder :=
  ⟨isExclusive_start disk, .start disk⟩

end Traffic

end FlowService
