import FlowService.Proofs.Queue.Dropping
import FlowService.Proofs.Queue.Outcomes

/-!
Every task that is admitted is carried out once: the oldest one of a root that is not over can
always go on, and whoever holds a promise gets what the body of his own task brought.
-/

namespace FlowService.ProjectQueue

variable {κ α : Type}

/-- The ticket with which an action admits a task. -/
def Action.requests? : Action κ α → Option Nat
  | .enter ticket _ => some ticket
  | _ => none

/-- The tickets of all tasks that actions admit, in order. -/
def requested (actions : List (Action κ α)) : List Nat := actions.filterMap Action.requests?

/-- The holders of the chosen promises do nothing but drop them, each at most once and not before
the task was admitted. -/
def OnlyDrops (chosen : Nat → Bool) (schedule : List (Occurrence (Action κ α))) : Prop :=
  -- Promises are numbered in the order of admission, so a number is known once it is reached.
  ∀ before occurrence after, schedule = before ++ occurrence :: after →
    ∀ index, occurrence.promise? = some index → chosen index →
      occurrence = .drop index ∧ .drop index ∉ before ∧
        index < (requested (Occurrence.actions before)).length

/-- What is only dropped in a whole schedule is only dropped in the front of it. -/
theorem OnlyDrops.of_append {chosen : Nat → Bool}
    {schedule later : List (Occurrence (Action κ α))} (drops : OnlyDrops chosen (schedule ++ later)) :
    OnlyDrops chosen schedule := by
  rintro before occurrence after rfl
  exact drops before occurrence (after ++ later) (by simp)

/-- A task that is settled has a result. -/
theorem result_of_isSettled {queue : ProjectQueue κ α} {ticket : Nat}
    (settled : queue.isSettled ticket) : ∃ result, queue.result? ticket = some result := by
  unfold isSettled at settled
  unfold result?
  split at settled
  · rename_i result stage
    exact ⟨result, rfl⟩
  · cases settled

/-- Who leaves out all that is done with the chosen promises does nothing but drop them. -/
theorem onlyDrops_without (chosen : Nat → Bool) (schedule : List (Occurrence (Action κ α))) :
    OnlyDrops chosen (Occurrence.without chosen schedule) := by
  -- No occurrence that is left is about a chosen promise.
  intro before occurrence after split index about isChosen
  have left : occurrence ∈ Occurrence.without chosen schedule := by rw [split]; simp
  have apart := (List.mem_filter.mp left).2
  simp [Occurrence.concerns, about, isChosen] at apart

/-- The first task of a root waits for none. -/
def Headed [DecidableEq κ] (queue : ProjectQueue κ α) : Prop :=
  ∀ root, ∀ first ∈ (queue.line root).head?, first.previous = none

variable [DecidableEq κ]

/-- The steps that a task takes by itself; the end of its body is not among them. -/
def ownSteps (ticket : Nat) : List (Action κ α) :=
  [.wake ticket, .start ticket, .clear ticket, .settle ticket]

/-- The body of a task runs, or the task can take a step by itself. -/
def CanGoOn (queue : ProjectQueue κ α) (ticket : Nat) : Prop :=
  queue.isRunning ticket ∨ ∃ action ∈ ownSteps ticket, (queue.step? action).isSome

/-- All bodies that started have ended, and no task can take a step. -/
def AtRest (queue : ProjectQueue κ α) : Prop := ∀ ticket, ¬queue.CanGoOn ticket

/-- The first task of a root waits for none after every action. -/
theorem Headed.step {queue next : ProjectQueue κ α} (headed : Headed queue)
    (orderly : Orderly queue) {action : Action κ α} (step : Step queue action next) :
    Headed next := by
  -- No task that is there changes what it waits for, and tasks come last in line.
  have goOn : ∀ (other : ProjectQueue κ α) ticket stage,
      other.tasks = queue.tasks.map (·.restage ticket stage) → Headed other := by
    intro other ticket stage tasks root first member
    have line : other.line root = (queue.line root).map (·.restage ticket stage) := by
      rw [← setStage_line, ProjectQueue.line, tasks]
      rfl
    rw [line, List.head?_map] at member
    obtain ⟨before, beforeMember, rfl⟩ := Option.map_eq_some_iff.mp member
    rw [QueueTask.restage_previous]
    exact headed root before beforeMember
  cases step with
  | draw => exact headed
  | @enter ticket root drawn =>
    intro other first member
    rw [enter_line] at member
    split at member
    · rename_i same
      subst other
      cases line : queue.line root with
      | nil =>
        -- A root without tasks has no mark.
        have marked := orderly.marked root
        rw [line] at member marked
        obtain rfl := Option.some.inj member
        cases tail : queue.tail? root with
        | none => rfl
        | some mark => rw [tail] at marked; cases marked
      | cons head rest =>
        rw [line] at member
        exact headed root first (by rw [line]; exact member)
    · exact headed other first member
  | wake | start | finish | settle => exact goOn _ _ _ rfl
  | clear => exact goOn _ _ _ (clearTail_setStage_tasks ..)

/-- In every queue that a service can come to, the first task of a root waits for none. -/
theorem headed_of_run {schedule : List (Occurrence (Action κ α))}
    {served : Served (ProjectQueue κ α) α}
    (ran : service.run? (.fresh empty) schedule = some served) : Headed served.state := by
  have both : Orderly served.state ∧ Headed served.state := by
    refine Service.actions_induction
      (motive := fun _ queue => Orderly queue ∧ Headed queue) ?_ ?_ ran
    · exact ⟨orderly_empty, fun root first member => nomatch member⟩
    · rintro actions queue action next ⟨orderly, headed⟩ stepped
      have step := step_of_step? stepped
      exact ⟨orderly.step step, headed.step orderly step⟩
  exact both.2

namespace Orderly

variable {queue : ProjectQueue κ α}

/-- A task is ready once all tasks ahead of it in line are settled. -/
theorem isReady_of_oldest (orderly : Orderly queue) (headed : Headed queue) {root : κ}
    {ahead behind : List (QueueTask κ α)} {task : QueueTask κ α}
    (split : queue.line root = ahead ++ task :: behind)
    (settled : ∀ other ∈ ahead, queue.isSettled other.ticket) : queue.isReady task := by
  -- It waits for the task just ahead of it, if for any.
  cases last : ahead.getLast? with
  | none =>
    rw [List.getLast?_eq_none_iff.mp last] at split
    have free := headed root task (by rw [split]; rfl)
    simp [isReady, free]
  | some earlier =>
    have linked := orderly.linked root
    rw [split] at linked
    have follows : Follows earlier task :=
      (List.isChain_append.mp linked).2.2 earlier last task rfl
    rcases follows.waits with waits | ⟨free, _⟩
    · simpa [isReady, waits] using settled earlier (List.mem_of_getLast? last)
    · simp [isReady, free]

/-- A task that is ready and not settled can go on. -/
theorem canGoOn_of_isReady (orderly : Orderly queue) {task : QueueTask κ α}
    (member : task ∈ queue.tasks) (ready : queue.isReady task)
    (unsettled : ¬queue.isSettled task.ticket) : queue.CanGoOn task.ticket := by
  have found := task?_of_mem orderly.unique member
  -- Each stage but the last has one step, and only that of a running body is not the task's own.
  cases stage : task.stage with
  | waiting =>
    exact Or.inr ⟨.wake task.ticket, by simp [ownSteps], by simp [step?, found, stage, ready]⟩
  | awake =>
    exact Or.inr ⟨.start task.ticket, by simp [ownSteps], by simp [step?, found, stage]⟩
  | running => exact Or.inl ((isRunning_iff orderly.unique member).mpr stage)
  | ended result =>
    exact Or.inr ⟨.clear task.ticket, by simp [ownSteps], by simp [step?, found, stage]⟩
  | cleared result =>
    exact Or.inr ⟨.settle task.ticket, by simp [ownSteps], by simp [step?, found, stage]⟩
  | settled result => simp [isSettled, stage?, found, stage] at unsettled

/-- At rest all tasks are settled. -/
theorem isSettled_of_atRest (orderly : Orderly queue) (headed : Headed queue)
    (atRest : queue.AtRest) {task : QueueTask κ α} (member : task ∈ queue.tasks) :
    queue.isSettled task.ticket := by
  -- Otherwise the oldest task of its root that is not settled could go on.
  by_contra unsettled
  have inLine : task ∈ queue.line task.root := mem_line.mpr ⟨member, rfl⟩
  obtain ⟨oldest, located⟩ := Option.isSome_iff_exists.mp
    (List.find?_isSome.mpr ⟨task, inLine, by simpa using unsettled⟩ :
      ((queue.line task.root).find? (!queue.isSettled ·.ticket)).isSome)
  obtain ⟨unsettled, ahead, behind, split, settled⟩ := List.find?_eq_some_iff_append.mp located
  have oldestMember := (mem_line.mp (List.mem_of_find?_eq_some located)).1
  have ready := orderly.isReady_of_oldest headed split fun other early => by
    simpa using settled other early
  exact atRest oldest.ticket
    (orderly.canGoOn_of_isReady oldestMember ready (by simpa using unsettled))

end Orderly

/-- A queue whose tasks are all settled is at rest. -/
theorem atRest_of_isSettled {queue : ProjectQueue κ α}
    (settled : ∀ task ∈ queue.tasks, queue.isSettled task.ticket) : queue.AtRest := by
  -- No step is left for a settled task, and none for a ticket without a task.
  intro ticket goesOn
  cases found : queue.task? ticket with
  | none => simp [CanGoOn, isRunning, stage?, ownSteps, step?, found] at goesOn
  | some task =>
    obtain ⟨member, rfl⟩ := mem_of_task? found
    obtain ⟨result, known⟩ := result_of_isSettled (settled task member)
    obtain ⟨own, sameTask, stage⟩ := result?_eq_some.mp known
    obtain rfl := Option.some.inj (found.symm.trans sameTask)
    simp [CanGoOn, isRunning, stage?, ownSteps, step?, found, stage] at goesOn

/-- The promises that were made are those of the tasks that were admitted, in order. -/
theorem promises_of_run {schedule : List (Occurrence (Action κ α))}
    {served : Served (ProjectQueue κ α) α}
    (ran : service.run? (.fresh empty) schedule = some served) :
    served.promises.map (·.task) = requested (Occurrence.actions schedule) := by
  refine Service.run_induction (motive := fun schedule served =>
    served.promises.map (·.task) = requested (Occurrence.actions schedule)) rfl ?_ ran
  intro schedule served occurrence next promised stepped
  have split : requested (Occurrence.actions (schedule ++ [occurrence])) =
      requested (Occurrence.actions schedule) ++ requested (Occurrence.actions [occurrence]) := by
    simp [requested, Occurrence.actions]
  rw [split, ← promised]
  -- Only an admission makes a promise, and the fate of a promise does not change its task.
  cases occurrence with
  | act action =>
    obtain ⟨state, acted, rfl⟩ := Option.map_eq_some_iff.mp stepped
    cases action <;> simp [requested, Occurrence.actions, Action.requests?, service]
  | collect index =>
    obtain ⟨task, held, rfl⟩ := Option.map_eq_some_iff.mp stepped
    split <;> simp [requested, Occurrence.actions, Served.setFate_tasks]
  | drop index =>
    obtain ⟨task, held, rfl⟩ := Option.map_eq_some_iff.mp stepped
    simp [requested, Occurrence.actions, Served.setFate_tasks]

/-- A task that was admitted is in the queue. -/
theorem Accounts.mem_of_requested {actions : List (Action κ α)} {queue : ProjectQueue κ α}
    (accounts : Accounts actions queue) {ticket : Nat} (asked : ticket ∈ requested actions) :
    ∃ task ∈ queue.tasks, task.ticket = ticket := by
  -- It stands in the line of the root that the admission names.
  obtain ⟨action, taken, requests⟩ := List.mem_filterMap.mp asked
  cases action with
  | enter entered root =>
    obtain rfl := Option.some.inj requests
    have admittedHere : entered ∈ admitted root actions :=
      List.mem_filterMap.mpr ⟨_, taken, by simp [Action.admits?]⟩
    rw [← accounts.lined root] at admittedHere
    obtain ⟨task, inLine, named⟩ := List.mem_map.mp admittedHere
    exact ⟨task, (mem_line.mp inLine).1, named⟩
  | _ => cases requests

/-- A promise that is not concerned has the fate that it had, or it was made just now. -/
theorem fate_of_step {chosen : Nat → Bool} {one next : Served (ProjectQueue κ α) α}
    {occurrence : Occurrence (Action κ α)} (apart : ¬occurrence.concerns chosen)
    (stepped : service.step? one occurrence = some next) {index : Nat} (isChosen : chosen index)
    {promise : Promise α} (found : next.promises[index]? = some promise) :
    one.promises[index]? = some promise ∨ promise.fate = .held := by
  have other : ∀ place fate, ¬chosen place →
      (one.setFate place fate).promises[index]? = some promise →
        one.promises[index]? = some promise := by
    intro place fate free located
    have different : place ≠ index := by
      rintro rfl
      exact free isChosen
    rwa [Served.setFate, List.getElem?_modify_ne _ _ different] at located
  cases occurrence with
  | act action =>
    obtain ⟨state, acted, rfl⟩ := Option.map_eq_some_iff.mp stepped
    rw [List.getElem?_append] at found
    split at found
    · exact Or.inl found
    · obtain ⟨task, _, rfl⟩ := List.mem_map.mp (List.mem_of_getElem? found)
      exact Or.inr rfl
  | collect place =>
    obtain ⟨task, held, rfl⟩ := Option.map_eq_some_iff.mp stepped
    split at found
    · exact Or.inl (other place _ apart found)
    · exact Or.inl found
  | drop place =>
    obtain ⟨task, held, rfl⟩ := Option.map_eq_some_iff.mp stepped
    exact Or.inl (other place _ apart found)

/-- Promises may be dropped at any time, and everything else goes on as it would have. -/
theorem run_with_drops {chosen : Nat → Bool} {schedule : List (Occurrence (Action κ α))}
    (drops : OnlyDrops chosen schedule) {rest : Served (ProjectQueue κ α) α}
    (ran : service.run? (.fresh empty) (Occurrence.without chosen schedule) = some rest) :
    ∃ after, service.run? (.fresh empty) schedule = some after ∧ rest.Alike chosen after ∧
      ∀ index, chosen index → .drop index ∉ schedule →
        ∀ promise, after.promises[index]? = some promise → promise.fate = .held := by
  -- A chosen promise is held until it is dropped, which is why it can be dropped.
  induction schedule using List.reverseRecOn generalizing rest with
  | nil => exact ⟨rest, ran, .refl rest, fun index _ _ promise found => by cases ran; cases found⟩
  | append_singleton schedule occurrence ih =>
    have split : Occurrence.without chosen (schedule ++ [occurrence]) =
        Occurrence.without chosen schedule ++ Occurrence.without chosen [occurrence] :=
      List.filter_append ..
    rw [split] at ran
    by_cases about : occurrence.concerns chosen
    · rw [show Occurrence.without chosen [occurrence] = [] by simp [Occurrence.without, about],
        List.append_nil] at ran
      obtain ⟨after, ranAfter, alike, held⟩ := ih drops.of_append ran
      obtain ⟨index, named, isChosen⟩ := (Option.any_eq_true ..).mp about
      obtain ⟨rfl, fresh, made⟩ := drops schedule occurrence [] rfl index named isChosen
      rw [← promises_of_run ranAfter, List.length_map] at made
      have kept := held index isChosen fresh _ (List.getElem?_eq_getElem made)
      have holder : after.held? index = some after.promises[index].task := by
        rw [Served.held?, List.getElem?_eq_getElem made]
        generalize after.promises[index] = promise at kept
        obtain ⟨task, fate⟩ := promise
        cases kept
        rfl
      refine ⟨after.setFate index .dropped,
        Service.run?_concat.mpr ⟨after, ranAfter, Option.map_eq_some_iff.mpr ⟨_, holder, rfl⟩⟩,
        alike.trans (.setFate_chosen after isChosen _), fun other otherChosen undropped => ?_⟩
      simp only [List.mem_append, List.mem_singleton, not_or, Occurrence.drop.injEq] at undropped
      rw [Served.setFate, List.getElem?_modify_ne _ _ (Ne.symm undropped.2)]
      exact held other otherChosen undropped.1
    · rw [show Occurrence.without chosen [occurrence] = [occurrence] by
        simp [Occurrence.without, about]] at ran
      obtain ⟨before, ranBefore, stepped⟩ := Service.run?_concat.mp ran
      obtain ⟨middle, ranMiddle, alike, held⟩ := ih drops.of_append ranBefore
      obtain ⟨after, happened, alikeAfter⟩ := Service.alike_step alike about stepped
      refine ⟨after, Service.run?_concat.mpr ⟨middle, ranMiddle, happened⟩, alikeAfter, ?_⟩
      intro index isChosen undropped promise found
      simp only [List.mem_append, not_or] at undropped
      exact (fate_of_step about happened isChosen found).elim
        (held index isChosen undropped.1 promise) id

/-- No body is seen to start twice. -/
theorem Accounts.started_once {actions : List (Action κ α)} {queue : ProjectQueue κ α}
    (accounts : Accounts actions queue) (ticket : Nat) :
    (events actions).count (.started ticket) ≤ 1 := by
  -- Of a body that started no more is seen than its turn, which has one start.
  by_cases seen : .started ticket ∈ events actions
  · obtain ⟨task, member, rfl⟩ := List.mem_map.mp (accounts.tells.known _ seen)
    have own : ((events actions).filter (·.ticket = task.ticket)).count (.started task.ticket) =
        (events actions).count (.started task.ticket) :=
      List.count_filter (by simp [QueueEvent.ticket])
    calc (events actions).count (.started task.ticket)
      _ = (shown (fun _ => false) task).count (.started task.ticket) := by
        rw [← own, accounts.seen_of_task member]
      _ ≤ (QueueEvent.turn task.ticket).count (.started task.ticket) :=
        (shown_isPrefix _ task).sublist.count_le _
      _ = 1 := by simp [QueueEvent.turn]
  · rw [List.count_eq_zero_of_not_mem seen]
    exact Nat.zero_le 1

/-- Whatever bodies and callers do, the oldest task of a root that is not settled is ready and can
go on, no body starts twice, and every promise that is kept gives what the body of its task brought.
At rest every task that was admitted was carried out once, and whoever still holds its promise gets
its result. Callers who drop their promises change nothing for the others. -/
theorem requests_are_carried_out {schedule : List (Occurrence (Action κ α))}
    {served : Served (ProjectQueue κ α) α}
    (ran : service.run? (.fresh empty) schedule = some served) :
    served.promises.map (·.task) = requested (Occurrence.actions schedule) ∧
    (∀ root ahead task behind, served.state.line root = ahead ++ task :: behind →
      (∀ other ∈ ahead, served.state.isSettled other.ticket) →
        ¬served.state.isSettled task.ticket →
          served.state.isReady task ∧ served.state.CanGoOn task.ticket) ∧
    (∀ ticket, (events (Occurrence.actions schedule)).count (.started ticket) ≤ 1) ∧
    (∀ promise ∈ served.promises, ∀ result, promise.fate = .kept result →
      ∃ bodyEnd, ends promise.task (Occurrence.actions schedule) = [bodyEnd] ∧
        bodyEnd.result = result) ∧
    (served.state.AtRest → ∀ ticket ∈ requested (Occurrence.actions schedule),
      (events (Occurrence.actions schedule)).filter (·.ticket = ticket) =
        QueueEvent.turn ticket ∧
      ∃ bodyEnd, ends ticket (Occurrence.actions schedule) = [bodyEnd] ∧
        served.state.result? ticket = some bodyEnd.result ∧
        ∀ index, served.held? index = some ticket →
          service.step? served (.collect index) =
            some (served.setFate index (.kept bodyEnd.result))) ∧
    (∀ (chosen : Nat → Bool) (other : List (Occurrence (Action κ α))), OnlyDrops chosen other →
      Occurrence.without chosen other = Occurrence.without chosen schedule →
        ∃ after, service.run? (.fresh empty) other = some after ∧
          Occurrence.actions other = Occurrence.actions schedule ∧
          after.state = served.state ∧
          ∀ index, ¬chosen index → after.promises[index]? = served.promises[index]?) := by
  have pays := Pays.of_run ran
  have orderly := pays.accounts.orderly
  have headed := headed_of_run ran
  have lasting : ∀ (queue : ProjectQueue κ α) action next, service.act? queue action = some next →
      ∀ ticket result, service.result? queue ticket = some result →
        service.result? next ticket = some result := by
    intro queue action next acted ticket result known
    exact (step_of_step? acted).result_lasts known
  refine ⟨promises_of_run ran, ?_, pays.accounts.started_once, ?_, ?_, ?_⟩
  · intro root ahead task behind split settled unsettled
    have member : task ∈ served.state.tasks := (mem_line.mp (by rw [split]; simp)).1
    have ready := orderly.isReady_of_oldest headed split settled
    exact ⟨ready, orderly.canGoOn_of_isReady member ready unsettled⟩
  · -- What was handed out is still the result of the task, and that is what the body brought.
    intro promise member result kept
    exact pays.end_of_result (Service.kept_of_run lasting ran promise member result kept)
  · intro atRest ticket asked
    obtain ⟨task, member, rfl⟩ := pays.accounts.mem_of_requested asked
    have settled := orderly.isSettled_of_atRest headed atRest member
    obtain ⟨result, known⟩ := result_of_isSettled settled
    obtain ⟨own, found, stage⟩ := result?_eq_some.mp known
    rw [task?_of_mem orderly.unique member] at found
    obtain rfl := Option.some.inj found
    obtain ⟨bodyEnd, ended, rfl⟩ := pays.end_of_result known
    refine ⟨?_, bodyEnd, ended, known, fun index held => ?_⟩
    · rw [pays.accounts.seen_of_task member, shown_of_over _ (by simp [stage])]
    · have gives : service.result? served.state task.ticket = some bodyEnd.result := known
      simp [Service.step?, held, gives]
  · -- Both schedules are the same but for the drops, which nothing hangs on.
    intro chosen other drops same
    obtain ⟨rest, ranRest, alike⟩ := Service.run_without ran chosen
    rw [← same] at ranRest
    obtain ⟨after, ranAfter, alikeAfter, _⟩ := run_with_drops drops ranRest
    have both := alike.trans alikeAfter
    have actions : ∀ schedule : List (Occurrence (Action κ α)),
        Occurrence.actions (Occurrence.without chosen schedule) = Occurrence.actions schedule :=
      Occurrence.actions_without chosen
    refine ⟨after, ranAfter, ?_, both.states.symm, fun index free => (both.others index free).symm⟩
    rw [← actions other, same, actions]

/-- Two tasks of one root; the body of the first dies after its caller left, and the caller of the
second asks too early and again at the end. -/
def carrying : List (Occurrence (Action Nat Nat)) :=
  [.act .draw, .act (.enter 0 7), .act .draw, .act (.enter 1 7), .act (.wake 0), .act (.start 0),
    .drop 0, .collect 1, .act (.finish 0 (.panicked "out of memory")), .act (.settle 0),
    .act (.wake 1), .act (.start 1), .act (.finish 1 (.returned (.ok 5))), .act (.clear 1),
    .act (.settle 1), .collect 1]

/-- The queue and the promises after that. -/
def carried : Served (ProjectQueue Nat Nat) Nat :=
  ⟨⟨2, [], [], [⟨0, 7, none, .settled (.error (.taskFailed "out of memory"))⟩,
      ⟨1, 7, some 0, .settled (.ok 5)⟩]⟩,
    [⟨0, .dropped⟩, ⟨1, .kept (.ok 5)⟩]⟩

/-- Both tasks had their turn, the second caller has the result of the second, and he would have it
too if the first caller had stayed. -/
theorem requests_are_carried_out_after_death :
    service.run? (.fresh empty) carrying = some carried ∧ carried.state.AtRest ∧
      (events (Occurrence.actions carrying)).filter (·.ticket = 0) = QueueEvent.turn 0 ∧
      (events (Occurrence.actions carrying)).filter (·.ticket = 1) = QueueEvent.turn 1 ∧
      ∃ after, service.run? (.fresh empty) (Occurrence.without (· == 0) carrying) = some after ∧
        after.state = carried.state ∧ after.promises[1]? = carried.promises[1]? := by
  have ran : service.run? (.fresh empty) carrying = some carried := rfl
  have atRest : carried.state.AtRest := by
    refine atRest_of_isSettled fun task member => ?_
    simp only [carried, List.mem_cons, List.not_mem_nil, or_false] at member
    rcases member with rfl | rfl <;> rfl
  obtain ⟨_, _, _, _, resting, dropping⟩ := requests_are_carried_out ran
  have leftOut : Occurrence.without (· == 0) (Occurrence.without (· == 0) carrying) =
      Occurrence.without (· == 0) carrying := rfl
  obtain ⟨after, ranAfter, _, states, others⟩ :=
    dropping (· == 0) _ (onlyDrops_without _ carrying) leftOut
  exact ⟨ran, atRest, (resting atRest 0 (by decide)).1, (resting atRest 1 (by decide)).1,
    after, ranAfter, states, others 1 (by decide)⟩

end FlowService.ProjectQueue
