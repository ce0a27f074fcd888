import FlowService.Proofs.Queue.Outcomes
import Mathlib.Data.Set.Card

/-!
A root bears a mark while its last task is yet to take the mark off. The task of a body that died
never does, so its root counts as busy until a later task takes the mark over.
-/

namespace FlowService.ProjectQueue

variable {κ α : Type}

/-- The body of a task ended by its death. -/
def Died (actions : List (Action κ α)) (ticket : Nat) : Prop :=
  ∃ detail, ends ticket actions = [.panicked detail]

/-- A task that came last in its line keeps the mark of its root. -/
def Keeps (actions : List (Action κ α)) (task : QueueTask κ α) : Prop :=
  -- It takes the mark off only after its body returned.
  ¬task.stage.Over ∨ (∃ result, task.stage = .ended result) ∨ Died actions task.ticket

/-- A body that is not over did not die. -/
theorem not_died_of_unended {actions : List (Action κ α)} {ticket : Nat}
    (unended : ends ticket actions = []) : ¬Died actions ticket := by
  rintro ⟨detail, died⟩
  rw [unended] at died
  cases died

/-- A body that returned did not die. -/
theorem not_died_of_returned {actions : List (Action κ α)} {ticket : Nat}
    {result : Except CheckerError α} (returned : ends ticket actions = [.returned result]) :
    ¬Died actions ticket := by
  rintro ⟨detail, died⟩
  rw [returned] at died
  cases died

/-- No task is on its way from the end of its body to its own end. -/
def Calm (queue : ProjectQueue κ α) : Prop :=
  ∀ task ∈ queue.tasks, task.stage.Over → queue.isSettled task.ticket

/-- In a calm queue a task is settled exactly if its body is over. -/
theorem Calm.isSettled_iff {queue : ProjectQueue κ α} (calm : Calm queue)
    (unique : queue.tickets.Nodup) {task : QueueTask κ α} (member : task ∈ queue.tasks) :
    queue.isSettled task.ticket ↔ task.stage.Over := by
  refine ⟨fun settled => ?_, calm task member⟩
  -- Of all stages only the last one is that of a settled task.
  simp only [isSettled, stage?, task?_of_mem unique member, Option.map_some] at settled
  cases stage : task.stage <;> simp [stage] at settled ⊢

variable [DecidableEq κ]

/-- Some task that was admitted for a root is not settled. -/
def Unsettled (queue : ProjectQueue κ α) (root : κ) : Prop :=
  ∃ task ∈ queue.line root, ¬queue.isSettled task.ticket

/-- The last task that was admitted for a root died. -/
def Stranded (actions : List (Action κ α)) (root : κ) : Prop :=
  ∃ ticket ∈ (admitted root actions).getLast?, Died actions ticket

/-- A root bears a mark exactly if the last task of its line keeps one. -/
structure Exact (actions : List (Action κ α)) (queue : ProjectQueue κ α) : Prop where
  pays : Pays actions queue
  -- A task that will take its mark off is one whose body returned.
  returned : ∀ task ∈ queue.tasks, ∀ result, task.stage = .ended result →
    ends task.ticket actions = [.returned result]
  distinct : (queue.tails.map (·.1)).Nodup
  kept : ∀ root, (queue.tail? root).isSome ↔
    ∃ last ∈ (queue.line root).getLast?, Keeps actions last

namespace Exact

variable {actions : List (Action κ α)} {queue : ProjectQueue κ α}

/-- A body that is not over has no end so far. -/
theorem unended (exact : Exact actions queue) {task : QueueTask κ α} (member : task ∈ queue.tasks)
    (going : ¬task.stage.Over) : ends task.ticket actions = [] := by
  have paid := exact.pays.paid task member
  rw [Stage.result?_eq_none.mpr going] at paid
  exact List.map_eq_nil_iff.mp paid

/-- A mark is only borne by the root of its task. -/
theorem root_of_tail? (exact : Exact actions queue) {root : κ} {ticket : Nat}
    {task : QueueTask κ α} (found : queue.task? ticket = some task)
    (tail : queue.tail? root = some ticket) : task.root = root := by
  have orderly := exact.pays.accounts.orderly
  have marked := orderly.marked root
  rw [tail] at marked
  obtain ⟨last, isLast, same⟩ := Option.map_eq_some_iff.mp marked
  obtain ⟨member, rooted⟩ := mem_line.mp (List.mem_of_getLast? isLast)
  rwa [← eq_of_task? orderly.unique found member same]

/-- A task that goes on keeps its mark or takes it off, and all other marks stay. -/
theorem goOn (exact : Exact actions queue) {action : Action κ α} {ticket : Nat}
    {task : QueueTask κ α} {stage : Stage α} {next : ProjectQueue κ α} (keeping : Prop)
    (found : queue.task? ticket = some task) (pays : Pays (actions ++ [action]) next)
    (tasks : next.tasks = queue.tasks.map (·.restage ticket stage))
    (others : ∀ other, other ≠ ticket → action.endOf? other = none)
    (returned : ∀ result, stage = .ended result →
      ends ticket (actions ++ [action]) = [.returned result])
    (distinct : (next.tails.map (·.1)).Nodup)
    (marks : ∀ root, (next.tail? root).isSome ↔
      (queue.tail? root).isSome ∧ (queue.tail? root = some ticket → keeping))
    (keeps : Keeps (actions ++ [action]) (task.restage ticket stage) ↔
      Keeps actions task ∧ keeping) : Exact (actions ++ [action]) next := by
  have unique := exact.pays.accounts.orderly.unique
  have elsewhere : ∀ other, other ≠ ticket → ends other (actions ++ [action]) = ends other actions := by
    intro other apart
    rw [ends_concat, others other apart, Option.toList_none, List.append_nil]
  -- Whether any other task keeps its mark is as it was.
  have same : ∀ other : QueueTask κ α, other.ticket ≠ ticket →
      (Keeps (actions ++ [action]) (other.restage ticket stage) ↔ Keeps actions other) := by
    intro other apart
    rw [QueueTask.restage_of_ne apart, Keeps, Keeps, Died, Died, elsewhere _ apart]
  refine ⟨pays, fun moved member result ended => ?_, distinct, fun root => ?_⟩
  · rw [tasks] at member
    obtain ⟨before, beforeMember, rfl⟩ := List.mem_map.mp member
    rw [QueueTask.restage_ticket]
    by_cases meant : before.ticket = ticket
    · rw [QueueTask.restage_stage_same meant] at ended
      rw [meant, returned result ended]
    · rw [QueueTask.restage_of_ne meant] at ended
      rw [elsewhere _ meant, exact.returned before beforeMember result ended]
  · have line : next.line root = (queue.line root).map (·.restage ticket stage) := by
      rw [← setStage_line, ProjectQueue.line, tasks]
      rfl
    have kept := exact.kept root
    have marked := exact.pays.accounts.orderly.marked root
    rw [marks, line, List.getLast?_map]
    cases last : (queue.line root).getLast? with
    | none =>
      rw [last] at kept
      simp [kept]
    | some latest =>
      rw [last] at kept marked
      have member := (mem_line.mp (List.mem_of_getLast? last)).1
      -- The mark of the root is that of its last task, so only that task can take it off.
      have bears : (queue.tail? root).isSome → queue.tail? root = some latest.ticket := by
        intro isSome
        obtain ⟨mark, tail⟩ := Option.isSome_iff_exists.mp isSome
        rw [tail] at marked
        rw [tail, ← marked]
        rfl
      simp only [Option.mem_def, Option.some.injEq, exists_eq_left', Option.map_some] at kept ⊢
      by_cases meant : latest.ticket = ticket
      · obtain rfl := eq_of_task? unique found member meant
        rw [keeps, ← kept]
        exact and_congr_right fun isSome => by simp [bears isSome, meant]
      · rw [same latest meant, ← kept]
        exact and_iff_left_of_imp fun isSome tail =>
          absurd (Option.some.inj ((bears isSome).symm.trans tail)) meant

/-- A new task keeps the mark of its root. -/
theorem enter (exact : Exact actions queue) {ticket : Nat} (drawn : ticket ∈ queue.drawn) (root : κ) :
    Exact (actions ++ [.enter ticket root]) (queue.enter ticket root) := by
  have same : ∀ other, ends other (actions ++ [.enter ticket root]) = ends other actions := by
    simp [ends_concat, Action.endOf?]
  refine ⟨exact.pays.enter drawn root, fun task member result ended => ?_, ?_, fun other => ?_⟩
  · rw [same]
    rcases List.mem_append.mp member with old | new
    · exact exact.returned task old result ended
    · obtain rfl := List.mem_singleton.mp new
      cases ended
  · -- The root is taken out of the table before it is put in again.
    have apart : root ∉ (queue.tails.filter (·.1 != root)).map (·.1) := by simp
    have kept : ((queue.tails.filter (·.1 != root)).map (·.1)).Nodup :=
      exact.distinct.sublist (List.filter_sublist.map _)
    simp [ProjectQueue.enter, List.nodup_append, kept]
  · rw [enter_tail?, enter_line]
    by_cases rooted : other = root
    · subst rooted
      simp [Keeps]
    · have kept := exact.kept other
      simp only [Keeps, Died] at kept
      simpa [rooted, Ne.symm rooted, Keeps, Died, same] using kept

/-- After every action exactly those roots bear a mark whose last task keeps one. -/
theorem step (exact : Exact actions queue) {action : Action κ α} {next : ProjectQueue κ α}
    (step : Step queue action next) : Exact (actions ++ [action]) next := by
  have pays := exact.pays.step step
  have unique := exact.pays.accounts.orderly.unique
  -- Only a task that clears its mark does not keep it.
  cases step with
  | draw =>
    have same : ∀ other, ends other (actions ++ [.draw]) = ends other actions := by
      simp [ends_concat, Action.endOf?]
    refine ⟨pays, fun task member result ended => ?_, exact.distinct, fun root => ?_⟩
    · rw [same]
      exact exact.returned task member result ended
    · have tails : queue.draw.tail? root = queue.tail? root := rfl
      have kept := exact.kept root
      simp only [Keeps, Died] at kept
      simpa only [Keeps, Died, same, draw_line, tails] using kept
  | enter drawn => exact exact.enter drawn _
  | @wake ticket task found waits ready =>
    obtain ⟨member, rfl⟩ := mem_of_task? found
    refine exact.goOn True found pays rfl (fun _ _ => rfl) (fun _ ended => absurd ended (by simp))
      exact.distinct (by simp) ?_
    simp [Keeps, QueueTask.restage_stage_same, waits]
  | @start ticket task found awake =>
    obtain ⟨member, rfl⟩ := mem_of_task? found
    refine exact.goOn True found pays rfl (fun _ _ => rfl) (fun _ ended => absurd ended (by simp))
      exact.distinct (by simp) ?_
    simp [Keeps, QueueTask.restage_stage_same, awake]
  | @finish ticket task bodyEnd found runs =>
    obtain ⟨member, rfl⟩ := mem_of_task? found
    have unended := exact.unended member (by simp [runs])
    have onlyEnd : ends task.ticket (actions ++ [.finish task.ticket bodyEnd]) = [bodyEnd] := by
      simp [ends_concat, unended, Action.endOf?]
    refine exact.goOn True found pays rfl (fun other apart => ?_) (fun result ended => ?_)
      exact.distinct (by simp) ?_
    · simp [Action.endOf?, Ne.symm apart]
    · rw [onlyEnd]
      cases bodyEnd <;> cases ended
      rfl
    · cases bodyEnd <;>
        simp [Keeps, Died, QueueTask.restage_stage_same, runs, onlyEnd, BodyEnd.stage]
  | @clear ticket task result found ended =>
    obtain ⟨member, rfl⟩ := mem_of_task? found
    have returned := exact.returned task member result ended
    have same : ends task.ticket (actions ++ [.clear task.ticket]) = [.returned result] := by
      simp [ends_concat, returned, Action.endOf?]
    refine exact.goOn False found pays (clearTail_setStage_tasks ..) (fun _ _ => rfl)
      (fun _ again => absurd again (by simp)) ?_ (fun root => ?_) ?_
    · rw [setStage, ProjectQueue.clearTail]
      split
      · exact exact.distinct.sublist (List.filter_sublist.map _)
      · exact exact.distinct
    · rw [setStage_tail?, clearTail_tail?]
      split
      · rename_i taken
        simp [taken.1, taken.2]
      · rename_i left
        refine (and_iff_left fun tail => left ?_).symm
        obtain rfl := exact.root_of_tail? found tail
        exact ⟨rfl, tail⟩
    · have alive := not_died_of_returned same
      simp [Keeps, QueueTask.restage_stage_same, alive]
  | @settle ticket task result found cleared =>
    obtain ⟨member, rfl⟩ := mem_of_task? found
    have same : ends task.ticket (actions ++ [.settle task.ticket]) = ends task.ticket actions := by
      simp [ends_concat, Action.endOf?]
    refine exact.goOn True found pays rfl (fun _ _ => rfl) (fun _ ended => absurd ended (by simp))
      exact.distinct (by simp) ?_
    simp [Keeps, Died, QueueTask.restage_stage_same, cleared, same]

/-- In every queue that a service can come to exactly those roots bear a mark whose last task keeps
one. -/
theorem of_run {schedule : List (Occurrence (Action κ α))} {served : Served (ProjectQueue κ α) α}
    (ran : service.run? (.fresh empty) schedule = some served) :
    Exact (Occurrence.actions schedule) served.state := by
  have ranNothing : service.run? (.fresh (empty : ProjectQueue κ α)) [] = some (.fresh empty) := rfl
  refine Service.actions_induction (motive := Exact) ?_ ?_ ran
  · exact ⟨Pays.of_run ranNothing, fun task member => (nomatch member), List.nodup_nil,
      fun root => by simp [Served.fresh, tail?, line, empty]⟩
  · intro actions queue action next exact stepped
    exact exact.step (step_of_step? stepped)

/-- In a calm queue a root has an unsettled task exactly if the body of its last one is not over. -/
theorem unsettled_iff (exact : Exact actions queue) (calm : Calm queue) (root : κ) :
    Unsettled queue root ↔ ∃ last ∈ (queue.line root).getLast?, ¬last.stage.Over := by
  have orderly := exact.pays.accounts.orderly
  constructor
  · rintro ⟨task, inLine, unsettled⟩
    have going : ¬task.stage.Over := fun passed => unsettled (calm task (mem_line.mp inLine).1 passed)
    obtain ⟨ahead, behind, split⟩ := List.append_of_mem inLine
    cases last : behind.getLast? with
    | none =>
      refine ⟨task, ?_, going⟩
      simp [split, List.getLast?_eq_none_iff.mp last]
    | some latest =>
      -- Nothing behind a task whose body is not over was called.
      have member := List.mem_of_getLast? last
      have order := orderly.pairwise root
      rw [split] at order
      refine ⟨latest, by simp [split, List.getLast?_cons, last], fun passed => going ?_⟩
      exact (List.pairwise_cons.mp (List.pairwise_append.mp order).2.1).1 latest member passed.called
  · rintro ⟨last, isLast, going⟩
    have inLine := List.mem_of_getLast? (Option.mem_def.mp isLast)
    refine ⟨last, inLine, fun settled => going ?_⟩
    exact (calm.isSettled_iff orderly.unique (mem_line.mp inLine).1).mp settled

/-- A root is stranded when the last task of its line died. -/
theorem stranded_iff (exact : Exact actions queue) (root : κ) :
    Stranded actions root ↔ ∃ last ∈ (queue.line root).getLast?, Died actions last.ticket := by
  rw [Stranded, ← exact.pays.accounts.lined root, List.getLast?_map]
  cases (queue.line root).getLast? <;> simp

end Exact

/-- A root is in the table of marks exactly if it bears a mark. -/
theorem mem_tails_iff (queue : ProjectQueue κ α) (root : κ) :
    root ∈ queue.tails.map (·.1) ↔ (queue.tail? root).isSome := by
  simp [tail?]

/-- When no task is on its way from the end of its body to its own end, the marked roots are those
with an unsettled task and those whose last task died, which is over, and the count of busy roots
counts both. So it counts the roots with unsettled tasks exactly if no last task of a root died. -/
theorem busyRoots_counts_unsettled_and_stranded {schedule : List (Occurrence (Action κ α))}
    {served : Served (ProjectQueue κ α) α}
    (ran : service.run? (.fresh empty) schedule = some served) (calm : Calm served.state) :
    (∀ root, (served.state.tail? root).isSome ↔
      Unsettled served.state root ∨ Stranded (Occurrence.actions schedule) root) ∧
    (∀ root, Stranded (Occurrence.actions schedule) root → ¬Unsettled served.state root) ∧
    served.state.busyRoots =
      {root | Unsettled served.state root ∨ Stranded (Occurrence.actions schedule) root}.ncard ∧
    ((∀ root, (served.state.tail? root).isSome ↔ Unsettled served.state root) ↔
      ∀ root, ¬Stranded (Occurrence.actions schedule) root) ∧
    ((∀ root, ¬Stranded (Occurrence.actions schedule) root) →
      served.state.busyRoots = {root | Unsettled served.state root}.ncard) := by
  have exact := Exact.of_run ran
  have orderly := exact.pays.accounts.orderly
  -- A last task of a calm queue keeps its mark if its body is not over or died.
  have marked : ∀ root, (served.state.tail? root).isSome ↔
      Unsettled served.state root ∨ Stranded (Occurrence.actions schedule) root := by
    intro root
    rw [exact.kept root, exact.unsettled_iff calm, exact.stranded_iff]
    simp only [← exists_or, ← and_or_left]
    refine exists_congr fun last => and_congr_right fun isLast => or_congr_right ?_
    refine or_iff_right ?_
    rintro ⟨result, ended⟩
    have member := (mem_line.mp (List.mem_of_getLast? (Option.mem_def.mp isLast))).1
    have settled := calm last member (by simp [ended])
    simp [isSettled, stage?, task?_of_mem orderly.unique member, ended] at settled
  have settled : ∀ root, Stranded (Occurrence.actions schedule) root →
      ¬Unsettled served.state root := by
    intro root stranded unsettled
    obtain ⟨last, isLast, died⟩ := (exact.stranded_iff root).mp stranded
    obtain ⟨_, again, going⟩ := (exact.unsettled_iff calm root).mp unsettled
    obtain rfl := Option.some.inj (isLast.symm.trans again)
    have member := (mem_line.mp (List.mem_of_getLast? (Option.mem_def.mp isLast))).1
    exact not_died_of_unended (exact.unended member going) died
  have counted : served.state.busyRoots =
      {root | Unsettled served.state root ∨ Stranded (Occurrence.actions schedule) root}.ncard := by
    have table : {root | Unsettled served.state root ∨
        Stranded (Occurrence.actions schedule) root} =
          ((served.state.tails.map (·.1)).toFinset : Set κ) := by
      ext root
      simp only [Set.mem_ofPred_eq, ← marked root, ← mem_tails_iff, List.coe_toFinset]
    rw [table, Set.ncard_coe_finset, List.toFinset_card_of_nodup exact.distinct, busyRoots,
      List.length_map]
  refine ⟨marked, settled, counted, ⟨fun claimed root stranded => ?_, fun none root => ?_⟩,
    fun none => ?_⟩
  · exact settled root stranded ((claimed root).mp ((marked root).mpr (Or.inr stranded)))
  · rw [marked root, or_iff_left (none root)]
  · simpa [none] using counted

/-- The body of the only task of a root dies, and the task settles. -/
def stranding : List (Occurrence (Action Nat Nat)) :=
  [.act .draw, .act (.enter 0 7), .act (.wake 0), .act (.start 0),
    .act (.finish 0 (.panicked "out of memory")), .act (.settle 0)]

/-- The queue and the promise after that. -/
def stranded : Served (ProjectQueue Nat Nat) Nat :=
  ⟨⟨1, [], [(7, 0)], [⟨0, 7, none, .settled (.error (.taskFailed "out of memory"))⟩]⟩,
    [⟨0, .held⟩]⟩

/-- Nothing is on its way in that queue, since its only task is settled. -/
theorem calm_stranded : Calm stranded.state := by
  intro task member _
  obtain rfl := List.mem_singleton.mp member
  rfl

/-- Although all tasks of the root are settled, it bears a mark and counts as busy. -/
theorem busyRoots_after_death :
    service.run? (.fresh empty) stranding = some stranded ∧ Calm stranded.state ∧
      ¬Unsettled stranded.state 7 ∧ (stranded.state.tail? 7).isSome ∧
      stranded.state.busyRoots = 1 := by
  refine ⟨rfl, calm_stranded, ?_, rfl, rfl⟩
  rintro ⟨task, inLine, unsettled⟩
  obtain rfl := List.mem_singleton.mp (mem_line.mp inLine).1
  exact unsettled rfl

/-- A root whose last body died is stranded, and the only one that counts as busy. -/
theorem busyRoots_counts_unsettled_and_stranded_after_death :
    service.run? (.fresh empty) stranding = some stranded ∧ Calm stranded.state ∧
      Stranded (Occurrence.actions stranding) 7 ∧ ¬Unsettled stranded.state 7 := by
  have ran : service.run? (.fresh empty) stranding = some stranded := rfl
  have died : Stranded (Occurrence.actions stranding) 7 := ⟨0, rfl, "out of memory", rfl⟩
  have counts := busyRoots_counts_unsettled_and_stranded ran calm_stranded
  exact ⟨ran, calm_stranded, died, counts.2.1 7 died⟩

end FlowService.ProjectQueue
